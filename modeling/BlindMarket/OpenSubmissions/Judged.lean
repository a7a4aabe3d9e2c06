import BlindMarket.OpenSubmissions.Truth

/-!
# Judged before it is settled

What the platform judge sends rests on kept results it read in the same tick,
each with the hash the escrow holds. A pick is the best of the payable ones. A
refund finds none payable among as many as the escrow has counted, which is
every submitter unless the scan brought one of them twice.
-/
namespace OpenSubmissions

open Async Prog Runs
open BlindEscrow (Address Bytes32 OpenPhase Deployed)

variable {cfg : Config} {t : Call} {s s₀ : State cfg} {judged : List JudgedEntry}
  {a b c w : JudgedEntry} {best : Option JudgedEntry} {tr later earlier : List (Ev cfg)}
  {e : Ev cfg} {pool : Pool Ans Code Response Call (State cfg)} {told : Answers Ans Code}

/-! ## The best -/

theorem better_self (a : JudgedEntry) : better a a = 0 := by simp [better, orElse]

theorem better_trans (hab : better a b < 0) (hbc : better b c < 0) : better a c < 0 := by
  simp only [better, orElse] at *
  split_ifs at * <;> omega

/-- What beats an entry beats another, or that one does. -/
theorem better_split (hac : better a c < 0) : better a b < 0 ∨ better b c < 0 := by
  simp only [better, orElse] at *
  split_ifs at * <;> omega

/-- The winner so far comes from those seen, and no payable one of them beats it. -/
theorem pickRounds_some (h : judged.foldl pickRound best = some w) :
    (best = some w ∨ w ∈ judged ∧ w.payable = true) ∧
      ∀ b, best = some b ∨ b ∈ judged ∧ b.payable = true → ¬ better b w < 0 := by
  induction judged generalizing best with
  | nil =>
    obtain rfl : best = some w := h
    refine ⟨.inl rfl, ?_⟩
    rintro b (hb | ⟨hb, -⟩)
    · cases hb
      simp [better_self]
    · cases hb
  | cons e judged ih =>
    rw [List.foldl_cons] at h
    obtain ⟨hfrom, hbest⟩ := ih h
    by_cases htake : (e.payable && best.all fun b => better e b < 0) = true
    · have hround : pickRound best e = some e := if_pos htake
      rw [hround] at hfrom hbest
      obtain ⟨hpayable, hbeats⟩ := Bool.and_eq_true_iff.mp htake
      have hnew := hbest e (.inl rfl)
      refine ⟨.inr ?_, ?_⟩
      · obtain heq | ⟨hmem, hpays⟩ := hfrom
        · cases heq
          exact ⟨List.mem_cons_self, hpayable⟩
        · exact ⟨List.mem_cons_of_mem _ hmem, hpays⟩
      · rintro b (rfl | ⟨hmem, hpays⟩)
        · intro hb
          have heb : better e b < 0 := by simpa using hbeats
          exact hnew (better_trans heb hb)
        · obtain rfl | hmem := List.mem_cons.mp hmem
          · exact hnew
          · exact hbest b (.inr ⟨hmem, hpays⟩)
    · have hround : pickRound best e = best := if_neg htake
      rw [hround] at hfrom hbest
      refine ⟨hfrom.imp id fun h => ⟨List.mem_cons_of_mem _ h.1, h.2⟩, ?_⟩
      rintro b (hb | ⟨hmem, hpays⟩)
      · exact hbest b (.inl hb)
      · obtain rfl | hmem := List.mem_cons.mp hmem
        · -- It was passed over for one that it does not beat.
          intro hb
          apply htake
          cases best with
          | none => simp [hpays]
          | some b' =>
            simp only [hpays, Option.all_some, Bool.true_and, decide_eq_true_eq]
            obtain hlt | hlt := better_split (b := b') hb
            · exact hlt
            · exact absurd hlt (hbest b' (.inl rfl))
        · exact hbest b (.inr ⟨hmem, hpays⟩)

theorem pickWinner_some (h : pickWinner judged = some w) : w ∈ judged ∧ w.payable = true ∧
    ∀ b ∈ judged, b.payable = true → ¬ better b w < 0 := by
  obtain ⟨hfrom, hbest⟩ := pickRounds_some h
  obtain hnone | ⟨hmem, hpays⟩ := hfrom
  · cases hnone
  · exact ⟨hmem, hpays, fun b hb hpays => hbest b (.inr ⟨hb, hpays⟩)⟩

theorem pickRounds_none (h : judged.foldl pickRound best = none) :
    best = none ∧ ∀ b ∈ judged, b.payable = false := by
  induction judged generalizing best with
  | nil => exact ⟨h, by simp⟩
  | cons e judged ih =>
    rw [List.foldl_cons] at h
    obtain ⟨hround, hrest⟩ := ih h
    simp only [pickRound] at hround
    split at hround
    · cases hround
    · next hpass =>
      subst hround
      simp only [Option.all_none, Bool.and_true, Bool.not_eq_true] at hpass
      exact ⟨rfl, List.forall_mem_cons.mpr ⟨hpass, hrest⟩⟩

/-! ## What is judged -/

theorem mem_withResult {subs : List (Address × Nat)} {results : List (Option OpenResult)}
    {sub : Submission} (h : sub ∈ withResult subs results) :
    (sub.submitter, some sub.result) ∈ (subs.map (·.1)).zip results := by
  obtain ⟨⟨p, r⟩, hzip, hsome⟩ := List.mem_filterMap.mp h
  obtain ⟨result, rfl, rfl⟩ := Option.map_eq_some_iff.mp hsome
  rw [List.zip_map_left]
  exact List.mem_map.mpr ⟨(p, some result), hzip, rfl⟩

/-- A list without repetition inside another, and no shorter, holds all of it. -/
theorem covers {α : Type} {l l' : List α} (hnodup : l.Nodup) (hsub : l ⊆ l')
    (hlength : l'.length ≤ l.length) : l' ⊆ l :=
  ((hnodup.subperm hsub).perm_of_length_le hlength).symm.subset

def JudgeCall.winner : JudgeCall → Option Address
  | .selectWinnerByBackup _ winner _ | .selectWinnerByVerifier _ winner _ => some winner
  | .voidOpenTask _ _ => none

/-- A submission, judged as the call was decided. -/
def Basis.entry (cfg : Config) (basis : Basis) (sub : Submission) : JudgedEntry :=
  judgeSubmission cfg basis.criteria sub

/-- Every address with a submission on the escrow is among those judged. -/
def Basis.Covers (basis : Basis) (s : State cfg) (chain : TaskChain) (taskId : Nat) : Prop :=
  ∀ a, (s.escrows chain).escrow.submissionOf taskId a ≠ 0 →
    ∃ sub ∈ basis.toJudge, sub.submitter = a

/-- What stands behind a judge's call as it is sent. -/
structure SentJudged (earlier : List (Ev cfg)) (s : State cfg) (t : Call) (chain : TaskChain)
    (call : JudgeCall) (basis : Basis) : Prop where
  criteria : ∃ e ∈ earlier, ∃ record listing, e.label = .ran t (.listingOf record) (.ok (some listing)) ∧
    record.chain = chain ∧ record.taskId = call.taskId ∧
    basis.criteria = listing.verificationCriteria.getD NO_CRITERIA
  kept : ∀ sub ∈ basis.toJudge, ∃ e ∈ earlier, ∃ subs results,
    e.label = .ran t (.redis (.hmgetResults (cfg.taskRef chain call.taskId) subs)) (.ok results) ∧
    e.pre.results (cfg.taskRef chain call.taskId) sub.submitter = some sub.result
  committed : ∀ sub ∈ basis.toJudge, sub.result.evidenceHash ≠ 0 ∧
    (s.escrows chain).escrow.submissionOf call.taskId sub.submitter = sub.result.evidenceHash
  void : call.winner = none → (∀ sub ∈ basis.toJudge, (basis.entry cfg sub).payable = false) ∧
    ((basis.toJudge.map (·.submitter)).Nodup → basis.Covers s chain call.taskId)
  pick : ∀ winner, call.winner = some winner → ∃ sub ∈ basis.toJudge, sub.submitter = winner ∧
    (basis.entry cfg sub).payable = true ∧ ∀ other ∈ basis.toJudge,
      (basis.entry cfg other).payable = true → ¬ better (basis.entry cfg other) (basis.entry cfg sub) < 0

theorem judgeSubmission_submitter (criteria : VerificationCriteria) (sub : Submission) :
    (judgeSubmission cfg criteria sub).submitter = sub.submitter := by
  simp only [judgeSubmission]
  split
  · rfl
  · rfl
  · split
    · rfl
    · split <;> rfl

theorem judgeCall_winner (asBackup : Bool) (taskId : Nat) (winner : Option JudgedEntry)
    (scorecardHash : Bytes32) :
    (judgeCall asBackup taskId winner scorecardHash).winner = winner.map (·.submitter) := by
  cases winner <;> cases asBackup <;> rfl

/-- The record a tick looks at is that of the task it sends for. -/
theorem due_task {ref : TaskRef} {record : OpenTaskRecord} (hsound : Sound s)
    (htold : Answered t s told) (hdue : Due cfg told ref)
    (hrecord : ⟨.redis (.getRecord ref), .ok (some record)⟩ ∈ told) :
    ref = cfg.taskRef record.chain record.taskId := by
  obtain ⟨scope, nowSec, limit, refs, hscope, hin, hmem⟩ := hdue
  obtain ⟨_, _, hshows⟩ := htold.mem hmem
  obtain ⟨_, _, hsaved⟩ := htold.mem hrecord
  have hown : Own cfg ref := own_of_mem (by rw [hshows ref hin]; exact hscope)
  exact (hsound.record ref record hsaved hown).ref

/-- As many judged as the escrow counts are all of its submitters. -/
theorem covers_of_count {chain : TaskChain} {taskId : Nat} {basis : Basis}
    (hcommitted : ∀ sub ∈ basis.toJudge, (s.escrows chain).escrow.submissionOf taskId sub.submitter ≠ 0)
    (hcount : (s.escrows chain).escrow.submissionCount taskId ≤ basis.toJudge.length)
    (hnodup : (basis.toJudge.map (·.submitter)).Nodup) : basis.Covers s chain taskId := by
  obtain ⟨l, -, hlength, hmem⟩ := (s.escrows chain).submitters taskId
  have hsub : basis.toJudge.map (·.submitter) ⊆ l := by
    intro a ha
    obtain ⟨sub, hsub, rfl⟩ := List.mem_map.mp ha
    exact (hmem _).mpr (hcommitted sub hsub)
  have hall := covers hnodup hsub (by rwa [List.length_map, hlength])
  intro a ha
  exact List.mem_map.mp (hall ((hmem a).mpr ha))

theorem Decided.sent {chain : TaskChain} {call : JudgeCall} {basis : Basis}
    (h : Decided cfg told chain call basis) (hsound : Sound s) (htold : Answered t s told)
    (hran : ∀ (c : Cmd) (r : Except Code (Ans c)), ⟨c, r⟩ ∈ told →
      ∃ e ∈ earlier, e.label = .ran t c r ∧ ∃ x, respond t x e.pre c = (r, e.post)) :
    SentJudged earlier s t chain call basis := by
  obtain ⟨ref, record, phase, count, listing, subs, results, scorecardHash, hdue, hrecord, rfl,
    hphase, hcount, hlisting, hcriteria, -, hresults, hjudge, hcall, hvoid⟩ := h
  have hid : call.taskId = record.taskId := by rw [hcall, judgeCall_taskId]
  have hwinner : call.winner =
      (pickWinner (judgeSubmissions cfg basis.toJudge basis.criteria)).map (·.submitter) := by
    rw [hcall, judgeCall_winner]
  have href : ref = cfg.taskRef record.chain call.taskId := by
    rw [hid]
    exact due_task hsound htold hdue hrecord
  have hread : ∀ sub ∈ basis.toJudge, (sub.submitter, some sub.result) ∈ (subs.map (·.1)).zip results ∧
      ⟨.redis (.hmgetResults ref (subs.map (·.1))), .ok results⟩ ∈ told := by
    intro sub hsub
    rw [hjudge] at hsub
    have hzip := mem_withResult (List.mem_of_mem_take hsub)
    obtain rfl | hmem := hresults
    · simp at hzip
    · exact ⟨hzip, hmem⟩
  have hcommitted : ∀ sub ∈ basis.toJudge, sub.result.evidenceHash ≠ 0 ∧
      (s.escrows record.chain).escrow.submissionOf call.taskId sub.submitter =
        sub.result.evidenceHash := by
    intro sub hsub
    obtain ⟨hzip, hmem⟩ := hread sub hsub
    obtain ⟨_, _, hshows⟩ := htold.mem hmem
    obtain ⟨-, heq, hne⟩ := hshows _ hzip sub.result rfl
    rw [href] at heq
    exact ⟨hne, heq⟩
  refine ⟨?_, fun sub hsub => ?_, hcommitted, fun hnone => ⟨?_, fun hnodup => ?_⟩, ?_⟩
  · obtain ⟨e, he, hlabel, -⟩ := hran _ _ hlisting
    exact ⟨e, he, record, listing, hlabel, rfl, hid.symm, hcriteria⟩
  · obtain ⟨hzip, hmem⟩ := hread sub hsub
    obtain ⟨e, he, hlabel, x, hx⟩ := hran _ _ hmem
    rw [← href]
    refine ⟨e, he, _, results, hlabel, ?_⟩
    rw [(respond_redis hx).1] at hzip
    exact (snd_of_mem_zip_map hzip).symm
  · rw [hwinner, Option.map_eq_none_iff] at hnone
    intro sub hsub
    exact (pickRounds_none hnone).2 _ (List.mem_map_of_mem hsub)
  · rw [hwinner, Option.map_eq_none_iff] at hnone
    obtain ⟨told', hsuffix, hphaseMem⟩ := hcount
    have hcounted := (htold.suffix hsuffix phase hphase hphaseMem).2
    refine covers_of_count (fun sub hsub => ?_) ?_ hnodup
    · rw [(hcommitted sub hsub).2]
      exact (hcommitted sub hsub).1
    · rw [hid, hcounted]
      exact hvoid hnone
  · intro winner hpick
    rw [hwinner] at hpick
    obtain ⟨w, hw, rfl⟩ := Option.map_eq_some_iff.mp hpick
    obtain ⟨hmem, hpays, hbest⟩ := pickWinner_some hw
    obtain ⟨sub, hsub, rfl⟩ := List.mem_map.mp hmem
    refine ⟨sub, hsub, (judgeSubmission_submitter _ _).symm, hpays, fun other hother hpays' => ?_⟩
    exact hbest _ (List.mem_map_of_mem hother) hpays'

/-- The platform judge settles a task on kept results the escrow committed to: it refunds when none
of them is payable and all submitters are among them, if none is there twice, and picks the best
payable one. -/
theorem judged_before_sent (h0 : Initial s₀) (h : PoolRun (backend cfg) ⟨s₀, []⟩ tr pool)
    (later earlier : List (Ev cfg)) (e : Ev cfg) (htr : tr = later ++ e :: earlier) (t : Call)
    (chain : TaskChain) (call : JudgeCall) (basis : Basis) (r : Except Code TxId)
    (hlabel : e.label = .ran t (.send chain call basis) r) :
    SentJudged earlier e.pre t chain call basis := by
  subst htr
  obtain ⟨hm, hsound, hknown⟩ := backend_at h h0
  obtain ⟨b, b', hpre, -, -⟩ := h.split
  generalize e.post = s' at hm
  generalize e.pre = s at hm hsound hknown ⊢
  cases hm with
  | ran t' told c r' ha hasks hx =>
    cases hlabel
    refine hasks.sent hsound (hknown t told ha).2 fun c r hmem => ?_
    obtain ⟨e, he, hran⟩ := known_mem ha hmem
    exact ⟨e, he, hran, ran_responds hpre he hran⟩
  | _ => cases hlabel

/-! ## Two looks -/

/-- 20 and 21 submit, and the windows before the backup judge's pass. -/
def twoSubmissions : List BlindEscrow.Cue :=
  demoOpen ++
    [.send ⟨20, 0, .submitOpen 1 (demoConfig.openEvidenceHash PARIS none)⟩,
      .send ⟨21, 0, .submitOpen 1 (demoConfig.openEvidenceHash HOURS none)⟩, .wait 183600]

/-- The task is listed, and both submissions are recorded. -/
def bothRecorded : List (Cue Call Turn Env) :=
  let event (submitter : Address) (resultData : ResultData) (count : Nat) : Op :=
    .handle .base (.openSubmission 1 submitter (demoConfig.openEvidenceHash resultData none) count)
  ([.move (.listing demoRef (some ⟨some 10, some 11, some 8200, some CAPITAL⟩)),
    .enter ⟨0, 0, 0, event 20 PARIS 1⟩] : Cues) ++ plain 0 14 ++
  ([.leave 0, .enter ⟨1, 0, 0, event 21 HOURS 2⟩] : Cues) ++ plain 0 6 ++ ([.leave 0] : Cues)

/-- A submitter sends its result again, and it is kept. -/
def resend (id : Nat) (address : Address) (resultData : ResultData) : List (Cue Call Turn Env) :=
  ([.enter ⟨id, 0, 0, .submitOpen ⟨address, []⟩ 7 ⟨⟨resultData, none⟩, none⟩⟩,
    .turn 0 { ref := demoRef }, .turn 0 { flag := true }, .turn 0 { flag := true }] : Cues) ++
    plain 0 7 ++
  ([.leave 0] : Cues)

/-- A tick in the backup judge's window, up to its scan. -/
def look (id pages : Nat) : List (Cue Call Turn Env) :=
  ([.enter ⟨id, 0, pages, .judge⟩, .turn 0 { number := 184600 }, .turn 0 { flag := true },
    .turn 0 {}, .turn 0 { refs := [demoRef] }] : Cues) ++ plain 0 10

/-- The second page of the scan brings 20 again, and nothing is kept for 21. -/
def seenTwice : List (Cue Call Turn Env) :=
  bothRecorded ++ resend 2 20 PARIS ++ look 3 2 ++
    ([.turn 0 { picks := [1] }, .turn 0 { picks := [0, 1] }] : Cues) ++ plain 0 3

/-- 20 answers in fewer characters than the floor asks for, and outranks 21. -/
def outranked : List (Cue Call Turn Env) :=
  bothRecorded ++ resend 2 20 PARIS ++ resend 3 21 HOURS ++ look 4 1 ++
    ([.turn 0 { picks := [0, 1] }] : Cues) ++ plain 0 3

theorem seenTwice_plays :
    ((stage demoConfig).play seenTwice ⟨demoStart twoSubmissions, []⟩).isSome = true := by decide

theorem outranked_plays :
    ((stage demoConfig).play outranked ⟨demoStart twoSubmissions, []⟩).isSome = true := by decide

/-- A refund is sent, and nothing of 21 is among what was judged. -/
def voidsUnseen (e : Ev demoConfig) : Bool :=
  match e.label with
  | .ran _ (.send .base (.voidOpenTask 1 5) basis) _ =>
    (e.pre.escrows .base).escrow.submissionOf 1 21 ≠ 0 ∧
      ∀ sub ∈ basis.toJudge, sub.submitter ≠ 21
  | _ => false

/-- 21 is picked, and another is better. -/
def picksOutranked (e : Ev demoConfig) : Bool :=
  match e.label with
  | .ran _ (.send .base (.selectWinnerByBackup 1 21 5) basis) _ =>
    ∃ other ∈ basis.toJudge, ∀ sub ∈ basis.toJudge, sub.submitter = 21 →
      better (basis.entry demoConfig other) (basis.entry demoConfig sub) < 0
  | _ => false

theorem voidsUnseen_sends {e : Ev demoConfig} (h : voidsUnseen e = true) :
    ∃ t basis r, e.label = .ran t (.send .base (.voidOpenTask 1 5) basis) r ∧
      ¬ basis.Covers e.pre .base 1 := by
  unfold voidsUnseen at h
  split at h
  · next t basis r hlabel =>
    obtain ⟨hne, hout⟩ := of_decide_eq_true h
    refine ⟨t, basis, r, hlabel, fun hcovers => ?_⟩
    obtain ⟨sub, hsub, heq⟩ := hcovers 21 hne
    exact hout sub hsub heq
  · cases h

theorem picksOutranked_sends {e : Ev demoConfig} (h : picksOutranked e = true) :
    ∃ t basis r, e.label = .ran t (.send .base (.selectWinnerByBackup 1 21 5) basis) r ∧
      ∃ other ∈ basis.toJudge, ∀ sub ∈ basis.toJudge, sub.submitter = 21 →
        better (basis.entry demoConfig other) (basis.entry demoConfig sub) < 0 := by
  unfold picksOutranked at h
  split at h
  · next t basis r hlabel => exact ⟨t, basis, r, hlabel, of_decide_eq_true h⟩
  · cases h

theorem seenTwice_voids : (((stage demoConfig).play seenTwice ⟨demoStart twoSubmissions, []⟩).get
    seenTwice_plays).1.any voidsUnseen = true := by decide

theorem outranked_picks : (((stage demoConfig).play outranked ⟨demoStart twoSubmissions, []⟩).get
    outranked_plays).1.any picksOutranked = true := by decide

/-- A scan that brings one submitter twice makes up for another's missing result, and what is not
payable may come before the winner. -/
theorem judged_before_sent_fails :
    (∃ tr pool, PoolRun (backend demoConfig) ⟨demoStart twoSubmissions, []⟩ tr pool ∧
      ∃ e ∈ tr, ∃ t basis r, e.label = .ran t (.send .base (.voidOpenTask 1 5) basis) r ∧
        ¬ basis.Covers e.pre .base 1) ∧
    ∃ tr pool, PoolRun (backend demoConfig) ⟨demoStart twoSubmissions, []⟩ tr pool ∧
      ∃ e ∈ tr, ∃ t basis r, e.label = .ran t (.send .base (.selectWinnerByBackup 1 21 5) basis) r ∧
        ∃ other ∈ basis.toJudge, ∀ sub ∈ basis.toJudge, sub.submitter = 21 →
          better (basis.entry demoConfig other) (basis.entry demoConfig sub) < 0 := by
  refine ⟨⟨_, _, Stage.play_get seenTwice_plays, ?_⟩, ⟨_, _, Stage.play_get outranked_plays, ?_⟩⟩
  · obtain ⟨e, he, hvoids⟩ := List.any_eq_true.mp seenTwice_voids
    exact ⟨e, he, voidsUnseen_sends hvoids⟩
  · obtain ⟨e, he, hpicks⟩ := List.any_eq_true.mp outranked_picks
    exact ⟨e, he, picksOutranked_sends hpicks⟩

theorem judged_before_sent_outranked : ∃ (e : Ev demoConfig) (earlier : List (Ev demoConfig))
    (t : Call) (basis : Basis) (r : Except Code TxId),
    e.label = .ran t (.send .base (.selectWinnerByBackup 1 21 5) basis) r ∧
      SentJudged earlier e.pre t .base (.selectWinnerByBackup 1 21 5) basis := by
  obtain ⟨e, he, hpicks⟩ := List.any_eq_true.mp outranked_picks
  obtain ⟨t, basis, r, hlabel, -⟩ := picksOutranked_sends hpicks
  obtain ⟨later, earlier, htr⟩ := List.append_of_mem he
  exact ⟨e, earlier, t, basis, r, hlabel, judged_before_sent (demoStart_initial twoSubmissions)
    (Stage.play_get outranked_plays) later earlier e htr t .base _ basis r hlabel⟩

end OpenSubmissions

import BlindMarket.OpenSubmissions.System

/-!
# What a command does

Records, submissions, outcomes and notices are only ever added, and the escrows
only move on: what was true of them once stays true.
-/
namespace OpenSubmissions

open Async Prog Runs
open BlindEscrow (Address Bytes32 OpenPhase Deployed Msg)

variable {cfg : Config} {t : Call} {x : Turn} {s s' s'' : State cfg} {c : Cmd}
  {r : Except Code (Ans c)} {ref ref' : TaskRef} {a a' : Address}

abbrev Ev (cfg : Config) := Event Ans Code Response Call (State cfg)

/-! ## Keys -/

theorem record_cons (record : OpenTaskRecord) :
    { s with records := (ref, record) :: s.records }.record ref' =
      if ref = ref' then some record else s.record ref' := by
  by_cases h : ref = ref' <;> simp [State.record, h]

theorem sub_cons (record : SubmissionRecord) :
    { s with subs := Function.update s.subs ref ((a, record) :: s.subs ref) }.sub ref' a' =
      if ref = ref' ∧ a = a' then some record else s.sub ref' a' := by
  by_cases href : ref' = ref
  · subst href
    by_cases ha : a = a' <;> simp [State.sub, ha]
  · simp [State.sub, Function.update_of_ne href, Ne.symm href]

@[simp] theorem keep_results (result : OpenResult) :
    (s.keep ref a result).results ref' a' =
      if ref' = ref ∧ a' = a then some result else s.results ref' a' := by
  by_cases href : ref' = ref
  · subst href
    by_cases ha : a' = a
    · subst ha
      simp [State.keep]
    · simp [State.keep, ha]
  · simp [State.keep, href]

@[simp] theorem setPending_pending (p : Option (OpenResult × Nat)) :
    (s.setPending ref a p).pending ref' a' =
      if ref' = ref ∧ a' = a then p else s.pending ref' a' := by
  by_cases href : ref' = ref
  · subst href
    by_cases ha : a' = a
    · subst ha
      simp [State.setPending]
    · simp [State.setPending, ha]
  · simp [State.setPending, href]

@[simp] theorem setJudgeDue_judgeDue (atSec : Option Nat) :
    (s.setJudgeDue ref atSec).judgeDue ref' = if ref' = ref then atSec else s.judgeDue ref' := by
  simp [State.setJudgeDue, Function.update_apply]

/-! ## One command -/

/-- Nothing but slots, scorecards, scans and flags differs. -/
structure Same (s s' : State cfg) : Prop where
  escrows : s'.escrows = s.escrows
  listings : s'.listings = s.listings
  clock : s'.clock = s.clock
  records : s'.records = s.records
  subs : s'.subs = s.subs
  outcomes : s'.outcomes = s.outcomes
  pending : s'.pending = s.pending
  results : s'.results = s.results
  resultsExpiry : s'.resultsExpiry = s.resultsExpiry
  judgeDue : s'.judgeDue = s.judgeDue
  backfilled : s'.backfilled = s.backfilled
  txs : s'.txs = s.txs
  left : s'.left = s.left
  scans : s'.scans = s.scans
  calls : s'.calls = s.calls

theorem Same.refl (s : State cfg) : Same s s :=
  ⟨rfl, rfl, rfl, rfl, rfl, rfl, rfl, rfl, rfl, rfl, rfl, rfl, rfl, rfl, rfl⟩

/-- What a command of a program can make of the state. -/
inductive Does (t : Call) (s : State cfg) : Cmd → State cfg → Prop where
  | same (c : Cmd) {s' : State cfg} (h : Same s s') : Does t s c s'
  | record (ref : TaskRef) (record : OpenTaskRecord) (h : s.record ref = none) :
    Does t s (.redis (.setRecordNX ref record)) { s with records := (ref, record) :: s.records }
  | outcome (ref : TaskRef) (outcome : OpenTaskOutcome) (h : s.outcomes ref = none) :
    Does t s (.redis (.setOutcomeNX ref outcome))
      { s with outcomes := Function.update s.outcomes ref (some outcome) }
  | sub (ref : TaskRef) (a : Address) (record : SubmissionRecord) (h : s.sub ref a = none) :
    Does t s (.redis (.hsetnxSub ref a record))
      { s with subs := Function.update s.subs ref ((a, record) :: s.subs ref) }
  | hold (ref : TaskRef) (a : Address) (result : OpenResult) :
    Does t s (.redis (.setPending ref a result))
      (s.setPending ref a (some (result, s.clock + PENDING_RESULT_TTL_SEC)))
  | drop (ref : TaskRef) (a : Address) :
    Does t s (.redis (.delPending ref a)) (s.setPending ref a none)
  | keep (ref : TaskRef) (a : Address) (result : OpenResult) (h : s.results ref a = none) :
    Does t s (.redis (.hsetnxResult ref a result)) (s.keep ref a result)
  | expire (ref : TaskRef) :
    Does t s (.redis (.expireResults ref))
      { s with
        resultsExpiry := Function.update s.resultsExpiry ref (some (s.clock + RESULTS_TTL_SEC)) }
  | schedule (ref : TaskRef) (atSec : Nat) (nx : Bool) :
    Does t s (.redis (.zaddJudge ref atSec nx)) (s.setJudgeDue ref (some atSec))
  | unschedule (ref : TaskRef) :
    Does t s (.redis (.zremJudge ref)) (s.setJudgeDue ref none)
  | mark (scope : Scope) :
    Does t s (.redis (.markJudgeBackfilled scope))
      { s with backfilled := Function.update s.backfilled scope true }
  | scan (cursor : Nat) (left : List TaskRef) :
    Does t s (.redis (.scanRecords cursor))
      { s with scans := Function.update s.scans t.id left }
  | send (chain : TaskChain) (call : JudgeCall) (basis : Basis) (sender : Address)
      (h : cfg.signer chain = some sender) :
    Does t s (.send chain call basis) { s with txs := s.txs ++ [⟨chain, sender, call, none⟩] }
  | leave (ref : TaskRef) : Does t s (.leftForAdmin ref) { s with left := ref :: s.left }

theorem does_redis (c : RedisCmd) : Does t s (.redis c) (redisEffect t x s c).2 := by
  have hsame : Does t s (.redis c) s := .same _ (.refl s)
  have hnot : ∀ {α : Type} {o : Option α}, ¬ o.isSome = true → o = none := by
    intro α o h
    simpa using h
  cases c with
  | setRecordNX ref record =>
    simp only [redisEffect]
    split
    · exact hsame
    · next h => exact .record ref record (hnot h)
  | setOutcomeNX ref outcome =>
    simp only [redisEffect]
    split
    · exact hsame
    · next h => exact .outcome ref outcome (hnot h)
  | zaddJudge ref atSec nx =>
    simp only [redisEffect]
    split
    · exact hsame
    · exact .schedule ref atSec nx
  | zremJudge ref => exact .unschedule ref
  | markJudgeBackfilled scope => exact .mark scope
  | scanRecords cursor => exact .scan cursor _
  | hsetnxSub ref a record =>
    simp only [redisEffect]
    split
    · exact hsame
    · next h => exact .sub ref a record (hnot h)
  | setPending ref a result => exact .hold ref a result
  | delPending ref a => exact .drop ref a
  | hsetnxResult ref a result =>
    simp only [redisEffect]
    split
    · exact hsame
    · next h => exact .keep ref a result (hnot h)
  | expireResults ref => exact .expire ref
  | setScorecardNX ref kept =>
    simp only [redisEffect]
    split
    · exact hsame
    · exact .same _ ⟨rfl, rfl, rfl, rfl, rfl, rfl, rfl, rfl, rfl, rfl, rfl, rfl, rfl, rfl, rfl⟩
  | _ => exact .same _ ⟨rfl, rfl, rfl, rfl, rfl, rfl, rfl, rfl, rfl, rfl, rfl, rfl, rfl, rfl, rfl⟩

theorem does_effect : Does t s c (effect t x s c).2 := by
  cases c with
  | redis c => exact does_redis c
  | send chain call basis =>
    cases h : cfg.signer chain with
    | none => simpa [effect, sendEffect, h] using Does.same _ (.refl s)
    | some sender => simpa [effect, sendEffect, h] using Does.send chain call basis sender h
  | leftForAdmin ref => exact .leave ref
  | _ => exact .same _ ⟨rfl, rfl, rfl, rfl, rfl, rfl, rfl, rfl, rfl, rfl, rfl, rfl, rfl, rfl, rfl⟩

/-- A command answers as it takes effect, or is rejected. -/
theorem respond_cases (h : respond t x s c = (r, s')) :
    r = (effect t x s c).1 ∧ s' = (effect t x s c).2 ∨
      c.Local = false ∧ r = .error .rejected ∧ (s' = s ∨ s' = (effect t x s c).2) := by
  unfold respond at h
  split at h
  · next b s₁ heq =>
    by_cases hlocal : c.Local
    · rw [if_pos hlocal] at h
      cases h
      exact .inl ⟨by rw [heq], by rw [heq]⟩
    · rw [if_neg hlocal] at h
      cases hfate : x.fate <;> rw [hfate] at h <;> cases h
      · exact .inl ⟨by rw [heq], by rw [heq]⟩
      · exact .inr ⟨by simpa using hlocal, rfl, .inl rfl⟩
      · exact .inr ⟨by simpa using hlocal, rfl, .inr (by rw [heq])⟩

theorem respond_does (h : respond t x s c = (r, s')) : Does t s c s' := by
  obtain ⟨-, rfl⟩ | ⟨-, -, rfl | rfl⟩ := respond_cases h
  · exact does_effect
  · exact .same c (.refl _)
  · exact does_effect

/-- An answer that is no failure is the command's own. -/
theorem respond_ok {v : Ans c} (h : respond t x s c = (.ok v, s')) :
    (effect t x s c).1 = .ok v ∧ s' = (effect t x s c).2 := by
  obtain ⟨h, hs⟩ | ⟨-, h, -⟩ := respond_cases h
  · exact ⟨h.symm, hs⟩
  · cases h

theorem respond_redis {c : RedisCmd} {v : c.Ans} (h : respond t x s (.redis c) = (.ok v, s')) :
    v = (redisEffect t x s c).1 ∧ s' = (redisEffect t x s c).2 := by
  obtain ⟨h, hs⟩ := respond_ok h
  exact ⟨(Except.ok.inj h).symm, hs⟩

/-! ## What lasts -/

/-- What has been, and perhaps more. -/
structure Later (s s' : State cfg) : Prop where
  escrows : ∀ chain, (s.escrows chain).Later (s'.escrows chain)
  record : ∀ ref record, s.record ref = some record → s'.record ref = some record
  sub : ∀ ref a record, s.sub ref a = some record → s'.sub ref a = some record
  outcome : ∀ ref, (s.outcomes ref).isSome = true → (s'.outcomes ref).isSome = true
  left : ∀ ref ∈ s.left, ref ∈ s'.left
  txs : ∀ (tx : TxId) (t : JudgeTx), s.txs[tx]? = some t →
    ∃ t', s'.txs[tx]? = some t' ∧ t'.chain = t.chain ∧ t'.call = t.call ∧
      (t.mined.isSome = true → t'.mined = t.mined)

theorem Later.refl (s : State cfg) : Later s s :=
  ⟨fun _ => Deployed.Later.refl _, fun _ _ h => h, fun _ _ _ h => h, fun _ h => h,
    fun _ h => h, fun _ t h => ⟨t, h, rfl, rfl, fun _ => rfl⟩⟩

theorem Later.of_same (h : Same s s') : Later s s' where
  escrows chain := by rw [h.escrows]; exact Deployed.Later.refl _
  record ref record hr := by simpa [State.record, h.records] using hr
  sub ref a record hr := by simpa [State.sub, h.subs] using hr
  outcome ref ho := by rwa [h.outcomes]
  left ref hl := by rwa [h.left]
  txs tx t ht := ⟨t, by rwa [h.txs], rfl, rfl, fun _ => rfl⟩

theorem Does.later (h : Does t s c s') : Later s s' := by
  cases h with
  | same c h => exact .of_same h
  | record ref record h =>
    refine { Later.refl s with record := fun ref' record' hr => ?_ }
    rw [record_cons]
    split
    · next heq =>
      subst heq
      rw [h] at hr
      cases hr
    · exact hr
  | outcome ref outcome h =>
    refine { Later.refl s with outcome := fun ref' ho => ?_ }
    by_cases heq : ref' = ref <;> simp_all
  | sub ref a record h =>
    refine { Later.refl s with sub := fun ref' a' record' hr => ?_ }
    rw [sub_cons]
    split
    · next heq =>
      obtain ⟨rfl, rfl⟩ := heq
      rw [h] at hr
      cases hr
    · exact hr
  | send chain call basis sender h =>
    refine { Later.refl s with txs := fun tx t ht => ⟨t, ?_, rfl, rfl, fun _ => rfl⟩ }
    rw [List.getElem?_append_left (List.getElem?_eq_some_iff.mp ht).1]
    exact ht
  | leave ref => exact { Later.refl s with left := fun ref' h => List.mem_cons_of_mem _ h }
  | _ => exact { Later.refl s with }

theorem setEscrow_escrows (chain chain' : TaskChain) {d : Deployed (cfg.deployment chain)}
    (h : (s.escrows chain).Later d) :
    (s.escrows chain').Later ((s.setEscrow chain d).escrows chain') := by
  by_cases heq : chain' = chain
  · subst heq
    simpa [State.setEscrow] using h
  · simpa [State.setEscrow, heq] using Deployed.Later.refl _

theorem setMined_txs {tx : TxId} {tx₀ : JudgeTx} {ok : Bool} (htx : s.txs[tx]? = some tx₀)
    (hnew : tx₀.mined = none) (n : TxId) (t : JudgeTx) (ht : s.txs[n]? = some t) :
    ∃ t', (s.setMined tx ok).txs[n]? = some t' ∧ t'.chain = t.chain ∧ t'.call = t.call ∧
      (t.mined.isSome = true → t'.mined = t.mined) := by
  simp only [State.setMined, List.getElem?_modify, ht]
  by_cases heq : tx = n
  · subst heq
    rw [htx] at ht
    cases ht
    exact ⟨{ tx₀ with mined := some ok }, by simp, rfl, rfl, by simp [hnew]⟩
  · exact ⟨t, by simp [heq], rfl, rfl, fun _ => rfl⟩

theorem Moves.later (h : Moves s s') : Later s s' := by
  cases h with
  | escrow chain e c h =>
    exact { Later.refl s with
      escrows := fun chain' => setEscrow_escrows chain chain' (Deployed.later_next h) }
  | mine tx t e c htx hnew h hmsg =>
    exact { Later.refl s with
      escrows := fun chain' => setEscrow_escrows t.chain chain' (Deployed.later_next h)
      txs := fun n t' ht' => setMined_txs (s := s) htx hnew n t' ht' }
  | revert tx t htx hnew =>
    exact { Later.refl s with txs := fun n t' ht' => setMined_txs (s := s) htx hnew n t' ht' }
  | _ => exact { Later.refl s with }

theorem later_crash (s : State cfg) (t : Call) : Later s (s.crash t) := by
  unfold State.crash
  split <;> exact { Later.refl s with }

theorem Later.trans (h : Later s s') (h' : Later s' s'') : Later s s'' where
  escrows chain := (h.escrows chain).trans (h'.escrows chain)
  record ref record hr := h'.record _ _ (h.record _ _ hr)
  sub ref a record hr := h'.sub _ _ _ (h.sub _ _ _ hr)
  outcome ref ho := h'.outcome _ (h.outcome _ ho)
  left ref hl := h'.left _ (h.left _ hl)
  txs tx t ht := by
    obtain ⟨t₁, ht₁, hchain, hcall, hmined⟩ := h.txs tx t ht
    obtain ⟨t₂, ht₂, hchain', hcall', hmined'⟩ := h'.txs tx t₁ ht₁
    refine ⟨t₂, ht₂, hchain'.trans hchain, hcall'.trans hcall, fun hsome => ?_⟩
    rw [hmined' (by rwa [hmined hsome]), hmined hsome]

/-! ## Where a value comes from -/

theorem Does.record_of (h : Does t s c s') {record : OpenTaskRecord}
    (hr : s'.record ref = some record) :
    s.record ref = some record ∨ c = .redis (.setRecordNX ref record) := by
  cases h with
  | same c h => exact .inl (by simpa [State.record, h.records] using hr)
  | record ref' record' hnone =>
    rw [record_cons] at hr
    split at hr
    · next heq =>
      cases hr
      exact .inr (by rw [heq])
    · exact .inl hr
  | _ => exact .inl hr

theorem Does.sub_of (h : Does t s c s') {record : SubmissionRecord}
    (hr : s'.sub ref a = some record) :
    s.sub ref a = some record ∨ c = .redis (.hsetnxSub ref a record) := by
  cases h with
  | same c h => exact .inl (by simpa [State.sub, h.subs] using hr)
  | sub ref' a' record' hnone =>
    rw [sub_cons] at hr
    split at hr
    · next heq =>
      cases hr
      exact .inr (by rw [heq.1, heq.2])
    · exact .inl hr
  | _ => exact .inl hr

theorem Does.pending_of (h : Does t s c s') {p : OpenResult × Nat}
    (hp : s'.pending ref a = some p) :
    s.pending ref a = some p ∨ c = .redis (.setPending ref a p.1) := by
  cases h with
  | same c h => exact .inl (by rwa [h.pending] at hp)
  | hold ref' a' result =>
    rw [setPending_pending] at hp
    split at hp
    · next heq =>
      cases hp
      exact .inr (by rw [heq.1, heq.2])
    · exact .inl hp
  | drop ref' a' =>
    rw [setPending_pending] at hp
    split at hp
    · cases hp
    · exact .inl hp
  | _ => exact .inl hp

/-- Results are only ever added. -/
theorem Does.results (h : Does t s c s') (ref : TaskRef) (a : Address) :
    s'.results ref a = s.results ref a ∨ ∃ result, c = .redis (.hsetnxResult ref a result) ∧
      s.results ref a = none ∧ s'.results ref a = some result := by
  cases h with
  | same c h => exact .inl (by rw [h.results])
  | keep ref' a' result hnone =>
    rw [keep_results]
    split
    · next heq =>
      obtain ⟨rfl, rfl⟩ := heq
      exact .inr ⟨result, rfl, hnone, rfl⟩
    · exact .inl rfl
  | _ => exact .inl rfl

theorem Does.tx_of (h : Does t s c s') {tx : TxId} {t' : JudgeTx} (ht : s'.txs[tx]? = some t') :
    s.txs[tx]? = some t' ∨ t'.mined = none := by
  cases h with
  | same c h => exact .inl (by rwa [h.txs] at ht)
  | send chain call basis sender hsigner =>
    simp only [List.getElem?_append] at ht
    split at ht
    · exact .inl ht
    · rw [List.mem_singleton.mp (List.mem_of_getElem? ht)]
      exact .inr rfl
  | _ => exact .inl ht

theorem setMined_of {tx n : TxId} {ok : Bool} {t' : JudgeTx}
    (h : (s.setMined tx ok).txs[n]? = some t') :
    (n = tx ∧ ∃ t, s.txs[n]? = some t ∧ t' = { t with mined := some ok }) ∨
      s.txs[n]? = some t' := by
  simp only [State.setMined, List.getElem?_modify] at h
  obtain ⟨t, ht, rfl⟩ := Option.map_eq_some_iff.mp h
  by_cases heq : tx = n
  · exact .inl ⟨heq.symm, t, ht, by simp [heq]⟩
  · exact .inr (by simp [heq, ht])

/-- What moves by itself leaves records and submissions alone, and results are only lost. -/
structure Lapsed (s s' : State cfg) : Prop where
  records : s'.records = s.records
  subs : s'.subs = s.subs
  outcomes : s'.outcomes = s.outcomes
  judgeDue : s'.judgeDue = s.judgeDue
  backfilled : s'.backfilled = s.backfilled
  left : s'.left = s.left
  scans : s'.scans = s.scans
  pending : ∀ ref a p, s'.pending ref a = some p → s.pending ref a = some p
  results : ∀ ref, s'.results ref = s.results ref ∨ (s'.results ref = fun _ => none) ∧
    ∃ atSec, s.resultsExpiry ref = some atSec ∧ atSec ≤ s.clock

theorem Lapsed.refl (s : State cfg) : Lapsed s s :=
  ⟨rfl, rfl, rfl, rfl, rfl, rfl, rfl, fun _ _ _ h => h, fun _ => .inl rfl⟩

theorem Moves.lapsed (h : Moves s s') : Lapsed s s' := by
  cases h with
  | lapsePending ref a p hp hle =>
    refine { Lapsed.refl s with pending := fun ref' a' p' hp' => ?_ }
    rw [setPending_pending] at hp'
    split at hp'
    · cases hp'
    · exact hp'
  | lapseResults ref atSec hp hle =>
    refine { Lapsed.refl s with results := fun ref' => ?_ }
    by_cases heq : ref' = ref
    · subst heq
      exact .inr ⟨by simp, atSec, hp, hle⟩
    · exact .inl (by simp [heq])
  | _ => exact { Lapsed.refl s with }

end OpenSubmissions

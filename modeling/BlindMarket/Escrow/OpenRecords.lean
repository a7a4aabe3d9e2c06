import BlindMarket.Escrow.OpenSettlement

/-!
# What an escrow in operation says about its open tasks

A submission is recorded once and for good, submissions close once and for
good, and so does the task. Whoever reads the escrow at one moment knows this
much about every later one.
-/
namespace BlindEscrow

open Checked Runs

/-- An escrow in operation: what has happened to it since it was initialized. -/
structure Deployed (D : Deployment) where
  start : Config
  trace : Trace
  config : Config
  initial : Initial D start
  run : EscrowRun D start trace config

/-- The open-submission events a call emits, each once its function is through. -/
def Event.announces (e : Event) : List Log :=
  match e.kind with
  | .called _ m =>
    match m.op with
    | .createTaskOpen _ _ _ _ _ _ _ mode creatorWindow =>
      [.openTaskCreated e.pre.escrow.nextTaskId mode creatorWindow]
    | .submitOpen id hash =>
      [.openSubmission id m.sender hash (e.post.escrow.submissionCount id)]
    | .selectWinner id winner scorecard => [.winnerSelected id winner .creator scorecard]
    | .selectWinnerByVerifier id winner scorecard =>
      [.winnerSelected id winner .taskVerifier scorecard]
    | .selectWinnerByBackup id winner scorecard => [.winnerSelected id winner .backup scorecard]
    | .resolveOpenTask id winner scorecard =>
      if winner = 0 then [.openTaskVoided id .admin scorecard]
      else [.winnerSelected id winner .admin scorecard]
    | .voidOpenTask id scorecard =>
      [.openTaskVoided id (if e.pre.escrow.submissionCount id = 0 then .creator else .backup)
        scorecard]
    | _ => []
  | _ => []

variable {D : Deployment} {b c c' : Config} {e : Event} {tr : Trace} {s s' : Escrow} {x : Ctx}
  {id : Nat} {op : Op} {r : Row} {todo : List Action} {a : Address} {hash scorecard : Bytes32}
  {d d' d'' : Deployed D} {p : OpenPhase}

/-! ## One step -/

/-- A move leaves the submissions alone, or adds its sender's. -/
theorem Move.submits (h : Move x s id op r todo) :
    (r.submissionOf = s.submissionOf id ∧ r.submissionCount = s.submissionCount id) ∨
    ∃ hash, op = .submitOpen id hash ∧ hash ≠ 0 ∧ s.submissionOf id x.sender = 0 ∧
      r.submissionOf = Function.update (s.submissionOf id) x.sender hash ∧
      r.submissionCount = s.submissionCount id + 1 ∧
      openPhase s x.timestamp id = .ok .submissions := by
  cases h with
  | submit hash ext hp ho hst ha hv hg h0 hext hd hnew =>
    have hdeadline : effectiveDeadline s x.timestamp id = .ok ((s.tasks id).deadline + ext) :=
      effectiveDeadline_eq_ok.mpr ⟨ext, hext, rfl⟩
    have hphase : openPhase s x.timestamp id = .ok .submissions := by
      simp [openPhase, require, ho, hst, hdeadline, hd]
    exact .inr ⟨hash, rfl, h0, hnew, rfl, rfl, hphase⟩
  | _ => exact .inl ⟨rfl, rfl⟩

/-- A call of `submitOpen` that goes through is a first submission in time. -/
theorem Move.of_submitOpen (h : Move x s id op r todo) (hop : op = .submitOpen id hash) :
    hash ≠ 0 ∧ s.submissionOf id x.sender = 0 ∧
      r.submissionOf = Function.update (s.submissionOf id) x.sender hash ∧
      r.openTask.isOpen = true ∧ openPhase s x.timestamp id = .ok .submissions := by
  have hsubmits := h.submits
  cases h with
  | submit hash' ext hp ho =>
    cases hop
    obtain ⟨-, hsame⟩ | ⟨hash'', heq, h0, hnew, hof, -, hphase⟩ := hsubmits
    · simp at hsame
    · cases heq
      exact ⟨h0, hnew, hof, ho, hphase⟩
  | assign op worker ext hp hop' => obtain ⟨rfl, -⟩ | ⟨rfl, -⟩ := hop' <;> cases hop
  | fail op emitted disputed hl hp hop' =>
    obtain rfl | ⟨signature, text, rfl⟩ := hop' <;> cases hop
  | complete op fee score before after hl hfee hle hdone =>
    cases hdone with
    | passed op fee emitted hp hop' => obtain rfl | ⟨signature, text, rfl⟩ := hop' <;> cases hop
    | _ => cases hop
  | refund op after hl hback => cases hback <;> cases hop
  | pick op winner scorecard judge fee hl hpick => cases hpick <;> cases hop
  | void op scorecard judge hl hvoid => cases hvoid <;> cases hop
  | evidence | escalate | dispute => cases hop

/-- What a step does to the submissions of a task. -/
theorem Step.submits (h : Step D c e c') (id : Nat) :
    (c'.world.escrow.submissionOf id = c.world.escrow.submissionOf id ∧
      c'.world.escrow.submissionCount id = c.world.escrow.submissionCount id) ∨
    ∃ (m : Msg) (hash : Bytes32), m.op = .submitOpen id hash ∧ hash ≠ 0 ∧
      c.world.escrow.submissionOf id m.sender = 0 ∧
      c'.world.escrow.submissionOf id =
        Function.update (c.world.escrow.submissionOf id) m.sender hash ∧
      c'.world.escrow.submissionCount id = c.world.escrow.submissionCount id + 1 ∧
      openPhase c.world.escrow c.world.timestamp id = .ok .submissions := by
  obtain ⟨-, -, hrow⟩ | ⟨m, todo, -, -, -, -, hmove⟩ | ⟨m, token, i, o, hc⟩ := h.row id
  · exact .inl ⟨congrArg Row.submissionOf hrow, congrArg Row.submissionCount hrow⟩
  · obtain hsame | ⟨hash, hop, h0, hnew, hof, hcount, hphase⟩ := hmove.submits
    · exact .inl hsame
    · exact .inr ⟨m, hash, hop, h0, hnew, hof, hcount, hphase⟩
  · exact .inl ⟨congrArg Row.submissionOf hc.row, congrArg Row.submissionCount hc.row⟩

/-- A recorded submission stays as it is. -/
theorem Step.submissionOf (h : Step D c e c') (ha : c.world.escrow.submissionOf id a ≠ 0) :
    c'.world.escrow.submissionOf id a = c.world.escrow.submissionOf id a := by
  obtain ⟨hof, -⟩ | ⟨m, hash, -, -, hnew, hof, -⟩ := h.submits id
  · exact congrFun hof a
  · have hne : a ≠ m.sender := by
      intro heq
      rw [heq] at ha
      exact ha hnew
    rw [hof, Function.update_of_ne hne]

/-- The submitters of a task, as many as its counter says. -/
def Submitters (s : Escrow) (id : Nat) (l : List Address) : Prop :=
  l.Nodup ∧ l.length = s.submissionCount id ∧ ∀ a, a ∈ l ↔ s.submissionOf id a ≠ 0

theorem Step.submitters (h : Step D c e c')
    (hl : ∃ l, Submitters c.world.escrow id l) : ∃ l, Submitters c'.world.escrow id l := by
  obtain ⟨l, hnodup, hlength, hmem⟩ := hl
  obtain ⟨hof, hcount⟩ | ⟨m, hash, -, h0, hnew, hof, hcount, -⟩ := h.submits id
  · exact ⟨l, hnodup, by rw [hcount, hlength], fun a => by rw [hof]; exact hmem a⟩
  · have hout : m.sender ∉ l := fun hin => (hmem _).mp hin hnew
    refine ⟨m.sender :: l, List.nodup_cons.mpr ⟨hout, hnodup⟩, ?_, fun a => ?_⟩
    · rw [List.length_cons, hlength, hcount]
    · rw [List.mem_cons, hmem, hof]
      by_cases heq : a = m.sender
      · subst heq
        simpa using h0
      · simp [heq]

/-- The announcements are among what the function goes on to do. -/
theorem Step.announced {log : Log} (h : Step D c e c') (hlog : log ∈ e.announces) :
    ∃ (m : Msg) (todo : List Action), e.kind = .called c.calls m ∧
      Effect (c.world.ctx m) c.world.escrow m.op c'.world.escrow todo ∧ .emit log ∈ todo := by
  obtain ⟨m, todo, hkind, -, heff, -⟩ | ⟨hkind, -⟩ := h.storage
  · refine ⟨m, todo, hkind, heff, ?_⟩
    have hpre := h.worlds.1
    have hpost := h.worlds.2
    obtain ⟨sender, value, op⟩ := m
    simp only [Event.announces, hkind, hpre, hpost] at hlog
    generalize hs' : c'.world.escrow = s' at heff hlog
    cases heff with
    | move id op r todo hid hmove =>
      cases hmove with
      | submit hash ext hp ho hst ha hv hg h0 hext hd hnew => simpa [World.ctx, Escrow.put] using hlog
      | pick op winner scorecard judge fee hl hpick =>
        cases hpick with
        | admin hs hw hph => simp_all [guarded]
        | _ => simp_all [guarded]
      | void op scorecard judge hl hvoid => cases hvoid <;> simp_all [guarded]
      | complete op fee score before after hl hfee hle hdone =>
        cases hdone with
        | passed op fee emitted hp hop => obtain rfl | ⟨signature, text, rfl⟩ := hop <;> cases hlog
        | _ => cases hlog
      | refund op after hl hback => cases hback <;> cases hlog
      | assign op worker ext hp hop => obtain ⟨rfl, -⟩ | ⟨rfl, -⟩ := hop <;> cases hlog
      | fail op emitted disputed hl hp hop =>
        obtain rfl | ⟨signature, text, rfl⟩ := hop <;> cases hlog
      | evidence | escalate | dispute => cases hlog
    | create op token i hl hp hop => obtain ⟨rfl, -⟩ | rfl := hop <;> cases hlog
    | batch => cases hlog
    | createOpen token i mode creatorWindow =>
      simp only [List.mem_singleton] at hlog
      simp [hlog, guarded]
    | configure op _ _ _ _ _ _ _ _ _ _ _ hop hin => cases op <;> simp_all [Op.taskId, Op.inputs]
    | pause | unpause | recordPauseStart => cases hlog
  · simp only [Event.announces] at hlog
    cases hlog

theorem Step.announced_submission {n : Nat} (h : Step D c e c')
    (hlog : .openSubmission id a hash n ∈ e.announces) :
    c'.world.escrow.submissionOf id a = hash ∧ hash ≠ 0 ∧
      (c'.world.escrow.openTasks id).isOpen = true := by
  have hcall : ∃ cid m, e.kind = .called cid m ∧ m.op = .submitOpen id hash ∧ m.sender = a := by
    unfold Event.announces at hlog
    split at hlog
    · next cid m hkind =>
      refine ⟨cid, m, hkind, ?_⟩
      generalize m.op = op at hlog ⊢
      cases op with
      | submitOpen id' hash' =>
        obtain ⟨rfl, rfl, rfl, -⟩ := by simpa using hlog
        exact ⟨rfl, rfl⟩
      | resolveOpenTask id' winner scorecard =>
        simp only at hlog
        split at hlog <;> simp at hlog
      | _ => simp at hlog
    · cases hlog
  obtain ⟨cid, m, hkind, hop, rfl⟩ := hcall
  have habout : e.about id = true := by simp [Event.about, hkind, hop, Op.taskId]
  obtain ⟨hno, -⟩ | ⟨m', todo, hkind', -, -, -, hmove⟩ | ⟨m', token, i, o, hc⟩ := h.row id
  · rw [hno] at habout
    cases habout
  · rw [hkind] at hkind'
    cases hkind'
    obtain ⟨h0, -, hof, ho, -⟩ := hmove.of_submitOpen hop
    have hof' : c'.world.escrow.submissionOf id =
        Function.update (c.world.escrow.submissionOf id) m.sender hash := hof
    exact ⟨by rw [hof', Function.update_self], h0, ho⟩
  · have hkind' := hc.kind
    rw [hkind] at hkind'
    cases hkind'
    have hin := hc.input
    simp [Event.input, hkind, hop, Op.inputs] at hin

/-! ## Settling calls -/

/-- A call by which a judge settles an open task. -/
def Op.decides (id : Nat) : Op → Bool
  | .selectWinner id' _ _ | .selectWinnerByVerifier id' _ _ | .selectWinnerByBackup id' _ _
  | .resolveOpenTask id' _ _ | .voidOpenTask id' _ => id' = id
  | _ => false

theorem Op.decides_taskId (h : op.decides id = true) : op.taskId = some id := by
  cases op <;> simp_all [Op.decides, Op.taskId]

/-- An event about a settlement. -/
def Log.decides (id : Nat) : Log → Bool
  | .winnerSelected id' _ _ _ | .openTaskVoided id' _ _ => id' = id
  | _ => false

theorem Event.decides {log : Log} (hlog : log ∈ e.announces) (hset : log.decides id = true) :
    ∃ cid m, e.kind = .called cid m ∧ m.op.decides id = true := by
  unfold Event.announces at hlog
  split at hlog
  · next cid m hkind =>
    refine ⟨cid, m, hkind, ?_⟩
    generalize m.op = op at hlog
    cases op with
    | resolveOpenTask id' winner scorecard =>
      simp only at hlog
      split at hlog
      all_goals
        obtain rfl := List.mem_singleton.mp hlog
        exact hset
    | selectWinner | selectWinnerByVerifier | selectWinnerByBackup | voidOpenTask =>
      obtain rfl := List.mem_singleton.mp hlog
      exact hset
    | createTaskOpen | submitOpen =>
      obtain rfl := List.mem_singleton.mp hlog
      cases hset
    | _ => cases hlog
  · cases hlog

theorem Move.decides (h : Move x s id op r todo) (hop : op.decides id = true) :
    r.openTask.isOpen = true ∧ r.task.status.live = false := by
  cases h with
  | pick op winner scorecard judge fee hl hpick => exact ⟨hpick.open_funded.1, rfl⟩
  | void op scorecard judge hl hvoid => exact ⟨hvoid.open_funded.1, rfl⟩
  | assign op worker ext hp hop' => obtain ⟨rfl, -⟩ | ⟨rfl, -⟩ := hop' <;> cases hop
  | fail op emitted disputed hl hp hop' =>
    obtain rfl | ⟨signature, text, rfl⟩ := hop' <;> cases hop
  | complete op fee score before after hl hfee hle hdone =>
    cases hdone with
    | passed op fee emitted hp hop' => obtain rfl | ⟨signature, text, rfl⟩ := hop' <;> cases hop
    | _ => cases hop
  | refund op after hl hback => cases hback <;> cases hop
  | evidence | escalate | dispute | submit => cases hop

/-- A settling call that goes through leaves its task settled. -/
theorem Step.decides {cid : Nat} {m : Msg} (h : Step D c e c') (hkind : e.kind = .called cid m)
    (hop : m.op.decides id = true) :
    (c'.world.escrow.openTasks id).isOpen = true ∧
      (c'.world.escrow.tasks id).status.live = false := by
  have habout : e.about id = true := by simp [Event.about, hkind, Op.decides_taskId hop]
  obtain ⟨hno, -⟩ | ⟨m', todo, hkind', -, -, -, hmove⟩ | ⟨m', token, i, o, hc⟩ := h.row id
  · rw [hno] at habout
    cases habout
  · rw [hkind] at hkind'
    cases hkind'
    exact hmove.decides hop
  · have hkind' := hc.kind
    rw [hkind] at hkind'
    cases hkind'
    have hin := hc.input
    rw [Event.input, hkind] at hin
    cases hm : m.op <;> simp_all [Op.decides, Op.inputs]

/-- The open task an event is about. -/
def Log.openTask : Log → Option Nat
  | .openTaskCreated id _ _ | .openSubmission id _ _ _ | .winnerSelected id _ _ _
  | .openTaskVoided id _ _ => some id
  | _ => none

theorem Step.announced_created {mode : PickMode} {creatorWindow : Nat} (h : Step D c e c')
    (hlog : .openTaskCreated id mode creatorWindow ∈ e.announces) :
    (c'.world.escrow.openTasks id).isOpen = true := by
  have hcall : ∃ cid m i, e.kind = .called cid m ∧ m.op.inputs = [i] ∧
      m.op.taskId = none ∧ id = e.pre.escrow.nextTaskId ∧
      ∀ o s, Opens m.op i s o → o.isOpen = true := by
    unfold Event.announces at hlog
    split at hlog
    · next cid m hkind =>
      refine ⟨cid, m, ?_⟩
      generalize m.op = op at hlog
      cases op with
      | createTaskOpen taskHash token amount category locationZone duration verifierAgent =>
        obtain ⟨rfl, -⟩ := by simpa using hlog
        refine ⟨_, hkind, rfl, rfl, rfl, ?_⟩
        intro o s ho
        obtain ⟨hop, -⟩ | ⟨token, mode, creatorWindow, -, -, -, rfl⟩ := ho
        · exact absurd rfl (hop _ _ _ _ _ _ _ _ _)
        · rfl
      | resolveOpenTask id' winner scorecard =>
        simp only at hlog
        split at hlog <;> simp at hlog
      | _ => simp at hlog
    · cases hlog
  obtain ⟨cid, m, i, hkind, hinputs, hnone, rfl, hopens⟩ := hcall
  obtain ⟨-, hin, -⟩ | ⟨m', todo, hkind', -, hid, -⟩ | ⟨m', token, i', o, hc⟩ :=
    h.row e.pre.escrow.nextTaskId
  · simp [Event.input, hkind, hinputs, inputAt] at hin
  · rw [hkind] at hkind'
    cases hkind'
    rw [hnone] at hid
    cases hid
  · have hkind' := hc.kind
    rw [hkind] at hkind'
    cases hkind'
    have hin := hc.input
    rw [Event.input, hkind] at hin
    simp only [hinputs, inputAt_cons, if_true, Option.some.injEq] at hin
    subst hin
    exact (congrArg (·.openTask.isOpen) hc.row).trans (hopens o _ hc.opens)

theorem Step.announced_open {log : Log} (h : Step D c e c') (hlog : log ∈ e.announces)
    (hid : log.openTask = some id) : (c'.world.escrow.openTasks id).isOpen = true := by
  cases log with
  | openTaskCreated =>
    cases hid
    exact h.announced_created hlog
  | openSubmission =>
    cases hid
    exact (h.announced_submission hlog).2.2
  | winnerSelected | openTaskVoided =>
    cases hid
    obtain ⟨cid, m, hkind, hop⟩ := Event.decides hlog (decide_eq_true (Eq.refl id))
    exact (h.decides hkind hop).1
  | _ => cases hid

/-! ## Runs -/

theorem Upgraded.created {c₀ : Config} (h0 : Upgraded c₀) (h : EscrowRun D c₀ tr c)
    (ho : (c.world.escrow.openTasks id).isOpen = true) : id < c.world.escrow.nextTaskId := by
  obtain @⟨b, b', m, token, i, o, later, e, earlier, before, step, hc, after⟩ := h0.born h ho
  exact hc.next'.trans_le (nextTaskId_le_run after)

theorem submissionOf_run (h : EscrowRun D c tr c') (ha : c.world.escrow.submissionOf id a ≠ 0) :
    c'.world.escrow.submissionOf id a = c.world.escrow.submissionOf id a := by
  induction h with
  | nil => rfl
  | snoc hrun hs ih => rw [hs.submissionOf (by rwa [ih]), ih]

theorem final_run {c₀ : Config} {tr₀ : Trace} (h0 : Upgraded c₀) (hrun₀ : EscrowRun D c₀ tr₀ c)
    (hp : openPhase c.world.escrow c.world.timestamp id = .ok p) (hne : p ≠ .submissions)
    (h : EscrowRun D c tr c') :
    c'.world.escrow.submissionOf id = c.world.escrow.submissionOf id ∧
      c'.world.escrow.submissionCount id = c.world.escrow.submissionCount id := by
  induction h with
  | nil => exact ⟨rfl, rfl⟩
  | snoc hrun hs ih =>
    obtain ⟨hof, hcount⟩ | ⟨m, hash, -, -, -, -, -, hphase⟩ := hs.submits id
    · exact ⟨hof.trans ih.1, hcount.trans ih.2⟩
    · obtain ⟨p₀, p', hp₀, hp', hle, -⟩ := h0.phase_mono hrun₀ (openPhase_isOpen hp) hrun
      rw [hp₀] at hp
      rw [hphase] at hp'
      cases hp
      cases hp'
      cases p <;> simp_all [OpenPhase.rank]

/-! ## An escrow in operation -/

namespace Deployed

abbrev escrow (d : Deployed D) : Escrow := d.config.world.escrow

/-- The phase the escrow answers with. -/
def phase (d : Deployed D) (id : Nat) : Except Revert OpenPhase :=
  openPhase d.escrow d.config.world.timestamp id

/-- One more step. -/
def next (d : Deployed D) (e : Event) (c : Config) (h : Step D d.config e c) : Deployed D :=
  { d with trace := e :: d.trace, config := c, run := .snoc d.run h }

/-- The step a cue makes, if it makes one. -/
def play (d : Deployed D) (cue : Cue) : Option (Deployed D) :=
  match h : cueStep D d.config cue with
  | some (e, c) => some (d.next e c (cueStep_step h))
  | none => none

/-- What has happened, and perhaps more. -/
def Later (d d' : Deployed D) : Prop :=
  ∃ tr, EscrowRun D d.config tr d'.config ∧ d'.trace = tr ++ d.trace

theorem Later.refl (d : Deployed D) : d.Later d := ⟨[], .nil, rfl⟩

theorem Later.trans (h : d.Later d') (h' : d'.Later d'') : d.Later d'' := by
  obtain ⟨tr, hrun, htr⟩ := h
  obtain ⟨tr', hrun', htr'⟩ := h'
  exact ⟨tr' ++ tr, hrun.append hrun', by rw [htr', htr, List.append_assoc]⟩

theorem later_next (h : Step D d.config e c) : d.Later (d.next e c h) :=
  ⟨[e], .single h, rfl⟩

theorem Later.trace (h : d.Later d') (he : e ∈ d.trace) : e ∈ d'.trace := by
  obtain ⟨tr, -, htr⟩ := h
  rw [htr]
  exact List.mem_append_right _ he

/-- An open task has been created. -/
theorem created (d : Deployed D) (ho : (d.escrow.openTasks id).isOpen = true) :
    id < d.escrow.nextTaskId :=
  d.initial.upgraded.created d.run ho

/-- The terms of an open task are fixed. -/
theorem Later.terms (h : d.Later d') (ho : (d.escrow.openTasks id).isOpen = true) :
    (d.escrow.row id).SameTerms (d'.escrow.row id) := by
  obtain ⟨tr, hrun, -⟩ := h
  exact sameTerms_run hrun (d.created ho)

/-- A submission stays what it was. -/
theorem Later.submissionOf (h : d.Later d') (ha : d.escrow.submissionOf id a ≠ 0) :
    d'.escrow.submissionOf id a = d.escrow.submissionOf id a := by
  obtain ⟨tr, hrun, -⟩ := h
  exact submissionOf_run hrun ha

/-- The phase of a task never goes back. -/
theorem Later.phase (h : d.Later d') (hp : d.phase id = .ok p) :
    ∃ p', d'.phase id = .ok p' ∧ p.rank ≤ p'.rank := by
  obtain ⟨tr, hrun, -⟩ := h
  obtain ⟨p₀, p', hp₀, hp', hle, -⟩ :=
    d.initial.upgraded.phase_mono d.run (openPhase_isOpen hp) hrun
  rw [Deployed.phase, hp₀] at hp
  cases hp
  exact ⟨p', hp', hle⟩

/-- Past their end the submissions of a task are final. -/
theorem Later.final (h : d.Later d') (hp : d.phase id = .ok p) (hne : p ≠ .submissions) :
    d'.escrow.submissionOf id = d.escrow.submissionOf id ∧
      d'.escrow.submissionCount id = d.escrow.submissionCount id := by
  obtain ⟨tr, hrun, -⟩ := h
  exact final_run d.initial.upgraded d.run hp hne hrun

/-- Past their end nobody can submit. -/
theorem Later.refuses (h : d.Later d') (hp : d.phase id = .ok p) (hne : p ≠ .submissions)
    {m : Msg} (hop : m.op = .submitOpen id hash) (stop : Stop) :
    begin D m d'.config.world ≠ .ok stop := by
  intro hbegin
  obtain ⟨ledger, s', todo, -, -, -, heff, -⟩ := begin_ok hbegin
  obtain ⟨p', hp', hle⟩ := h.phase hp
  rw [hop] at heff
  cases heff with
  | move id' op r todo hid hmove =>
    cases hid
    have heq : d'.phase id = .ok .submissions := (hmove.of_submitOpen rfl).2.2.2.2
    rw [heq] at hp'
    cases hp'
    cases p <;> simp_all [OpenPhase.rank]
  | create op token i hl hp hop' => obtain ⟨hop', -⟩ | hop' := hop' <;> cases hop'
  | configure op _ _ _ _ _ _ _ _ _ _ _ hop' hin => cases hop'

/-- As many have submitted as the counter says. -/
theorem submitters (d : Deployed D) (id : Nat) : ∃ l, Submitters d.escrow id l := by
  refine d.run.invariant (I := fun _ c => ∃ l, Submitters c.world.escrow id l) ?_
    fun _ _ _ _ _ hb hs => hs.submitters hb
  obtain ⟨sender, treasury, verifier, -, -, -, hs⟩ := d.initial.storage
  exact ⟨[], List.nodup_nil, by simp [hs], fun a => by simp [hs]⟩

/-- An announced submission is on record. -/
theorem announced_submission (d : Deployed D) (he : e ∈ d.trace) {n : Nat}
    (hlog : .openSubmission id a hash n ∈ e.announces) :
    d.escrow.submissionOf id a = hash ∧ hash ≠ 0 ∧ (d.escrow.openTasks id).isOpen = true := by
  obtain ⟨later, earlier, b, b', -, hrun₀, hs, hrun⟩ := d.run.split_mem he
  obtain ⟨hof, h0, hopen⟩ := hs.announced_submission hlog
  have hid := d.initial.upgraded.created (.snoc hrun₀ hs) hopen
  have hkept := submissionOf_run hrun (by rwa [hof])
  exact ⟨hkept.trans hof, h0, (sameTerms_run hrun hid).isOpen.trans hopen⟩

/-- A task in an announced event is open. -/
theorem announced_open (d : Deployed D) (he : e ∈ d.trace) {log : Log}
    (hlog : log ∈ e.announces) (hid : log.openTask = some id) :
    (d.escrow.openTasks id).isOpen = true := by
  obtain ⟨later, earlier, b, b', -, hrun₀, hs, hrun⟩ := d.run.split_mem he
  have hopen := hs.announced_open hlog hid
  have hcreated := d.initial.upgraded.created (.snoc hrun₀ hs) hopen
  exact (sameTerms_run hrun hcreated).isOpen.trans hopen

/-- An announced settlement stands. -/
theorem announced_settled (d : Deployed D) (he : e ∈ d.trace) {log : Log}
    (hlog : log ∈ e.announces) (hset : log.decides id = true) : d.phase id = .ok .closed := by
  obtain ⟨later, earlier, b, b', -, hrun₀, hs, hrun⟩ := d.run.split_mem he
  obtain ⟨cid, m, hkind, hop⟩ := Event.decides hlog hset
  obtain ⟨hopen, hdead⟩ := hs.decides hkind hop
  obtain ⟨p, p', -, hp', -, hclosed⟩ :=
    d.initial.upgraded.phase_mono (.snoc hrun₀ hs) hopen hrun
  rw [Deployed.phase, hp', hclosed]
  intro hst
  rw [hst] at hdead
  cases hdead

end Deployed

end BlindEscrow

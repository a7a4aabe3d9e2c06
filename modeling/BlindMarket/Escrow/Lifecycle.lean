import BlindMarket.Escrow.Script
import BlindMarket.Escrow.Clock

/-!
# Task lifecycle

What every row of a reachable escrow satisfies, from the creation of its task
to its settlement. Ids that were never created stay blank although several
functions accept any id; the terms of a task never change; and a row moves only
along the edges of its kind of task.
-/
namespace BlindEscrow

open Checked Runs

variable {D : Deployment} {c c' c₀ : Config} {e : Event} {tr : Trace} {w : World}
  {x : Ctx} {s s' : Escrow} {r r' : Row} {id : Nat} {op : Op} {todo : List Action}

/-! ## Statuses -/

/-- The statuses in which the escrow holds a task's amount. -/
def TaskStatus.live : TaskStatus → Bool
  | .completed | .cancelled => false
  | .funded | .assigned | .submitted | .verified | .disputed => true

/-- The status edges of single-worker tasks and of open ones. -/
inductive Edge : Bool → TaskStatus → TaskStatus → Prop where
  | assign : Edge false .funded .assigned
  | withdraw : Edge false .funded .cancelled
  | submit : Edge false .assigned .submitted
  | ghosted : Edge false .assigned .cancelled
  | fail : Edge false .submitted .verified
  | pass : Edge false .submitted .completed
  | dispute : Edge false .submitted .disputed
  | resubmit : Edge false .verified .submitted
  | appeal : Edge false .verified .disputed
  | lapse : Edge false .verified .cancelled
  | award : Edge false .disputed .completed
  | reject : Edge false .disputed .cancelled
  | win : Edge true .funded .completed
  | void : Edge true .funded .cancelled

/-- A settled task has no way on. -/
theorem Edge.live {isOpen : Bool} {a b : TaskStatus} (h : Edge isOpen a b) : a.live = true := by
  cases h <;> rfl

/-! ## Terms -/

/-- The terms of a task: everything fixed at its creation. -/
structure Row.SameTerms (r r' : Row) : Prop where
  agent : r'.task.agent = r.task.agent
  token : r'.task.token = r.task.token
  amount : r'.task.amount = r.task.amount
  taskHash : r'.task.taskHash = r.task.taskHash
  category : r'.task.category = r.task.category
  locationZone : r'.task.locationZone = r.task.locationZone
  createdAt : r'.task.createdAt = r.task.createdAt
  deadline : r'.task.deadline = r.task.deadline
  verifier : r'.verifier = r.verifier
  isOpen : r'.openTask.isOpen = r.openTask.isOpen
  mode : r'.openTask.mode = r.openTask.mode
  creatorWindow : r'.openTask.creatorWindow = r.openTask.creatorWindow
  pausedAtCreate : r'.pausedAtCreate = r.pausedAtCreate

theorem Row.SameTerms.refl (r : Row) : r.SameTerms r :=
  ⟨rfl, rfl, rfl, rfl, rfl, rfl, rfl, rfl, rfl, rfl, rfl, rfl, rfl⟩

theorem Row.SameTerms.trans {r₁ r₂ r₃ : Row} (h : r₁.SameTerms r₂) (h' : r₂.SameTerms r₃) :
    r₁.SameTerms r₃ where
  agent := h'.agent.trans h.agent
  token := h'.token.trans h.token
  amount := h'.amount.trans h.amount
  taskHash := h'.taskHash.trans h.taskHash
  category := h'.category.trans h.category
  locationZone := h'.locationZone.trans h.locationZone
  createdAt := h'.createdAt.trans h.createdAt
  deadline := h'.deadline.trans h.deadline
  verifier := h'.verifier.trans h.verifier
  isOpen := h'.isOpen.trans h.isOpen
  mode := h'.mode.trans h.mode
  creatorWindow := h'.creatorWindow.trans h.creatorWindow
  pausedAtCreate := h'.pausedAtCreate.trans h.pausedAtCreate

theorem Move.sameTerms (h : Move x s id op r todo) : (s.row id).SameTerms r := by
  cases h <;> exact ⟨rfl, rfl, rfl, rfl, rfl, rfl, rfl, rfl, rfl, rfl, rfl, rfl, rfl⟩

/-! ## Well-formed rows -/

/-- What the row of a created task satisfies. -/
structure RowOk (D : Deployment) (r : Row) : Prop where
  agent : Sender D r.task.agent
  amount : r.task.amount ≠ 0
  taskHash : r.task.taskHash ≠ 0
  verifier : r.verifier ≠ r.task.agent
  worker : r.task.worker ≠ r.task.agent
  vacant : r.task.status = .funded → r.task.worker = 0
  held : r.task.status ≠ .funded → r.task.status ≠ .cancelled → r.task.worker ≠ 0
  untried : r.task.status = .funded ∨ r.task.status = .assigned → r.task.submissionAttempts = 0
  attempts : r.task.submissionAttempts ≤ MAX_SUBMISSION_ATTEMPTS
  delivered : r.task.status = .submitted ∨ r.task.status = .verified ∨
    r.task.status = .disputed → r.task.submissionAttempts ≠ 0 ∧ r.task.evidenceHash ≠ 0 ∧
      Sender D r.task.worker
  unjudged : r.unjudged = true → r.task.status = .disputed ∨ r.task.status.live = false
  single : r.openTask.isOpen = false →
    r.submissionCount = 0 ∧ (∀ a, r.submissionOf a = 0) ∧ r.scorecard = 0 ∧
      r.openTask.closedBy = .none
  isOpen : r.openTask.isOpen = true → (r.task.status = .funded ∨ r.task.status.live = false) ∧
    r.task.submissionAttempts = 0 ∧ r.verifier ≠ 0
  submitter : ∀ a, r.submissionOf a ≠ 0 → Sender D a ∧ a ≠ r.task.agent ∧ a ≠ r.verifier ∧
    r.submissionCount ≠ 0
  won : r.openTask.isOpen = true → r.task.status = .completed →
    r.submissionOf r.task.worker ≠ 0 ∧ r.task.evidenceHash = r.submissionOf r.task.worker
  unwon : r.openTask.isOpen = true → r.task.status ≠ .completed → r.task.worker = 0

theorem openPhase_isOpen {now : Nat} {phase : OpenPhase} (h : openPhase s now id = .ok phase) :
    (s.openTasks id).isOpen = true := by
  simp only [openPhase, seq_eq_ok, require_eq_ok, exists_const] at h
  exact h.1

theorem openPhase_funded {now : Nat} {phase : OpenPhase} (h : openPhase s now id = .ok phase)
    (hne : phase ≠ .closed) : (s.tasks id).status = .funded := by
  simp only [openPhase, seq_eq_ok, require_eq_ok, exists_const] at h
  by_contra hst
  rw [if_pos hst] at h
  exact hne (Except.ok.inj h.2).symm

theorem Picks.open_funded {winner : Address} {scorecard : Bytes32} {judge : Judge}
    (h : Picks x s id winner scorecard op judge) :
    (s.openTasks id).isOpen = true ∧ (s.tasks id).status = .funded := by
  cases h <;> rename_i hph <;> exact ⟨openPhase_isOpen hph, openPhase_funded hph (by simp)⟩

theorem Voids.open_funded {scorecard : Bytes32} {judge : Judge}
    (h : Voids x s id scorecard op judge) :
    (s.openTasks id).isOpen = true ∧ (s.tasks id).status = .funded := by
  cases h with
  | creator phase hp hs hc hph h0 h5 => exact ⟨openPhase_isOpen hph, openPhase_funded hph h5⟩
  | backup hp hs hc hph => exact ⟨openPhase_isOpen hph, openPhase_funded hph (by simp)⟩
  | admin hs hph => exact ⟨openPhase_isOpen hph, openPhase_funded hph (by simp)⟩

theorem Completes.status {score : Nat} {before after : List Action}
    (h : Completes x s id op score before after) :
    (s.tasks id).status = .submitted ∨ (s.tasks id).status = .disputed := by
  cases h with
  | passed => exact .inl ‹_›
  | ruled => exact .inr ‹_›
  | released => exact .inr ‹_›

theorem Refunds.status {after : List Action} (h : Refunds x s id op after) :
    ((s.tasks id).status = .funded ∧ s.submissionCount id = 0) ∨
      (s.tasks id).status = .assigned ∨ (s.tasks id).status = .verified ∨
      (s.tasks id).status = .disputed := by
  cases h with
  | withdrawn hp hs hst hc => exact .inl ⟨hst, hc⟩
  | ghosted => exact .inr (.inl ‹_›)
  | failed => exact .inr (.inr (.inl ‹_›))
  | stale => exact .inr (.inr (.inr ‹_›))
  | ruled => exact .inr (.inr (.inr ‹_›))

/-- Only a single-worker task is live past `funded`. -/
theorem RowOk.isOpen_false (hr : RowOk D r) (hlive : r.task.status.live = true)
    (hne : r.task.status ≠ .funded) : r.openTask.isOpen = false := by
  rw [Bool.eq_false_iff]
  intro ho
  rcases (hr.isOpen ho).1 with h | h
  · exact hne h
  · rw [h] at hlive
    cases hlive

/-- A move keeps the status, or takes it along an edge of the task's kind. -/
theorem Move.edge (h : Move x s id op r todo) (hr : RowOk D (s.row id)) :
    r.task.status = (s.tasks id).status ∨
      Edge (s.openTasks id).isOpen (s.tasks id).status r.task.status := by
  have hsingle : ∀ st, (s.tasks id).status = st → st.live = true → st ≠ .funded →
      (s.openTasks id).isOpen = false := by
    rintro st rfl hlive hne
    exact hr.isOpen_false hlive hne
  cases h with
  | submit => exact .inl rfl
  | assign op worker ext hp hop ho hst => rw [ho, hst]; exact .inr .assign
  | evidence hash ext hp hs hst =>
    rcases hst with hst | ⟨hst, -⟩ <;> rw [hsingle _ hst rfl (by simp), hst]
    · exact .inr .submit
    · exact .inr .resubmit
  | fail op emitted disputed hl hp hop hs hw hst =>
    rw [hsingle _ hst rfl (by simp), hst]; exact .inr .fail
  | complete op fee score before after hl hfee hle h =>
    rcases h.status with hst | hst <;> rw [hsingle _ hst rfl (by simp), hst]
    · exact .inr .pass
    · exact .inr .award
  | refund op after hl h =>
    rcases h.status with ⟨hst, -⟩ | hst | hst | hst
    · rw [hst]
      cases (s.openTasks id).isOpen
      · exact .inr .withdraw
      · exact .inr .void
    · rw [hsingle _ hst rfl (by simp), hst]; exact .inr .ghosted
    · rw [hsingle _ hst rfl (by simp), hst]; exact .inr .lapse
    · rw [hsingle _ hst rfl (by simp), hst]; exact .inr .reject
  | escalate ext hl hp hs hext hd hst =>
    rw [hsingle _ hst rfl (by simp), hst]; exact .inr .dispute
  | dispute ext hp hs hst =>
    rcases hst with hst | hst <;> rw [hsingle _ hst rfl (by simp), hst]
    · exact .inr .dispute
    · exact .inr .appeal
  | pick op winner scorecard judge fee hl h =>
    rw [h.open_funded.1, h.open_funded.2]; exact .inr .win
  | void op scorecard judge hl h => rw [h.open_funded.1, h.open_funded.2]; exact .inr .void

/-- A row that moves was live. -/
theorem Move.live (h : Move x s id op r todo) : (s.tasks id).status.live = true := by
  cases h with
  | submit hash ext hp ho hst => rw [hst]; rfl
  | assign op worker ext hp hop ho hst => rw [hst]; rfl
  | evidence hash ext hp hs hst => rcases hst with hst | ⟨hst, -⟩ <;> rw [hst] <;> rfl
  | fail op emitted disputed hl hp hop hs hw hst => rw [hst]; rfl
  | complete op fee score before after hl hfee hle h =>
    rcases h.status with hst | hst <;> rw [hst] <;> rfl
  | refund op after hl h =>
    rcases h.status with ⟨hst, -⟩ | hst | hst | hst <;> rw [hst] <;> rfl
  | escalate ext hl hp hs hext hd hst => rw [hst]; rfl
  | dispute ext hp hs hst => rcases hst with hst | hst <;> rw [hst] <;> rfl
  | pick op winner scorecard judge fee hl h => rw [h.open_funded.2]; rfl
  | void op scorecard judge hl h => rw [h.open_funded.2]; rfl

/-- An unjudged row that moves is disputed. -/
theorem RowOk.unjudged_live (hr : RowOk D (s.row id)) (hlive : (s.tasks id).status.live = true)
    (hu : s.unjudgedEscalation id = true) : (s.tasks id).status = .disputed := by
  rcases hr.unjudged hu with h | h
  · exact h
  · exact absurd (h.symm.trans hlive) Bool.false_ne_true

/-- A single-worker row moves to a well-formed row. -/
theorem RowOk.move_single (hr : RowOk D (s.row id)) (h : Move x s id op r todo)
    (hs : Sender D x.sender) (ho : (s.openTasks id).isOpen = false) : RowOk D r := by
  have no {p : Prop} : (s.openTasks id).isOpen = true → p := fun h => by simp [ho] at h
  have hu := hr.unjudged_live h.live
  cases h with
  | assign op worker ext hp hop ho hst h0 hne =>
    exact { hr with
      worker := hne
      vacant := by simp
      held := fun _ _ => h0
      untried := fun _ => hr.untried (.inl hst)
      delivered := by simp
      unjudged := fun h => absurd (hu h) (by simp [hst])
      isOpen := no
      won := no
      unwon := no }
  | evidence hash ext hp hs' hst h0 =>
    have hle : (s.tasks id).submissionAttempts + 1 ≤ MAX_SUBMISSION_ATTEMPTS := by
      rcases hst with hst | ⟨-, hlt⟩
      · have := hr.untried (.inr hst)
        simp only [Escrow.row_task] at this
        simp [this, MAX_SUBMISSION_ATTEMPTS]
      · exact hlt
    have hne : (s.tasks id).status ≠ .funded := by rcases hst with h | ⟨h, -⟩ <;> simp [h]
    have hne' : (s.tasks id).status ≠ .cancelled := by rcases hst with h | ⟨h, -⟩ <;> simp [h]
    have hne'' : (s.tasks id).status ≠ .disputed := by rcases hst with h | ⟨h, -⟩ <;> simp [h]
    exact { hr with
      vacant := by simp
      held := fun _ _ => hr.held hne hne'
      untried := by simp
      attempts := hle
      delivered := fun _ => ⟨by simp, h0, hs' ▸ hs⟩
      unjudged := fun h => absurd (hu h) hne''
      isOpen := no
      won := no
      unwon := no }
  | fail op emitted disputed hl hp hop hs' hw hst =>
    exact { hr with
      vacant := by simp
      held := fun _ _ => hr.held (by simp [hst]) (by simp [hst])
      untried := by simp
      delivered := fun _ => hr.delivered (.inl hst)
      unjudged := fun h => absurd (hu h) (by simp [hst])
      isOpen := no
      won := no
      unwon := no }
  | complete op fee score before after hl hfee hle h =>
    have hne : (s.tasks id).status ≠ .funded ∧ (s.tasks id).status ≠ .cancelled := by
      rcases h.status with h | h <;> simp [h]
    exact { hr with
      vacant := by simp
      held := fun _ _ => hr.held hne.1 hne.2
      untried := by simp
      delivered := by simp
      unjudged := fun _ => .inr rfl
      isOpen := no
      won := no
      unwon := no }
  | refund op after hl h =>
    exact { hr with
      vacant := by simp
      held := by simp
      untried := by simp
      delivered := by simp
      unjudged := fun _ => .inr rfl
      isOpen := no
      won := no
      unwon := no }
  | escalate ext hl hp hs hext hd hst =>
    exact { hr with
      vacant := by simp
      held := fun _ _ => hr.held (by simp [hst]) (by simp [hst])
      untried := by simp
      delivered := fun _ => hr.delivered (.inl hst)
      unjudged := fun _ => .inl rfl
      isOpen := no
      won := no
      unwon := no }
  | dispute ext hp hs' hst =>
    have hne : (s.tasks id).status ≠ .funded ∧ (s.tasks id).status ≠ .cancelled := by
      rcases hst with h | h <;> simp [h]
    exact { hr with
      vacant := by simp
      held := fun _ _ => hr.held hne.1 hne.2
      untried := by simp
      delivered := fun _ => hr.delivered (hst.elim .inl (fun h => .inr (.inl h)))
      unjudged := fun _ => .inl rfl
      isOpen := no
      won := no
      unwon := no }
  | submit hash ext hp ho' => exact no ho'
  | pick op winner scorecard judge fee hl h => exact no h.open_funded.1
  | void op scorecard judge hl h => exact no h.open_funded.1

/-- A row of an open task moves to a well-formed row. -/
theorem RowOk.move_open (hr : RowOk D (s.row id)) (h : Move x s id op r todo)
    (hs : Sender D x.sender) (ho : (s.openTasks id).isOpen = true) : RowOk D r := by
  have no {p : Prop} : (s.openTasks id).isOpen = false → p := fun h => by simp [ho] at h
  have hst : (s.tasks id).status = .funded := by
    rcases (hr.isOpen ho).1 with hst | hst
    · exact hst
    · exact absurd (hst.symm.trans h.live) Bool.false_ne_true
  cases h with
  | assign op worker ext hp hop ho' => exact no ho'
  | evidence hash ext hp hs' hst' => simp [hst] at hst'
  | fail op emitted disputed hl hp hop hs' hw hst' => simp [hst] at hst'
  | complete op fee score before after hl hfee hle h => simpa [hst] using h.status
  | refund op after hl h =>
    exact { hr with
      vacant := by simp
      held := by simp
      untried := by simp
      delivered := by simp
      unjudged := fun _ => .inr rfl
      isOpen := fun _ => ⟨.inr rfl, (hr.isOpen ho).2⟩
      won := by simp
      unwon := fun _ _ => hr.vacant hst }
  | escalate ext hl hp hs hext hd hst' => simp [hst] at hst'
  | dispute ext hp hs' hst' => simp [hst] at hst'
  | submit hash ext hp ho' hst' ha hv hg h0 hext hd hnew =>
    exact { hr with
      single := no
      submitter := by
        intro a (h : Function.update (s.submissionOf id) x.sender hash a ≠ 0)
        by_cases hax : a = x.sender
        · rw [hax]
          exact ⟨hs, ha, hv, Nat.succ_ne_zero _⟩
        · rw [Function.update_of_ne hax] at h
          have hold := hr.submitter a h
          exact ⟨hold.1, hold.2.1, hold.2.2.1, Nat.succ_ne_zero _⟩
      won := fun _ h => absurd h (by simp [hst]) }
  | pick op winner scorecard judge fee hl h hsub hne =>
    obtain ⟨hsender, hagent, hverifier, hcount⟩ := hr.submitter winner hsub
    exact { hr with
      worker := hagent
      vacant := by simp
      held := fun _ _ => hsender.1
      untried := by simp
      delivered := by simp
      unjudged := fun _ => .inr rfl
      single := no
      isOpen := fun _ => ⟨.inr rfl, (hr.isOpen ho).2⟩
      won := fun _ _ => ⟨hsub, rfl⟩
      unwon := by simp }
  | void op scorecard judge hl h =>
    exact { hr with
      vacant := by simp
      held := by simp
      untried := by simp
      delivered := by simp
      unjudged := fun _ => .inr rfl
      single := no
      isOpen := fun _ => ⟨.inr rfl, (hr.isOpen ho).2⟩
      won := by simp
      unwon := fun _ _ => hr.vacant hst }

/-- A well-formed row moves to a well-formed row. -/
theorem RowOk.move (hr : RowOk D (s.row id)) (h : Move x s id op r todo)
    (hs : Sender D x.sender) : RowOk D r := by
  cases ho : (s.openTasks id).isOpen with
  | false => exact hr.move_single h hs ho
  | true => exact hr.move_open h hs ho

/-! ## Creation -/

theorem Created.fields {m : Msg} {token : Address} {i : TaskInput} {o : OpenTask}
    (h : Created D c e c' id m token i o) :
    (c'.world.escrow.row id).task = newTask (c.world.ctx m) token i ∧
      (c'.world.escrow.row id).openTask = o ∧
      (c'.world.escrow.row id).pausedAtCreate = c.world.escrow.pausedTotal := by
  rw [h.row]
  exact ⟨rfl, rfl, rfl⟩

/-- A task created on a blank row is well formed. -/
theorem RowOk.created {m : Msg} {token : Address} {i : TaskInput} {o : OpenTask}
    (h : Created D c e c' id m token i o) (hblank : c.world.escrow.row id = {}) :
    RowOk D (c'.world.escrow.row id) := by
  have hopens := h.opens
  have hold : c.world.escrow.openTasks id = {} := congrArg Row.openTask hblank
  rw [hold] at hopens
  have hkind : (o.isOpen = false ∧ o.closedBy = .none) ∨ (o.isOpen = true ∧ i.verifierAgent ≠ 0) := by
    rcases hopens with ⟨-, rfl⟩ | ⟨token, mode, window, -, hv, -, rfl⟩
    · exact .inl ⟨rfl, rfl⟩
    · exact .inr ⟨rfl, hv⟩
  have hs := h.sender
  have hv := h.recordable.verifier
  rw [h.row, hblank]
  constructor
  case agent => exact hs
  case amount => exact h.recordable.amount
  case taskHash => exact h.recordable.hash
  case verifier =>
    by_cases h0 : i.verifierAgent ≠ 0
    · simpa [newRow, newTask, h0] using hv h0
    · simpa [newRow, newTask, h0, World.ctx] using hs.1.symm
  case worker => exact hs.1.symm
  case isOpen =>
    intro ho
    rcases hkind with ⟨hf, -⟩ | ⟨-, hv⟩
    · exact absurd (hf.symm.trans ho) Bool.false_ne_true
    · exact ⟨.inl rfl, rfl, by simp [newRow, hv]⟩
  case single =>
    intro ho
    rcases hkind with ⟨-, hcl⟩ | ⟨ht, -⟩
    · exact ⟨rfl, fun _ => rfl, rfl, hcl⟩
    · exact absurd (ho.symm.trans ht) Bool.false_ne_true
  all_goals simp [newRow, newTask]

/-- A call that reaches past an id creates it. -/
theorem Step.creates (h : Step D c e c') (hle : c.world.escrow.nextTaskId ≤ id)
    (hlt : id < c'.world.escrow.nextTaskId) : ∃ m token i o, Created D c e c' id m token i o := by
  have hnone : e.input id ≠ none := by
    rcases h.storage with ⟨m, todo, hk, -, heff, -, -⟩ | ⟨-, hsame, -, -⟩
    · have hnext := heff.nextTaskId
      simp only [Event.input, hk, h.worlds.1, ne_eq, inputAt_eq_none]
      omega
    · rw [hsame] at hlt
      omega
  rcases h.row id with ⟨-, hin, -⟩ | ⟨m, todo, -, -, -, hin, -⟩ | hc
  · exact absurd hin hnone
  · exact absurd hin hnone
  · exact hc

/-! ## Invariant -/

/-- What holds in every reachable world: the pause counters are coherent and behind the clock, ids
that were never created are blank, and the other rows are well formed. -/
structure Sound (D : Deployment) (w : World) : Prop where
  clock : ClockOk w
  behind : pausedSoFar w.escrow w.timestamp < w.timestamp
  next : 0 < w.escrow.nextTaskId
  blank : ∀ id, id = 0 ∨ w.escrow.nextTaskId ≤ id → w.escrow.row id = {}
  rows : ∀ id, 0 < id → id < w.escrow.nextTaskId → RowOk D (w.escrow.row id)
  admin : Sender D w.escrow.admin
  treasury : w.escrow.treasury ≠ 0
  verifier : w.escrow.verifier ≠ 0
  fee : w.escrow.feeBps ≤ MAX_FEE_BPS

/-- A blank row does not move: its owner is the zero address, and its deadline, the seconds ever
spent paused, is behind the clock. -/
theorem Sound.blank_fixed (hw : Sound D w) {m : Msg} (hs : Sender D m.sender)
    (hrow : w.escrow.row id = {}) (h : Move (w.ctx m) w.escrow id op r todo) : False := by
  have htask : w.escrow.tasks id = {} := congrArg Row.task hrow
  have hopen : (w.escrow.openTasks id).isOpen = false :=
    congrArg (fun r => r.openTask.isOpen) hrow
  have hagent : (w.ctx m).sender ≠ (w.escrow.tasks id).agent := by
    rw [htask]; exact hs.1
  have hst : (w.escrow.tasks id).status = .funded := by rw [htask]
  have hpast := hw.clock.past
  cases h with
  | assign op worker ext hp hop ho hst h0 hne hext hd =>
    have hdeadline : (w.escrow.tasks id).deadline = 0 := by rw [htask]
    have hbehind := hw.behind
    simp only [World.ctx] at hext hd
    rw [pauseExtension_eq_ok hpast] at hext
    omega
  | evidence hash ext hp hs' hst' => simp [hst] at hst'
  | fail op emitted disputed hl hp hop hs' hw hst' => simp [hst] at hst'
  | complete op fee score before after hl hfee hle h => simpa [hst] using h.status
  | refund op after hl h =>
    cases h with
    | withdrawn hp hs' => exact hagent hs'
    | ghosted ext hp hs' => exact hagent hs'
    | failed ext hp hs' => exact hagent hs'
    | stale ext hp hs' => exact hagent hs'
    | ruled hs' hst' => simp [hst] at hst'
  | escalate ext hl hp hs' => exact hagent hs'
  | dispute ext hp hs' hst' => simp [hst] at hst'
  | submit hash ext hp ho => simp [hopen] at ho
  | pick op winner scorecard judge fee hl h => simpa [hopen] using h.open_funded.1
  | void op scorecard judge hl h => simpa [hopen] using h.open_funded.1

/-- Only the row of a created task moves. -/
theorem Sound.moved (hw : Sound D w) {m : Msg} (hs : Sender D m.sender)
    (h : Move (w.ctx m) w.escrow id op r todo) :
    0 < id ∧ id < w.escrow.nextTaskId ∧ RowOk D (w.escrow.row id) := by
  by_cases hid : 0 < id ∧ id < w.escrow.nextTaskId
  · exact ⟨hid.1, hid.2, hw.rows id hid.1 hid.2⟩
  · exact (hw.blank_fixed hs (hw.blank id (by omega)) h).elim

/-- A call about a task moves its row, and the task was created. -/
theorem Sound.target (hw : Sound D w) {m : Msg} (hs : Sender D m.sender)
    (h : Effect (w.ctx m) w.escrow m.op s' todo) (hid : m.op.taskId = some id) :
    Move (w.ctx m) w.escrow id m.op (s'.row id) todo ∧ 0 < id ∧ id < w.escrow.nextTaskId ∧
      RowOk D (w.escrow.row id) := by
  rcases h.row id with ⟨hne, -⟩ | ⟨-, -, hmove⟩ | ⟨-, -, -, hnone, -⟩
  · exact absurd hid hne
  · exact ⟨hmove, hw.moved hs hmove⟩
  · rw [hid] at hnone
    cases hnone

theorem Sound.step (hw : Sound D c.world) (h : Step D c e c') : Sound D c'.world := by
  obtain ⟨hclock, hpaused, htime⟩ := hw.clock.step h
  have hnext := h.nextTaskId_le
  have hpos := hw.next
  have hbehind := hw.behind
  have hsplit := e.elapsed_split
  have hset : (SameSettings c.world.escrow c'.world.escrow) ∨ ∃ m : Msg, Sender D m.sender ∧
      (c'.world.escrow.admin = c.world.escrow.admin ∨ c'.world.escrow.admin = m.sender) ∧
      (c'.world.escrow.treasury = c.world.escrow.treasury ∨ c'.world.escrow.treasury ≠ 0) ∧
      (c'.world.escrow.verifier = c.world.escrow.verifier ∨ c'.world.escrow.verifier ≠ 0) ∧
      (c'.world.escrow.feeBps = c.world.escrow.feeBps ∨ c'.world.escrow.feeBps ≤ MAX_FEE_BPS) := by
    rcases h.storage with ⟨m, todo, hk, hs, heff, -, -⟩ | ⟨-, hsame, -, -⟩
    · rcases heff.settings with hsame | ⟨-, h⟩
      · exact .inl hsame
      · exact .inr ⟨m, hs, h⟩
    · rw [hsame]; exact .inl ⟨rfl, rfl, rfl, rfl, rfl, rfl, rfl, rfl, rfl, rfl⟩
  constructor
  case clock => exact hclock
  case behind => omega
  case next => omega
  case blank =>
    intro id hid
    have hold := hw.blank id (by omega)
    rcases h.row id with ⟨-, -, hrow⟩ | ⟨m, todo, -, hs, -, -, hmove⟩ | ⟨m, token, i, o, hc⟩
    · rw [hrow, hold]
    · exact (hw.blank_fixed hs hold hmove).elim
    · have hlt := hc.next'
      have hle := hc.next
      omega
  case rows =>
    intro id h0 hlt
    by_cases hold : id < c.world.escrow.nextTaskId
    · have hrow := hw.rows id h0 hold
      rcases h.row id with ⟨-, -, hsame⟩ | ⟨m, todo, -, hs, -, -, hmove⟩ | ⟨m, token, i, o, hc⟩
      · rwa [hsame]
      · exact hrow.move hmove hs
      · exact absurd hc.next (by omega)
    · obtain ⟨m, token, i, o, hc⟩ := h.creates (not_lt.mp hold) hlt
      exact .created hc (hw.blank id (.inr (not_lt.mp hold)))
  case admin =>
    rcases hset with hsame | ⟨m, hs, h | h, -⟩
    · rw [hsame.admin]; exact hw.admin
    · rw [h]; exact hw.admin
    · rwa [h]
  case treasury =>
    rcases hset with hsame | ⟨m, hs, -, h | h, -⟩
    · rw [hsame.treasury]; exact hw.treasury
    · rw [h]; exact hw.treasury
    · exact h
  case verifier =>
    rcases hset with hsame | ⟨m, hs, -, -, h | h, -⟩
    · rw [hsame.verifier]; exact hw.verifier
    · rw [h]; exact hw.verifier
    · exact h
  case fee =>
    rcases hset with hsame | ⟨m, hs, -, -, -, h | h⟩
    · rw [hsame.feeBps]; exact hw.fee
    · rw [h]; exact hw.fee
    · exact h

theorem Initial.sound (h : Initial D c₀) : Sound D c₀.world := by
  obtain ⟨hclock, hpaused⟩ := h.clock
  have hpos := h.timestamp
  obtain ⟨sender, treasury, verifier, hs, ht, hv, hstart⟩ := h.storage
  constructor
  case clock => exact hclock
  case behind => omega
  all_goals rw [hstart]
  case next => exact Nat.one_pos
  case blank => exact fun id _ => rfl
  case rows => exact fun id h0 hlt => absurd hlt (by simp only; omega)
  case admin => exact hs
  case treasury => exact ht
  case verifier => exact hv
  case fee => simp [MAX_FEE_BPS]

theorem Sound.run (hw : Sound D c.world) (h : EscrowRun D c tr c') : Sound D c'.world :=
  h.invariant (I := fun _ c => Sound D c.world) hw fun _ _ _ _ _ hb hs => hb.step hs

/-- In a run from the start every world is sound. -/
theorem Initial.sound_run (h : Initial D c₀) (hrun : EscrowRun D c₀ tr c) : Sound D c.world :=
  h.sound.run hrun

/-! ## Along a run -/

/-- The terms of a created task stay as they are. -/
theorem Step.sameTerms (h : Step D c e c') (hid : id < c.world.escrow.nextTaskId) :
    (c.world.escrow.row id).SameTerms (c'.world.escrow.row id) := by
  rcases h.row id with ⟨-, -, hrow⟩ | ⟨m, todo, -, -, -, -, hmove⟩ | ⟨m, token, i, o, hc⟩
  · rw [hrow]; exact .refl _
  · exact hmove.sameTerms
  · exact absurd hc.next (by omega)

theorem nextTaskId_le_run (h : EscrowRun D c tr c') :
    c.world.escrow.nextTaskId ≤ c'.world.escrow.nextTaskId :=
  h.relates (R := fun c c' => c.world.escrow.nextTaskId ≤ c'.world.escrow.nextTaskId) le_rfl
    fun _ _ _ hle hs => hle.trans hs.nextTaskId_le

theorem sameTerms_run (h : EscrowRun D c tr c') (hid : id < c.world.escrow.nextTaskId) :
    (c.world.escrow.row id).SameTerms (c'.world.escrow.row id) := by
  induction h with
  | nil => exact .refl _
  | snoc hrun hs ih => exact ih.trans (hs.sameTerms (hid.trans_le (nextTaskId_le_run hrun)))

/-- A settled row stays as it is. -/
theorem Step.settled (h : Step D c e c') (hid : id < c.world.escrow.nextTaskId)
    (hdead : (c.world.escrow.tasks id).status.live = false) :
    c'.world.escrow.row id = c.world.escrow.row id := by
  rcases h.row id with ⟨-, -, hrow⟩ | ⟨m, todo, -, -, -, -, hmove⟩ | ⟨m, token, i, o, hc⟩
  · exact hrow
  · exact absurd (hdead.symm.trans hmove.live) Bool.false_ne_true
  · exact absurd hc.next (by omega)

theorem settled_run (h : EscrowRun D c tr c') (hid : id < c.world.escrow.nextTaskId)
    (hdead : (c.world.escrow.tasks id).status.live = false) :
    c'.world.escrow.row id = c.world.escrow.row id := by
  induction h with
  | nil => rfl
  | @snoc trace b c' e hrun hs ih =>
    have hst : (b.world.escrow.tasks id).status.live = false := by
      have := congrArg (fun r => r.task.status.live) ih
      exact this.trans hdead
    exact (hs.settled (hid.trans_le (nextTaskId_le_run hrun)) hst).trans ih

/-- A step moves the status of a created task along an edge of its kind, if at all. -/
theorem Step.edge (h : Step D c e c') (hw : Sound D c.world) (h0 : 0 < id)
    (hid : id < c.world.escrow.nextTaskId) :
    (c'.world.escrow.tasks id).status = (c.world.escrow.tasks id).status ∨
      Edge (c.world.escrow.openTasks id).isOpen (c.world.escrow.tasks id).status
        (c'.world.escrow.tasks id).status := by
  rcases h.row id with ⟨-, -, hrow⟩ | ⟨m, todo, -, -, -, -, hmove⟩ | ⟨m, token, i, o, hc⟩
  · exact .inl (congrArg (fun r => r.task.status) hrow)
  · exact hmove.edge (hw.rows id h0 hid)
  · exact absurd hc.next (by omega)

/-- A run seen from a task it creates: the run before, the creation, the run after. -/
inductive Born (D : Deployment) (id : Nat) (c₀ c : Config) : Trace → Prop where
  | mk {b b' : Config} {m : Msg} {token : Address} {i : TaskInput} {o : OpenTask}
      (later : Trace) (e : Event) (earlier : Trace) (before : EscrowRun D c₀ earlier b)
      (step : Step D b e b') (created : Created D b e b' id m token i o)
      (after : EscrowRun D b' later c) : Born D id c₀ c (later ++ e :: earlier)

theorem born_run (h : EscrowRun D c₀ tr c) (hle : c₀.world.escrow.nextTaskId ≤ id)
    (hlt : id < c.world.escrow.nextTaskId) : Born D id c₀ c tr := by
  induction h with
  | nil => omega
  | @snoc tr b c e hrun hs ih =>
    by_cases hb : id < b.world.escrow.nextTaskId
    · obtain ⟨later, e', earlier, before, step, created, after⟩ := ih hb
      exact ⟨e :: later, e', earlier, before, step, created, .snoc after hs⟩
    · obtain ⟨m, token, i, o, hc⟩ := hs.creates (not_lt.mp hb) hlt
      exact ⟨[], e, tr, hrun, hs, hc, .nil⟩

theorem Initial.born (h0 : Initial D c₀) (hrun : EscrowRun D c₀ tr c) (hid : 0 < id)
    (hlt : id < c.world.escrow.nextTaskId) : Born D id c₀ c tr := by
  obtain ⟨sender, treasury, verifier, -, -, -, hs⟩ := h0.storage
  exact born_run hrun (by rw [hs]; exact hid) hlt

/-- A move that keeps the status is a submission to an open task. -/
theorem Move.status_ne (h : Move x s id op r todo) :
    r.task.status ≠ (s.tasks id).status ∨ (s.tasks id).status = .funded := by
  cases h with
  | submit hash ext hp ho hst => exact .inr hst
  | assign op worker ext hp hop ho hst => exact .inr hst
  | evidence hash ext hp hs hst => rcases hst with hst | ⟨hst, -⟩ <;> simp [hst]
  | fail op emitted disputed hl hp hop hs hw hst => simp [hst]
  | complete op fee score before after hl hfee hle h => rcases h.status with h | h <;> simp [h]
  | refund op after hl h => rcases h.status with ⟨h, -⟩ | h | h | h <;> simp [h]
  | escalate ext hl hp hs hext hd hst => simp [hst]
  | dispute ext hp hs hst => rcases hst with h | h <;> simp [h]
  | pick op winner scorecard judge fee hl h => exact .inr h.open_funded.2
  | void op scorecard judge hl h => exact .inr h.open_funded.2

/-- The last step that took a task into its present status, and the row is the same since. -/
theorem entered {st : TaskStatus} (h : EscrowRun D c tr c') (hid : id < c.world.escrow.nextTaskId)
    (hne : st ≠ .funded) (hc : (c.world.escrow.tasks id).status ≠ st)
    (hc' : (c'.world.escrow.tasks id).status = st) :
    ∃ since f mid b b', tr = since ++ f :: mid ∧ EscrowRun D c mid b ∧ Step D b f b' ∧
      EscrowRun D b' since c' ∧ (b.world.escrow.tasks id).status ≠ st ∧
      b'.world.escrow.row id = c'.world.escrow.row id ∧
      ∀ g ∈ since, (g.pre.escrow.tasks id).status = st := by
  induction h with
  | nil => exact absurd hc' hc
  | @snoc tr b c' e hrun hs ih =>
    by_cases hb : (b.world.escrow.tasks id).status = st
    · obtain ⟨since, f, mid, b₁, b₂, rfl, hmid, hstep, hsince, hb₁, hrow, hall⟩ := ih hb
      have hsame : c'.world.escrow.row id = b.world.escrow.row id := by
        rcases hs.row id with ⟨-, -, hrow⟩ | ⟨m, todo, -, -, -, -, hmove⟩ | ⟨m, token, i, o, hc⟩
        · exact hrow
        · rcases hmove.status_ne with h | h
          · exact absurd (hc'.trans hb.symm) h
          · exact absurd (hb.symm.trans h) hne
        · have := hid.trans_le (nextTaskId_le_run hrun)
          exact absurd hc.next (by omega)
      refine ⟨e :: since, f, mid, b₁, b₂, rfl, hmid, hstep, .snoc hsince hs, hb₁,
        hrow.trans hsame.symm, ?_⟩
      intro g hg
      rcases List.mem_cons.mp hg with rfl | hg
      · rw [hs.worlds.1]; exact hb
      · exact hall g hg
    · exact ⟨[], e, tr, b, c', rfl, hrun, hs, .nil, hb, rfl, by simp⟩

/-- What takes a task into dispute records the time. -/
theorem Step.enters_disputed (h : Step D c e c') (hid : id < c.world.escrow.nextTaskId)
    (hc : (c.world.escrow.tasks id).status ≠ .disputed)
    (hc' : (c'.world.escrow.tasks id).status = .disputed) :
    ∃ m todo, e.kind = .called c.calls m ∧ Sender D m.sender ∧ m.op.taskId = some id ∧
      Move (c.world.ctx m) c.world.escrow id m.op (c'.world.escrow.row id) todo ∧
      (c'.world.escrow.tasks id).disputedAt = c.world.timestamp := by
  rcases h.row id with ⟨-, -, hrow⟩ | ⟨m, todo, hk, hs, hop, -, hmove⟩ | ⟨m, token, i, o, hcr⟩
  · exact absurd ((congrArg (fun r => r.task.status) hrow).symm.trans hc') hc
  · refine ⟨m, todo, hk, hs, hop, hmove, ?_⟩
    have hst : (c'.world.escrow.row id).task.status = .disputed := hc'
    change (c'.world.escrow.row id).task.disputedAt = _
    generalize c'.world.escrow.row id = r at hmove hst
    generalize m.op = op at hmove
    cases hmove with
    | escalate | dispute => rfl
    | submit hash ext hp ho hst' => exact absurd hst hc
    | _ => cases hst
  · exact absurd hcr.next (by omega)

/-- What takes a task to a failed verdict records the time. -/
theorem Step.enters_verified (h : Step D c e c') (hid : id < c.world.escrow.nextTaskId)
    (hc : (c.world.escrow.tasks id).status ≠ .verified)
    (hc' : (c'.world.escrow.tasks id).status = .verified) :
    ∃ m todo, e.kind = .called c.calls m ∧ Sender D m.sender ∧ m.op.taskId = some id ∧
      Move (c.world.ctx m) c.world.escrow id m.op (c'.world.escrow.row id) todo ∧
      c'.world.escrow.failedVerdictAt id = c.world.timestamp := by
  rcases h.row id with ⟨-, -, hrow⟩ | ⟨m, todo, hk, hs, hop, -, hmove⟩ | ⟨m, token, i, o, hcr⟩
  · exact absurd ((congrArg (fun r => r.task.status) hrow).symm.trans hc') hc
  · refine ⟨m, todo, hk, hs, hop, hmove, ?_⟩
    have hst : (c'.world.escrow.row id).task.status = .verified := hc'
    change (c'.world.escrow.row id).failedVerdictAt = _
    generalize c'.world.escrow.row id = r at hmove hst
    generalize m.op = op at hmove
    cases hmove with
    | fail => rfl
    | submit hash ext hp ho hst' => exact absurd hst hc
    | _ => cases hst
  · exact absurd hcr.next (by omega)

/-! ## Calls in a trace -/

def Event.calls (p : Op → Bool) (e : Event) : Bool :=
  match e.kind with
  | .called _ m => p m.op
  | _ => false

/-- How many calls in a trace are of one kind. -/
def callCount (p : Op → Bool) (tr : Trace) : Nat := tr.countP (Event.calls p)

@[simp] theorem callCount_nil (p : Op → Bool) : callCount p [] = 0 := rfl
@[simp] theorem callCount_cons (p : Op → Bool) (e : Event) (tr : Trace) :
    callCount p (e :: tr) = callCount p tr + if e.calls p then 1 else 0 := List.countP_cons ..
@[simp] theorem callCount_append (p : Op → Bool) (tr tr' : Trace) :
    callCount p (tr ++ tr') = callCount p tr + callCount p tr' := List.countP_append ..

/-- The call hands task `id` to a worker: an assignment or a pick. -/
def Op.fills (id : Nat) : Op → Bool
  | .assignWorker j _ | .marketplaceAssign j _ | .selectWinner j _ _
  | .selectWinnerByVerifier j _ _ | .selectWinnerByBackup j _ _ => j = id
  | .resolveOpenTask j winner _ => j = id ∧ winner ≠ 0
  | _ => false

/-- The call is a piece of evidence for task `id`. -/
def Op.evidences (id : Nat) : Op → Bool
  | .submitEvidence j _ => j = id
  | _ => false

theorem Op.fills_taskId (h : op.fills id = true) : op.taskId = some id := by
  cases op <;> simp_all [Op.fills, Op.taskId]

theorem Op.evidences_taskId (h : op.evidences id = true) : op.taskId = some id := by
  cases op <;> simp_all [Op.evidences, Op.taskId]

/-- An event that is not about a task is no call on it. -/
theorem Event.calls_of_about (habout : e.about id = false) {p : Op → Bool}
    (hp : ∀ op, p op = true → op.taskId = some id) : e.calls p = false := by
  rw [Bool.eq_false_iff]
  cases hk : e.kind with
  | called cid m =>
    simp only [Event.about, hk, decide_eq_false_iff_not] at habout
    simpa [Event.calls, hk] using fun h => habout (hp m.op h)
  | _ => simp [Event.calls, hk]

/-- A call that creates tasks is about none. -/
theorem Event.about_of_input {i : TaskInput} (h : e.input id = some i) (j : Nat) :
    e.about j = false := by
  cases hk : e.kind with
  | called cid m =>
    simp only [Event.input, hk] at h
    simp only [Event.about, hk, decide_eq_false_iff_not]
    cases hop : m.op <;> simp [hop, Op.inputs, Op.taskId] at h ⊢
  | _ => simp [Event.about, hk]

/-- The worker is written exactly by the calls that hand out the task. -/
theorem Move.worker (h : Move x s id op r todo) (hr : RowOk D (s.row id)) :
    (op.fills id = false ∧ r.task.worker = (s.tasks id).worker) ∨
      (op.fills id = true ∧ (s.tasks id).status = .funded ∧ r.task.worker ≠ 0) := by
  cases h with
  | assign op worker ext hp hop ho hst h0 =>
    refine .inr ⟨?_, hst, h0⟩
    rcases hop with ⟨rfl, -⟩ | ⟨rfl, -⟩ <;> simp [Op.fills]
  | pick op winner scorecard judge fee hl h hsub =>
    have hwinner := (hr.submitter winner hsub).1.1
    refine .inr ⟨?_, h.open_funded.2, hwinner⟩
    cases h <;> simp [Op.fills, hwinner]
  | void op scorecard judge hl h => exact .inl ⟨by cases h <;> simp [Op.fills], rfl⟩
  | fail op emitted disputed hl hp hop =>
    refine .inl ⟨?_, rfl⟩
    rcases hop with rfl | ⟨signature, text, rfl⟩ <;> rfl
  | complete op fee score before after hl hfee hle h =>
    refine .inl ⟨?_, rfl⟩
    cases h with
    | passed op fee emitted hp hop => rcases hop with rfl | ⟨signature, text, rfl⟩ <;> rfl
    | ruled => rfl
    | released => rfl
  | refund op after hl h => exact .inl ⟨by cases h <;> rfl, rfl⟩
  | evidence | escalate | dispute | submit => exact .inl ⟨rfl, rfl⟩

/-- The attempts are counted by the pieces of evidence. -/
theorem Move.attempts (h : Move x s id op r todo) :
    r.task.submissionAttempts =
      (s.tasks id).submissionAttempts + if op.evidences id then 1 else 0 := by
  cases h with
  | assign op worker ext hp hop => rcases hop with ⟨rfl, -⟩ | ⟨rfl, -⟩ <;> rfl
  | evidence => simp [Op.evidences]
  | fail op emitted disputed hl hp hop => rcases hop with rfl | ⟨signature, text, rfl⟩ <;> rfl
  | complete op fee score before after hl hfee hle h =>
    cases h with
    | passed op fee emitted hp hop => rcases hop with rfl | ⟨signature, text, rfl⟩ <;> rfl
    | ruled => rfl
    | released => rfl
  | refund op after hl h => cases h <;> rfl
  | pick op winner scorecard judge fee hl h => cases h <;> rfl
  | void op scorecard judge hl h => cases h <;> rfl
  | escalate | dispute | submit => rfl

/-- The trace shows who has been handed the task and how often evidence came in. -/
theorem Initial.row_calls (h0 : Initial D c₀) (hrun : EscrowRun D c₀ tr c) (id : Nat) :
    ((c.world.escrow.tasks id).worker = 0 ↔ callCount (Op.fills id) tr = 0) ∧
      (c.world.escrow.tasks id).submissionAttempts = callCount (Op.evidences id) tr := by
  induction hrun with
  | nil =>
    obtain ⟨sender, treasury, verifier, -, -, -, hs⟩ := h0.storage
    rw [hs]
    exact ⟨iff_of_true rfl rfl, rfl⟩
  | @snoc tr b c e hrun hs ih =>
    have hw := h0.sound_run hrun
    rcases hs.row id with ⟨habout, -, hrow⟩ | ⟨m, todo, hk, hsender, hid, -, hmove⟩ |
      ⟨m, token, i, o, hc⟩
    · have htask : c.world.escrow.tasks id = b.world.escrow.tasks id := congrArg Row.task hrow
      simpa [htask, Event.calls_of_about habout fun _ => Op.fills_taskId,
        Event.calls_of_about habout fun _ => Op.evidences_taskId] using ih
    · have hr := (hw.moved hsender hmove).2.2
      have hcalls : ∀ p, e.calls p = p m.op := fun p => by simp [Event.calls, hk]
      refine ⟨?_, ?_⟩
      · simp only [callCount_cons, hcalls]
        rcases hmove.worker hr with ⟨hf, hsame⟩ | ⟨hf, -, hne⟩
        · simp only [Escrow.row_task] at hsame
          simpa [hf, hsame] using ih.1
        · simpa [hf] using hne
      · have hstep := hmove.attempts
        simp only [Escrow.row_task] at hstep
        rw [hstep, ih.2, callCount_cons, hcalls]
    · have hblank : b.world.escrow.tasks id = {} :=
        congrArg Row.task (hw.blank id (.inr hc.next))
      have htask : c.world.escrow.tasks id = newTask (b.world.ctx m) token i := hc.fields.1
      have habout := Event.about_of_input hc.input id
      rw [hblank] at ih
      rw [htask]
      simpa [newTask, Event.calls_of_about habout fun _ => Op.fills_taskId,
        Event.calls_of_about habout fun _ => Op.evidences_taskId] using ih

/-- A task is handed out while it is funded, before any evidence. -/
theorem Initial.evidence_after (h0 : Initial D c₀) {later earlier : Trace}
    (hrun : EscrowRun D c₀ (later ++ e :: earlier) c) (hfill : e.calls (Op.fills id) = true) :
    callCount (Op.evidences id) (e :: earlier) = 0 := by
  obtain ⟨b, b', hb, hs, -⟩ := hrun.split
  have hw := h0.sound_run hb
  have hcount := (h0.row_calls hb id).2
  rcases hs.row id with ⟨habout, -, -⟩ | ⟨m, todo, hk, hsender, -, -, hmove⟩ | ⟨m, token, i, o, hc⟩
  · rw [Event.calls_of_about habout fun _ => Op.fills_taskId] at hfill
    cases hfill
  · have hr := (hw.moved hsender hmove).2.2
    have hfill' : m.op.fills id = true := by simpa [Event.calls, hk] using hfill
    have hev : e.calls (Op.evidences id) = false := by
      simp only [Event.calls, hk]
      cases hop : m.op <;> simp [hop, Op.fills, Op.evidences] at hfill' ⊢
    rcases hmove.worker hr with ⟨hf, -⟩ | ⟨-, hst, -⟩
    · exact absurd (hf.symm.trans hfill') Bool.false_ne_true
    · rw [callCount_cons, hev, ← hcount]
      simpa using hr.untried (.inl hst)
  · rw [Event.calls_of_about (Event.about_of_input hc.input id) fun _ => Op.fills_taskId] at hfill
    cases hfill

/-- The records of tasks along every run: ids never created stay blank, a created task keeps its
terms and moves along the edges of its kind until it is settled for good, its worker is set exactly
by an assignment or a pick and never is the agent, and its attempts are the pieces of evidence that
came in since. -/
theorem task_records (h0 : Initial D c₀) (hrun : EscrowRun D c₀ tr c) (id : Nat) :
    (id = 0 ∨ c.world.escrow.nextTaskId ≤ id → c.world.escrow.row id = {}) ∧
    (∀ e c', Step D c e c' → c.world.escrow.nextTaskId ≤ id → id < c'.world.escrow.nextTaskId →
      (c'.world.escrow.tasks id).status = .funded) ∧
    (0 < id → id < c.world.escrow.nextTaskId →
      (∀ e c', Step D c e c' →
        (c'.world.escrow.tasks id).status = (c.world.escrow.tasks id).status ∨
          Edge (c.world.escrow.openTasks id).isOpen (c.world.escrow.tasks id).status
            (c'.world.escrow.tasks id).status) ∧
      (∀ later c', EscrowRun D c later c' →
        (c.world.escrow.row id).SameTerms (c'.world.escrow.row id) ∧
        ((c.world.escrow.tasks id).status.live = false →
          c'.world.escrow.row id = c.world.escrow.row id)) ∧
      ((c.world.escrow.tasks id).worker = 0 ↔ callCount (Op.fills id) tr = 0) ∧
      (c.world.escrow.tasks id).worker ≠ (c.world.escrow.tasks id).agent ∧
      (c.world.escrow.tasks id).submissionAttempts ≤ 3 ∧
      (c.world.escrow.tasks id).submissionAttempts = callCount (Op.evidences id) tr ∧
      (∀ later e earlier, tr = later ++ e :: earlier → e.calls (Op.fills id) = true →
        (c.world.escrow.tasks id).submissionAttempts = callCount (Op.evidences id) later) ∧
      ((c.world.escrow.tasks id).status = .submitted ∨
          (c.world.escrow.tasks id).status = .verified ∨
          (c.world.escrow.tasks id).status = .disputed →
        1 ≤ (c.world.escrow.tasks id).submissionAttempts ∧
          (c.world.escrow.tasks id).evidenceHash ≠ 0 ∧ (c.world.escrow.tasks id).worker ≠ 0)) := by
  have hw := h0.sound_run hrun
  have hcalls := h0.row_calls hrun id
  refine ⟨hw.blank id, ?_, fun hid hlt => ?_⟩
  · intro e c' hs hle hlt
    obtain ⟨m, token, i, o, hc⟩ := hs.creates hle hlt
    exact congrArg Task.status hc.fields.1
  have hr := hw.rows id hid hlt
  refine ⟨fun e c' hs => hs.edge hw hid hlt, fun later c' h => ⟨sameTerms_run h hlt,
    settled_run h hlt⟩, hcalls.1, hr.worker, hr.attempts, hcalls.2, ?_, fun hst => ?_⟩
  · rintro later e earlier rfl hfill
    have hbefore := h0.evidence_after hrun hfill
    have hall := hcalls.2
    rw [callCount_append, hbefore] at hall
    exact hall
  · obtain ⟨hatt, hev, hworker⟩ := hr.delivered hst
    exact ⟨Nat.one_le_iff_ne_zero.mpr hatt, hev, hworker.1⟩

/-- A task that failed one verdict and came in again, seen in its whole run. -/
def resubmission : List Cue :=
  [.send ⟨1, 0, .allowToken 0⟩, .send ⟨10, 500, .createTask 7 0 500 "delivery" "north" 7200⟩,
    .send ⟨10, 0, .assignWorker 1 20⟩, .send ⟨20, 0, .submitEvidence 1 8⟩,
    .send ⟨3, 0, .completeVerification 1 false⟩, .wait 60, .send ⟨20, 0, .submitEvidence 1 9⟩]

theorem task_records_resubmission :
    ((demoPlay resubmission).1.world.escrow.tasks 1).status = .submitted ∧
      ((demoPlay resubmission).1.world.escrow.tasks 1).submissionAttempts =
        callCount (Op.evidences 1) (demoPlay resubmission).2 ∧
      callCount (Op.evidences 1) (demoPlay resubmission).2 = 2 := by
  have h := (task_records (demoStart_initial (by decide)) (demoPlay_run resubmission) 1).2.2
    (by decide) (by decide)
  exact ⟨by decide, h.2.2.2.2.2.1, by decide⟩

end BlindEscrow

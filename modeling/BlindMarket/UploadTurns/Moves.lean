import BlindMarket.UploadTurns.Code

/-!
# What a step does

Every step is one of five moves: a call joins, an attempt starts, an attempt gives
up its turn, a call comes back from its pause, or time goes by.
-/
namespace UploadTurns

variable {s s' : State} {a : Action} {before after : List Turn} {t : Turn} {k : Nat} {d : ℚ}

/-- The attempt's turn is there: the one before it in the chain is over. -/
def Free (before : List Turn) : Prop := ∀ p ∈ before.getLast?, p.isOver = true

/-- How an attempt gives up its turn: it comes too late to start, or it was running. -/
inductive GivesUp (s : State) (before : List Turn) (t : Turn) : Option (ℚ × ℚ) → Ending → Prop
  | tooLate : t.stage = .waiting → Free before →
      (s.calls t.call).deadline - s.now < MIN_ATTEMPT_MS → GivesUp s before t none .tooLate
  | ran {start budget : ℚ} {how : Ending} : t.stage = .running start budget → how ≠ .tooLate →
      (how = .noAnswer → s.now = start + budget) → GivesUp s before t (some (start, budget)) how

/-- What becomes of the call of an attempt that gives up its turn. -/
inductive Becomes (s : State) (t : Turn) : Call → Prop
  | failed : Becomes s t ((s.calls t.call).fail s.now t.attempt)
  | stored {start budget : ℚ} : t.stage = .running start budget →
      Becomes s t { s.calls t.call with stage := .answered s.now true }

inductive Move (s : State) : Action → State → Prop
  | join : Move s .join { s.inUploadTurn s.count 1 ⟨s.now, .queued 1⟩ with count := s.count + 1 }
  | start (k : Nat) (before : List Turn) (t : Turn) (after : List Turn) (budget : ℚ) :
      s.turns = before ++ t :: after → t.stage = .waiting → Free before →
      MIN_ATTEMPT_MS ≤ budget → budget ≤ (s.calls t.call).deadline - s.now →
      Move s (.begin k)
        { s with turns := before ++ { t with stage := .running s.now budget } :: after }
  | giveUp (a : Action) (before : List Turn) (t : Turn) (after : List Turn)
      (start : Option (ℚ × ℚ)) (how : Ending) (c : Call) :
      s.turns = before ++ t :: after → GivesUp s before t start how → Becomes s t c →
      (∀ d, a ≠ .elapse d) →
      Move s a
        { s with
          calls := Function.update s.calls t.call c
          turns := before ++ { t with stage := .settled start s.now how } :: after }
  | resume (call attempt : Nat) : call < s.count →
      (s.calls call).stage = .pausing attempt s.now →
      Move s (.resume call) (s.inUploadTurn call attempt (s.calls call))
  | elapse (d : ℚ) : 0 < d →
      (∀ before t after, s.turns = before ++ t :: after → t.stage = .waiting → ¬Free before) →
      (∀ t ∈ s.turns, ∀ start budget, t.stage = .running start budget →
        s.now + d ≤ start + budget) →
      (∀ call < s.count, ∀ attempt till, (s.calls call).stage = .pausing attempt till →
        s.now + d ≤ till) →
      Move s (.elapse d) { s with now := s.now + d }

/-- A step of a run, with the states before and after it. -/
structure Event where
  action : Action
  pre : State
  post : State

/-! ### Steps are moves -/

theorem split_at {turns : List Turn} (h : turns[k]? = some t) :
    ∃ before after, turns = before ++ t :: after ∧ k = before.length ∧
      ∀ t', turns.set k t' = before ++ t' :: after := by
  obtain ⟨hk, rfl⟩ := List.getElem?_eq_some_iff.1 h
  refine ⟨turns.take k, turns.drop (k + 1), ?_, ?_, fun t' => List.set_eq_take_append_cons_drop.trans
    (if_pos hk)⟩
  · rw [List.cons_getElem_drop_succ, List.take_append_drop]
  · rw [List.length_take, min_eq_left hk.le]

theorem free_iff (h : s.turns = before ++ t :: after) :
    s.free before.length = true ↔ Free before := by
  rcases before.eq_nil_or_concat' with rfl | ⟨init, p, rfl⟩
  · simp [State.free, Free]
  · have hget : s.turns[init.length]? = some p := by simp [h]
    simp [State.free, Free, hget]

theorem ready_iff (h : s.turns = before ++ t :: after) :
    s.ready before.length = true ↔ t.stage = .waiting ∧ Free before := by
  have hget : s.turns[before.length]? = some t := by simp [h]
  rw [State.ready, Bool.and_eq_true, free_iff h, hget]
  simp

theorem quiet_iff {till : ℚ} (h : s.quiet till = true) :
    (∀ before t after, s.turns = before ++ t :: after → t.stage = .waiting → ¬Free before) ∧
    (∀ t ∈ s.turns, ∀ start budget, t.stage = .running start budget → till ≤ start + budget) ∧
    ∀ call < s.count, ∀ attempt wake, (s.calls call).stage = .pausing attempt wake →
      till ≤ wake := by
  simp only [State.quiet, Bool.and_eq_true, List.all_eq_true] at h
  obtain ⟨⟨hready, hrunning⟩, hpausing⟩ := h
  refine ⟨fun before t after heq hw hfree => ?_, fun t ht start budget hs => ?_,
    fun call hcall attempt wake hs => ?_⟩
  · have hnot := hready before.length (by simp [heq])
    rw [(ready_iff heq).2 ⟨hw, hfree⟩] at hnot
    nomatch hnot
  · simpa [hs] using hrunning t ht
  · simpa [hs] using hpausing call (by simpa using hcall)

theorem move_of_step (h : step s a = some s') : Move s a s' := by
  cases a with
  | join =>
    obtain rfl := Option.some.inj h
    exact .join
  | begin k =>
    simp only [step] at h
    cases ht : s.turns[k]? with
    | none => simp [ht] at h
    | some t =>
      obtain ⟨before, after, heq, rfl, hset⟩ := split_at ht
      rw [ht] at h
      simp only [ready_iff heq, Option.ite_none_right_eq_some] at h
      obtain ⟨⟨hw, hfree⟩, h⟩ := h
      split at h
      · rename_i hlate
        obtain rfl := Option.some.inj h
        have hmin : (s.calls t.call).deadline - s.now < MIN_ATTEMPT_MS :=
          (min_lt_iff.1 hlate).resolve_left (by norm_num [UPLOAD_ATTEMPT_MS, MIN_ATTEMPT_MS])
        have hmove := Move.giveUp (s := s) (.begin before.length) before t after none .tooLate _ heq
          (.tooLate hw hfree hmin) .failed (by simp)
        simpa [State.giveUp, hset] using hmove
      · rename_i hbudget
        obtain rfl := Option.some.inj h
        have hmove := Move.start before.length before t after _ heq hw hfree (not_lt.1 hbudget)
          (min_le_right _ _)
        simpa [hset] using hmove
  | answer k stored =>
    simp only [step] at h
    split at h
    · rename_i call attempt start budget ht
      obtain ⟨before, after, heq, rfl, hset⟩ := split_at ht
      cases stored with
      | true =>
        obtain rfl := Option.some.inj h
        have hmove := Move.giveUp (s := s) (.answer before.length true) before _ after
          (some (start, budget)) .stored _ heq (.ran rfl (by simp) (by simp)) (.stored rfl) (by simp)
        simpa [State.giveUp, hset] using hmove
      | false =>
        obtain rfl := Option.some.inj h
        have hmove := Move.giveUp (s := s) (.answer before.length false) before _ after
          (some (start, budget)) .failed _ heq (.ran rfl (by simp) (by simp)) .failed (by simp)
        simpa [State.giveUp, hset] using hmove
    · nomatch h
  | limit k =>
    simp only [step] at h
    split at h
    · rename_i call attempt start budget ht
      obtain ⟨before, after, heq, rfl, hset⟩ := split_at ht
      simp only [Option.ite_none_right_eq_some] at h
      obtain ⟨hlimit, h⟩ := h
      obtain rfl := Option.some.inj h
      have hmove := Move.giveUp (s := s) (.limit before.length) before _ after
        (some (start, budget)) .noAnswer _ heq (.ran rfl (by simp) fun _ => hlimit) .failed (by simp)
      simpa [State.giveUp, hset] using hmove
    · nomatch h
  | resume call =>
    simp only [step] at h
    split at h
    · rename_i attempt till hs
      simp only [Option.ite_none_right_eq_some] at h
      obtain ⟨⟨hcall, rfl⟩, h⟩ := h
      obtain rfl := Option.some.inj h
      exact .resume call attempt hcall hs
    · nomatch h
  | elapse d =>
    simp only [step, Option.ite_none_right_eq_some] at h
    obtain ⟨⟨hd, hquiet⟩, h⟩ := h
    obtain rfl := Option.some.inj h
    obtain ⟨hready, hrunning, hpausing⟩ := quiet_iff hquiet
    exact .elapse d hd hready hrunning hpausing

end UploadTurns

import BlindMarket.UploadTurns.Turns

/-!
# The deadline of a call

A call joins the chain twice, and the second time behind calls that came later.
It is answered by its deadline unless the attempt of such a call still holds the
turn then.
-/
namespace UploadTurns

open Runs

variable {s s' : State} {a : Action} {t : Turn} {tr : List Event} {e : Event} {created : ℚ}

/-! ### Runs -/

def Step (s : State) (e : Event) (s' : State) : Prop :=
  e.pre = s ∧ e.post = s' ∧ step s e.action = some s'

theorem inv_run (h : Run Step (idle created) tr s) : Inv s :=
  h.invariant (I := fun _ s => Inv s) (inv_idle created)
    fun _ _ _ _ _ hinv hs => hinv.move (move_of_step hs.2.2)

/-- Every call is answered by its deadline, or has it still before it. -/
def InTime (s : State) : Prop :=
  ∀ call < s.count,
    match (s.calls call).stage with
    | .answered time _ => time ≤ (s.calls call).deadline
    | _ => s.now ≤ (s.calls call).deadline

/-- When time goes by, no attempt of a call that joined later holds its turn past the deadline of
a call whose second attempt waits behind it. -/
def Unobstructed (e : Event) : Prop :=
  ∀ d, e.action = .elapse d → ∀ t ∈ e.pre.turns, ∀ t' ∈ e.pre.turns, t.stage = .waiting →
    1 < t.attempt → (∃ start budget, t'.stage = .running start budget) →
    (e.pre.calls t.call).joined < (e.pre.calls t'.call).joined →
    e.pre.now + d ≤ (e.pre.calls t.call).deadline

/-! ### Waiting -/

theorem InTime.unanswered (h : InTime s) {call : Nat} (hcall : call < s.count)
    (hs : ∀ time stored, (s.calls call).stage ≠ .answered time stored) :
    s.now ≤ (s.calls call).deadline := by
  have hin := h call hcall
  cases hstage : (s.calls call).stage with
  | answered time stored => exact absurd hstage (hs time stored)
  | _ => simpa [hstage] using hin

/-- While no attempt can begin, one that waits is behind one that runs. -/
theorem running_before
    (hready : ∀ before t after, s.turns = before ++ t :: after → t.stage = .waiting → ¬Free before)
    (ht : t ∈ s.turns) (hw : t.stage = .waiting) :
    ∃ before r after, s.turns = before ++ r :: after ∧ t ∈ after ∧
      ∃ start budget, r.stage = .running start budget := by
  have hover : t.isOver = false := by simp [Turn.isOver, hw]
  have hsplit := List.takeWhile_append_dropWhile (p := Turn.isOver) (l := s.turns)
  have hbefore : ∀ p ∈ s.turns.takeWhile Turn.isOver, p.isOver = true :=
    fun p hp => List.mem_takeWhile_imp hp
  cases hdrop : s.turns.dropWhile Turn.isOver with
  | nil =>
    have hall := List.dropWhile_eq_nil_iff.1 hdrop t ht
    simp [hover] at hall
  | cons r after =>
    rw [hdrop] at hsplit
    have hr : r.isOver = false := by
      have hhead := List.head?_dropWhile_not Turn.isOver s.turns
      simpa [hdrop] using hhead
    have hfree : Free (s.turns.takeWhile Turn.isOver) :=
      fun p hp => hbefore p (List.mem_of_getLast? hp)
    cases hs : r.stage with
    | waiting => exact absurd hfree (hready _ r after hsplit.symm hs)
    | settled start time how => simp [Turn.isOver, hs] at hr
    | running start budget =>
      refine ⟨_, r, after, hsplit.symm, ?_, start, budget, hs⟩
      rw [← hsplit, List.mem_append, List.mem_cons] at ht
      rcases ht with ht | rfl | ht
      · simp [hbefore t ht] at hover
      · simp [hs] at hw
      · exact ht

/-- A move keeps every call in time unless a later call obstructs it. -/
theorem InTime.move (h : InTime s) (hinv : Inv s) (hm : Move s a s')
    (hfree : Unobstructed ⟨a, s, s'⟩) : InTime s' := by
  cases hm with
  | join =>
    intro call hcall
    rcases Nat.lt_succ_iff_lt_or_eq.1 hcall with hcall | rfl
    · simpa [State.inUploadTurn, hcall.ne] using h call hcall
    · simp [State.inUploadTurn, Call.deadline, UPLOAD_DEADLINE_MS]
  | start => exact h
  | giveUp a before t after start how c heq hup hc =>
    have ht : t ∈ s.turns := by simp [heq]
    have hnow : s.now ≤ (s.calls t.call).deadline := by
      refine h.unanswered (hinv.known t ht) fun time stored hs => ?_
      simp [hinv.active t ht hup.not_over] at hs
    intro call hcall
    by_cases hcall' : call = t.call
    · subst hcall'
      simp only [Function.update_self, Call.deadline, hc.joined]
      rcases hc.stage with ⟨stored, hst⟩ | ⟨-, hst, -⟩
      · rw [hst]
        exact hnow
      · rw [hst]
        exact hnow
    · simpa [hcall'] using h call hcall
  | resume c attempt hc hs =>
    intro call hcall
    by_cases hcall' : call = c
    · subst hcall'
      have hnow := h.unanswered hc fun time stored hs' => by simp [hs] at hs'
      simpa [State.inUploadTurn, Call.deadline] using hnow
    · simpa [State.inUploadTurn, hcall'] using h call hcall
  | elapse d hd hready hrunning hpausing =>
    intro call hcall
    have hcall : call < s.count := hcall
    cases hstage : (s.calls call).stage with
    | answered time stored =>
      have hin := h call hcall
      simpa [hstage] using hin
    | pausing attempt till =>
      have htill := hpausing call hcall attempt till hstage
      have hpause := (hinv.pauses call hcall attempt till hstage).2
      have hpos : (0 : ℚ) ≤ MIN_ATTEMPT_MS := by norm_num [MIN_ATTEMPT_MS]
      simp only
      linarith
    | queued attempt =>
      simp only
      obtain ⟨t, ht, rfl, hover⟩ := hinv.waits call hcall attempt hstage
      cases hs : t.stage with
      | settled start time how => simp [Turn.isOver, hs] at hover
      | running start budget =>
        have hlimit := hrunning t ht start budget hs
        have hon := hinv.onTime t ht
        simp only [OnTime, hs] at hon
        linarith [hon.2.1]
      | waiting =>
        obtain ⟨before, r, after, heq, hta, start, budget, hr⟩ := running_before hready ht hs
        have hrt : r ∈ s.turns := by simp [heq]
        have hlimit := hrunning r hrt start budget hr
        have hon := hinv.onTime r hrt
        simp only [OnTime, hr, Call.deadline] at hon
        by_cases hlater : 1 < t.attempt ∧ (s.calls t.call).joined < (s.calls r.call).joined
        · exact hfree d rfl t ht r hrt hs hlater.1 ⟨start, budget, hr⟩ hlater.2
        · have horder := hinv.order
          rw [heq] at horder
          have hle := (List.pairwise_cons.1 (List.pairwise_append.1 horder).2.1).1 t hta
          have hjoined : (s.calls r.call).joined ≤ (s.calls t.call).joined := by
            by_cases hn : t.attempt ≤ 1
            · exact hle hn
            · exact not_lt.1 fun hlt => hlater ⟨not_le.1 hn, hlt⟩
          simp only [Call.deadline]
          linarith [hon.2.1]

/-- A call that is obstructed is not in time. -/
theorem InTime.unobstructed (h : InTime s') (hinv : Inv s) (hs : step s a = some s') :
    Unobstructed ⟨a, s, s'⟩ := by
  rintro d rfl t ht t' - hw - - -
  obtain rfl : { s with now := s.now + d } = s' := by
    cases move_of_step hs with
    | giveUp _ _ _ _ _ _ _ _ _ _ hne => exact absurd rfl (hne d)
    | elapse => rfl
  refine h.unanswered (hinv.known t ht) fun time stored hstage => ?_
  simp [hinv.active t ht (by simp [Turn.isOver, hw])] at hstage

/-! ### The uploads of a process -/

/-- The times at which a timer ends. -/
def State.timers (s : State) : List ℚ :=
  s.turns.filterMap (fun t =>
    match t.stage with
    | .running start budget => some (start + budget)
    | _ => none) ++
  (List.range s.count).filterMap fun call =>
    match (s.calls call).stage with
    | .pausing _ till => some till
    | _ => none

theorem exists_between {now : ℚ} (times : List ℚ) (h : ∀ x ∈ times, now < x) :
    ∃ d, 0 < d ∧ ∀ x ∈ times, now + d ≤ x := by
  induction times with
  | nil => exact ⟨1, one_pos, by simp⟩
  | cons x times ih =>
    obtain ⟨d, hd, hle⟩ := ih fun y hy => h y (by simp [hy])
    have hx : 0 < x - now := sub_pos.2 (h x (by simp))
    refine ⟨min d (x - now), lt_min hd hx, fun y hy => ?_⟩
    rcases List.mem_cons.1 hy with rfl | hy
    · linarith [min_le_right d (y - now)]
    · linarith [min_le_left d (x - now), hle y hy]

/-- In every reachable state time goes by, or something is due. -/
theorem step_exists (h : Inv s) : ∃ a, a ≠ .join ∧ (step s a).isSome = true := by
  by_cases hready : ∃ k < s.turns.length, s.ready k = true
  · obtain ⟨k, hk, hready⟩ := hready
    have hget : s.turns[k]? = some s.turns[k] := List.getElem?_eq_getElem hk
    by_cases hlate : min UPLOAD_ATTEMPT_MS ((s.calls s.turns[k].call).deadline - s.now) <
        MIN_ATTEMPT_MS
    · exact ⟨.begin k, by simp, by simp [step, hget, hready, hlate]⟩
    · exact ⟨.begin k, by simp, by simp [step, hget, hready, hlate]⟩
  · by_cases hdue : ∃ x ∈ s.timers, x ≤ s.now
    · obtain ⟨x, hx, hle⟩ := hdue
      rcases List.mem_append.1 hx with hx | hx
      · obtain ⟨t, ht, htx⟩ := List.mem_filterMap.1 hx
        cases hs : t.stage with
        | running start budget =>
          obtain rfl : start + budget = x := by simpa [hs] using htx
          have hon := h.onTime t ht
          simp only [OnTime, hs] at hon
          obtain ⟨k, hk⟩ := List.mem_iff_getElem?.1 ht
          have hnow : s.now = start + budget := le_antisymm hon.2.2 hle
          refine ⟨.limit k, by simp, ?_⟩
          obtain ⟨call, attempt, stage⟩ := t
          simp only at hs
          subst hs
          simp [step, hk, hnow]
        | _ => simp [hs] at htx
      · obtain ⟨call, hcall, hcx⟩ := List.mem_filterMap.1 hx
        have hcall : call < s.count := by simpa using hcall
        cases hs : (s.calls call).stage with
        | pausing attempt till =>
          obtain rfl : till = x := by simpa [hs] using hcx
          have hnow : s.now = till := le_antisymm (h.pauses call hcall attempt till hs).1 hle
          exact ⟨.resume call, by simp, by simp [step, hs, hcall, hnow]⟩
        | _ => simp [hs] at hcx
    · have hlater : ∀ x ∈ s.timers, s.now < x := fun x hx => not_le.1 fun hle => hdue ⟨x, hx, hle⟩
      obtain ⟨d, hd, hle⟩ := exists_between s.timers hlater
      have hquiet : s.quiet (s.now + d) = true := by
        simp only [State.quiet, Bool.and_eq_true, List.all_eq_true, List.mem_range]
        refine ⟨⟨fun k hk => ?_, fun t ht => ?_⟩, fun call hcall => ?_⟩
        · cases hr : s.ready k with
          | true => exact absurd ⟨k, hk, hr⟩ hready
          | false => rfl
        · cases hs : t.stage with
          | running start budget =>
            have hmem : start + budget ∈ s.timers :=
              List.mem_append_left _ (List.mem_filterMap.2 ⟨t, ht, by simp [hs]⟩)
            simpa using hle _ hmem
          | _ => rfl
        · cases hs : (s.calls call).stage with
          | pausing attempt till =>
            have hmem : till ∈ s.timers :=
              List.mem_append_right _ (List.mem_filterMap.2 ⟨call, by simpa using hcall, by simp [hs]⟩)
            simpa using hle _ hmem
          | _ => rfl
      exact ⟨.elapse d, by simp, by simp [step, hd, hquiet]⟩

/-! ### A call that is overtaken -/

def perform : State → List Action → Option State
  | s, [] => some s
  | s, a :: actions => (step s a).bind fun s' => perform s' actions

theorem run_of_perform {actions : List Action} (h : perform s actions = some s') {start : State}
    (hrun : Run Step start tr s) : ∃ tr', Run Step start tr' s' := by
  induction actions generalizing s tr with
  | nil =>
    obtain rfl := Option.some.inj h
    exact ⟨tr, hrun⟩
  | cons a actions ih =>
    rw [perform, Option.bind_eq_some_iff] at h
    obtain ⟨b, hb, h⟩ := h
    exact ih h (hrun.snoc (e := ⟨a, s, b⟩) ⟨rfl, rfl, hb⟩)

/-- A first call holds the turn for ten seconds. The second gets no answer, and while it pauses a
third, which joined meanwhile, takes the turn and gets none either. -/
def overtaking : List Action :=
  [.join, .join, .begin 0, .elapse 10000, .answer 0 true, .begin 1, .elapse 10000, .join,
    .elapse 30000, .limit 1, .begin 2, .elapse 5000, .resume 1, .elapse 35000, .limit 2, .begin 3]

end UploadTurns

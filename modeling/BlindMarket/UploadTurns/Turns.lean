import BlindMarket.UploadTurns.Moves

/-!
# Turns and deadlines

What holds of the chain of attempts in every reachable state, and when every call
is answered by its deadline.
-/
namespace UploadTurns

open Runs

variable {s s' : State} {a : Action} {before after : List Turn} {t t' : Turn} {d now : ℚ}

/-! ### Turns -/

/-- When an attempt's turn came. -/
def Turn.reached? (t : Turn) : Option ℚ :=
  match t.stage with
  | .waiting => none
  | .running start _ => some start
  | .settled (some (start, _)) _ _ => some start
  | .settled none time _ => some time

/-- When an attempt gave up its turn. -/
def Turn.ended? (t : Turn) : Option ℚ :=
  match t.stage with
  | .settled _ time _ => some time
  | _ => none

theorem Turn.ended_of_isOver (h : t.isOver = true) : ∃ e, t.ended? = some e := by
  cases hs : t.stage <;> simp [Turn.isOver, Turn.ended?, hs] at h ⊢

theorem Turn.reached_of_isOver (h : t.isOver = true) : ∃ st, t.reached? = some st := by
  cases hs : t.stage with
  | settled start time how =>
    cases start with
    | none => exact ⟨time, by simp [Turn.reached?, hs]⟩
    | some start => exact ⟨start.1, by simp [Turn.reached?, hs]⟩
  | _ => simp [Turn.isOver, hs] at h

theorem Turn.not_over_of_ended (h : t.isOver = false) : t.ended? = none := by
  cases hs : t.stage <;> simp [Turn.isOver, Turn.ended?, hs] at h ⊢

theorem GivesUp.not_over {start : Option (ℚ × ℚ)} {how : Ending} (h : GivesUp s before t start how) :
    t.isOver = false := by
  cases h with
  | tooLate hw => simp [Turn.isOver, hw]
  | ran hs => simp [Turn.isOver, hs]

/-- The first attempt had settled when the second one's turn came. -/
def After (t t' : Turn) : Prop := ∀ st ∈ t'.reached?, ∃ e ∈ t.ended?, e ≤ st

/-- An attempt starts with enough time and keeps to its limit, which is inside the deadline. -/
def OnTime (now deadline : ℚ) (t : Turn) : Prop :=
  match t.stage with
  | .waiting => True
  | .running start budget =>
    MIN_ATTEMPT_MS ≤ deadline - start ∧ start + budget ≤ deadline ∧ now ≤ start + budget
  | .settled (some (start, budget)) time how =>
    MIN_ATTEMPT_MS ≤ deadline - start ∧ start + budget ≤ deadline ∧ time ≤ start + budget ∧
      (how = .noAnswer → time = start + budget) ∧ how ≠ .tooLate
  | .settled none _ how => how = .tooLate

/-- The attempts that a call has made or queued. -/
def State.made (s : State) (call : Nat) : Nat := s.turns.countP fun t => t.call = call

/-- The attempts that a call has made or queued are those that it counts. -/
def Counted (made : Nat) : Stage → Prop
  | .queued attempt => made = attempt ∧ attempt ≤ UPLOAD_ATTEMPTS
  | .pausing attempt _ => made + 1 = attempt ∧ 1 ≤ made ∧ attempt ≤ UPLOAD_ATTEMPTS
  | .answered .. => made ≤ UPLOAD_ATTEMPTS

structure Inv (s : State) : Prop where
  chain : s.turns.Pairwise After
  ended : ∀ t ∈ s.turns, ∀ e ∈ t.ended?, e ≤ s.now
  known : ∀ t ∈ s.turns, t.call < s.count
  joined : ∀ call < s.count, (s.calls call).joined ≤ s.now
  order : s.turns.Pairwise fun t t' => t'.attempt ≤ 1 →
    (s.calls t.call).joined ≤ (s.calls t'.call).joined
  active : ∀ t ∈ s.turns, t.isOver = false → (s.calls t.call).stage = .queued t.attempt
  alone : s.turns.Pairwise fun t t' => t.isOver = false → t'.isOver = false → t.call ≠ t'.call
  waits : ∀ call < s.count, ∀ attempt, (s.calls call).stage = .queued attempt →
    ∃ t ∈ s.turns, t.call = call ∧ t.isOver = false
  counted : ∀ call < s.count, Counted (s.made call) (s.calls call).stage
  onTime : ∀ t ∈ s.turns, OnTime s.now (s.calls t.call).deadline t
  pauses : ∀ call < s.count, ∀ attempt till, (s.calls call).stage = .pausing attempt till →
    s.now ≤ till ∧ till + MIN_ATTEMPT_MS ≤ (s.calls call).deadline

theorem inv_idle (now : ℚ) : Inv (idle now) where
  chain := .nil
  ended := by simp [idle]
  known := by simp [idle]
  joined := by simp [idle]
  order := .nil
  active := by simp [idle]
  alone := .nil
  waits := by simp [idle]
  counted := by simp [idle]
  onTime := by simp [idle]
  pauses := by simp [idle]

/-! ### Lists of turns -/

theorem pairwise_replace {α : Type} {R : α → α → Prop} {before after : List α} {x y : α}
    (h : (before ++ x :: after).Pairwise R) (hb : ∀ z ∈ before, R z x → R z y)
    (ha : ∀ z ∈ after, R x z → R y z) : (before ++ y :: after).Pairwise R := by
  obtain ⟨hbefore, hx, hcross⟩ := List.pairwise_append.1 h
  obtain ⟨hxa, hafter⟩ := List.pairwise_cons.1 hx
  refine List.pairwise_append.2 ⟨hbefore, List.pairwise_cons.2 ⟨fun z hz => ha z hz (hxa z hz),
    hafter⟩, fun z hz w hw => ?_⟩
  rcases List.mem_cons.1 hw with rfl | hw
  · exact hb z hz (hcross z hz x (by simp))
  · exact hcross z hz w (by simp [hw])

theorem mem_replace {α : Type} {before after : List α} {x y z : α}
    (h : z ∈ before ++ y :: after) : z = y ∨ z ∈ before ++ x :: after := by
  simp only [List.mem_append, List.mem_cons] at h ⊢
  tauto

/-- Before an attempt whose turn is there all are over. -/
theorem Inv.before_over (h : Inv s) (heq : s.turns = before ++ t :: after) (hfree : Free before) :
    ∀ p ∈ before, p.isOver = true := by
  have hchain := (List.pairwise_append.1 (heq ▸ h.chain)).1
  rcases before.eq_nil_or_concat' with rfl | ⟨init, p, rfl⟩
  · simp
  · have hp : p.isOver = true := hfree p (by simp)
    obtain ⟨st, hst⟩ := Turn.reached_of_isOver hp
    intro q hq
    rcases List.mem_append.1 hq with hq | hq
    · obtain ⟨e, he, -⟩ := (List.pairwise_append.1 hchain).2.2 q hq p (by simp) st hst
      cases hover : q.isOver with
      | true => rfl
      | false => simp [Turn.not_over_of_ended hover] at he
    · rwa [List.mem_singleton.1 hq]

/-- An attempt whose turn comes now comes after those before it. -/
theorem Inv.after_before (h : Inv s) (heq : s.turns = before ++ t :: after) (hfree : Free before)
    (hnew : t'.reached? = some s.now) : ∀ p ∈ before, After p t' := by
  intro p hp st hst
  obtain ⟨e, he⟩ := Turn.ended_of_isOver (h.before_over heq hfree p hp)
  obtain rfl : s.now = st := by simpa [hnew] using hst
  exact ⟨e, he, h.ended p (by simp [heq, hp]) e he⟩

/-- No turn has come to the attempts behind one that is not over. -/
theorem after_of_not_over (hover : t.isOver = false) {q : Turn} (h : After t q) :
    After t' q := by
  intro st hst
  obtain ⟨e, he, -⟩ := h st hst
  simp [Turn.not_over_of_ended hover] at he

/-! ### Every move keeps the invariant -/

theorem joined_fail (c : Call) (n : Nat) : (c.fail now n).joined = c.joined := rfl

theorem Becomes.joined {c : Call} (h : Becomes s t c) : c.joined = (s.calls t.call).joined := by
  cases h <;> rfl

/-- A failed attempt is followed by an answer, or by a pause that leaves time for another. -/
theorem fail_stage (c : Call) (n : Nat) :
    (∃ stored, (c.fail now n).stage = .answered now stored) ∨
      (n < UPLOAD_ATTEMPTS ∧ (c.fail now n).stage = .pausing (n + 1) (now + UPLOAD_RETRY_PAUSE_MS) ∧
        now + UPLOAD_RETRY_PAUSE_MS + MIN_ATTEMPT_MS ≤ c.deadline) := by
  rw [Call.fail]
  by_cases hn : n < UPLOAD_ATTEMPTS
  · by_cases hd : c.deadline - now < UPLOAD_RETRY_PAUSE_MS + MIN_ATTEMPT_MS
    · exact .inl ⟨false, by simp [hn, hd]⟩
    · exact .inr ⟨hn, by simp [hn, hd], by linarith [not_lt.1 hd]⟩
  · exact .inl ⟨false, by simp [hn]⟩

theorem Becomes.stage {c : Call} (h : Becomes s t c) :
    (∃ stored, c.stage = .answered s.now stored) ∨
      (t.attempt < UPLOAD_ATTEMPTS ∧
        c.stage = .pausing (t.attempt + 1) (s.now + UPLOAD_RETRY_PAUSE_MS) ∧
        s.now + UPLOAD_RETRY_PAUSE_MS + MIN_ATTEMPT_MS ≤ (s.calls t.call).deadline) := by
  cases h with
  | failed => exact fail_stage _ _
  | stored => exact .inl ⟨true, rfl⟩

theorem OnTime.of_not_running (h : OnTime now (s.calls t.call).deadline t)
    (hs : ∀ start budget, t.stage = .running start budget → d ≤ start + budget) :
    OnTime d (s.calls t.call).deadline t := by
  cases hstage : t.stage with
  | waiting => simp [OnTime, hstage]
  | running start budget =>
    simp only [OnTime, hstage] at h ⊢
    exact ⟨h.1, h.2.1, hs start budget hstage⟩
  | settled start time how =>
    cases start with
    | none => simpa [OnTime, hstage] using h
    | some start => simpa [OnTime, hstage] using h

theorem Inv.join (h : Inv s) :
    Inv { s.inUploadTurn s.count 1 ⟨s.now, .queued 1⟩ with count := s.count + 1 } := by
  have hcalls : ∀ call < s.count,
      Function.update s.calls s.count (⟨s.now, .queued 1⟩ : Call) call = s.calls call :=
    fun call hcall => Function.update_of_ne (Nat.ne_of_lt hcall) _ _
  have hnew : Function.update s.calls s.count (⟨s.now, .queued 1⟩ : Call) s.count =
      ⟨s.now, .queued 1⟩ := Function.update_self ..
  have hturns : ∀ t ∈ s.turns,
      Function.update s.calls s.count (⟨s.now, .queued 1⟩ : Call) t.call = s.calls t.call :=
    fun t ht => hcalls t.call (h.known t ht)
  have hmade : s.made s.count = 0 := by
    refine List.countP_eq_zero.2 fun t ht => ?_
    simpa using (h.known t ht).ne
  constructor
  case chain =>
    exact List.pairwise_append.2 ⟨h.chain, List.pairwise_singleton _ _, by simp [After, Turn.reached?]⟩
  case ended =>
    intro t ht
    rcases List.mem_append.1 ht with ht | ht
    · exact h.ended t ht
    · simp [List.mem_singleton.1 ht, Turn.ended?]
  case known =>
    intro t ht
    rcases List.mem_append.1 ht with ht | ht
    · exact Nat.lt_succ_of_lt (h.known t ht)
    · simp [List.mem_singleton.1 ht]
  case joined =>
    intro call hcall
    rcases Nat.lt_succ_iff_lt_or_eq.1 hcall with hcall | rfl
    · simpa [State.inUploadTurn, hcalls call hcall] using h.joined call hcall
    · simp [State.inUploadTurn]
  case order =>
    refine List.pairwise_append.2 ⟨h.order.imp_of_mem fun {t t'} ht ht' hle hn => ?_,
      List.pairwise_singleton _ _, fun t ht t' ht' _ => ?_⟩
    · simpa [State.inUploadTurn, hturns t ht, hturns t' ht'] using hle hn
    · obtain rfl := List.mem_singleton.1 ht'
      simpa [State.inUploadTurn, hturns t ht] using h.joined t.call (h.known t ht)
  case active =>
    intro t ht hover
    rcases List.mem_append.1 ht with ht | ht
    · simpa [State.inUploadTurn, hturns t ht] using h.active t ht hover
    · simp [List.mem_singleton.1 ht, State.inUploadTurn]
  case alone =>
    refine List.pairwise_append.2 ⟨h.alone, List.pairwise_singleton _ _, fun t ht t' ht' _ _ => ?_⟩
    simpa [List.mem_singleton.1 ht'] using (h.known t ht).ne
  case waits =>
    intro call hcall attempt hs
    rcases Nat.lt_succ_iff_lt_or_eq.1 hcall with hcall | rfl
    · obtain ⟨t, ht, hc, hover⟩ := h.waits call hcall attempt
        (by simpa [State.inUploadTurn, hcalls call hcall] using hs)
      exact ⟨t, by simp [State.inUploadTurn, ht], hc, hover⟩
    · exact ⟨⟨s.count, 1, .waiting⟩, by simp [State.inUploadTurn], rfl, rfl⟩
  case counted =>
    intro call hcall
    rcases Nat.lt_succ_iff_lt_or_eq.1 hcall with hcall | rfl
    · have hne : s.count ≠ call := hcall.ne'
      simpa [State.inUploadTurn, hcalls call hcall, State.made, hne] using h.counted call hcall
    · simp only [State.made] at hmade
      simp [State.inUploadTurn, State.made, hmade, Counted, UPLOAD_ATTEMPTS]
  case onTime =>
    intro t ht
    rcases List.mem_append.1 ht with ht | ht
    · simpa [State.inUploadTurn, hturns t ht] using h.onTime t ht
    · simp [List.mem_singleton.1 ht, OnTime]
  case pauses =>
    intro call hcall attempt till hs
    rcases Nat.lt_succ_iff_lt_or_eq.1 hcall with hcall | rfl
    · simp only [State.inUploadTurn, hcalls call hcall] at hs ⊢
      exact h.pauses call hcall attempt till hs
    · simp [State.inUploadTurn] at hs

theorem Inv.resume (h : Inv s) {call attempt : Nat} (hcall : call < s.count)
    (hs : (s.calls call).stage = .pausing attempt s.now) :
    Inv (s.inUploadTurn call attempt (s.calls call)) := by
  have hjoined : ∀ c, (Function.update s.calls call
      { s.calls call with stage := .queued attempt } c).joined = (s.calls c).joined := by
    intro c
    by_cases hc : c = call
    · simp [hc]
    · simp [hc]
  have hne : ∀ t ∈ s.turns, t.isOver = false → t.call ≠ call := by
    rintro t ht hover rfl
    simp [h.active t ht hover] at hs
  have hcounted := h.counted call hcall
  rw [hs] at hcounted
  obtain ⟨hmade, hpos, hle⟩ := hcounted
  constructor
  case chain =>
    exact List.pairwise_append.2 ⟨h.chain, List.pairwise_singleton _ _, by simp [After, Turn.reached?]⟩
  case ended =>
    intro t ht
    rcases List.mem_append.1 ht with ht | ht
    · exact h.ended t ht
    · simp [List.mem_singleton.1 ht, Turn.ended?]
  case known =>
    intro t ht
    rcases List.mem_append.1 ht with ht | ht
    · exact h.known t ht
    · rw [List.mem_singleton.1 ht]
      exact hcall
  case joined =>
    intro c hc
    simpa only [State.inUploadTurn, hjoined] using h.joined c hc
  case order =>
    simp only [State.inUploadTurn, hjoined]
    refine List.pairwise_append.2 ⟨h.order, List.pairwise_singleton _ _, fun t ht t' ht' hn => ?_⟩
    obtain rfl := List.mem_singleton.1 ht'
    have hn : attempt ≤ 1 := hn
    omega
  case active =>
    intro t ht hover
    rcases List.mem_append.1 ht with ht | ht
    · simpa [State.inUploadTurn, hne t ht hover] using h.active t ht hover
    · simp [List.mem_singleton.1 ht, State.inUploadTurn]
  case alone =>
    refine List.pairwise_append.2 ⟨h.alone, List.pairwise_singleton _ _,
      fun t ht t' ht' hover _ => ?_⟩
    simpa [List.mem_singleton.1 ht'] using hne t ht hover
  case waits =>
    intro c hc n hq
    by_cases heq : c = call
    · exact ⟨⟨call, attempt, .waiting⟩, by simp [State.inUploadTurn], heq.symm, rfl⟩
    · obtain ⟨t, ht, htc, hover⟩ := h.waits c hc n (by simpa [State.inUploadTurn, heq] using hq)
      exact ⟨t, by simp [State.inUploadTurn, ht], htc, hover⟩
  case counted =>
    intro c hc
    by_cases heq : c = call
    · subst heq
      simp only [State.made] at hmade
      simp [State.inUploadTurn, State.made, Counted, hmade, hle]
    · simpa [State.inUploadTurn, heq, State.made, Ne.symm heq] using h.counted c hc
  case onTime =>
    intro t ht
    simp only [Call.deadline, State.inUploadTurn, hjoined]
    rcases List.mem_append.1 ht with ht | ht
    · exact h.onTime t ht
    · simp [List.mem_singleton.1 ht, OnTime]
  case pauses =>
    intro c hc n till hp
    simp only [Call.deadline, State.inUploadTurn, hjoined]
    by_cases heq : c = call
    · simp [State.inUploadTurn, heq] at hp
    · exact h.pauses c hc n till (by simpa [State.inUploadTurn, heq] using hp)

theorem Inv.start (h : Inv s) {budget : ℚ} (heq : s.turns = before ++ t :: after)
    (hw : t.stage = .waiting) (hfree : Free before) (hmin : MIN_ATTEMPT_MS ≤ budget)
    (hbudget : budget ≤ (s.calls t.call).deadline - s.now) :
    Inv { s with turns := before ++ { t with stage := .running s.now budget } :: after } := by
  have hover : t.isOver = false := by simp [Turn.isOver, hw]
  have ht : t ∈ s.turns := by simp [heq]
  have hmem : ∀ x ∈ before ++ { t with stage := .running s.now budget } :: after,
      x = { t with stage := .running s.now budget } ∨ x ∈ s.turns := by
    rw [heq]
    exact fun x hx => mem_replace hx
  constructor
  case chain =>
    refine pairwise_replace (heq ▸ h.chain)
      (fun p hp _ => h.after_before heq hfree (by simp [Turn.reached?]) p hp)
      (fun q _ hq => after_of_not_over hover hq)
  case ended =>
    intro x hx
    rcases hmem x hx with rfl | hx
    · simp [Turn.ended?]
    · exact h.ended x hx
  case known =>
    intro x hx
    rcases hmem x hx with rfl | hx
    · exact h.known t ht
    · exact h.known x hx
  case joined => exact h.joined
  case order =>
    have horder := h.order
    rw [heq] at horder
    exact pairwise_replace horder (fun _ _ hle => hle) (fun _ _ hle => hle)
  case active =>
    intro x hx hx'
    rcases hmem x hx with rfl | hx
    · exact h.active t ht hover
    · exact h.active x hx hx'
  case alone =>
    have halone := h.alone
    rw [heq] at halone
    exact pairwise_replace halone (fun _ _ hne ho _ => hne ho hover)
      (fun _ _ hne _ ho => hne hover ho)
  case waits =>
    intro call hcall n hs
    obtain ⟨x, hx, hc, hx'⟩ := h.waits call hcall n hs
    rw [heq] at hx
    rcases mem_replace (x := { t with stage := .running s.now budget }) hx with rfl | hx
    · exact ⟨{ x with stage := .running s.now budget }, by simp, hc, by simp [Turn.isOver]⟩
    · exact ⟨x, hx, hc, hx'⟩
  case counted =>
    intro call hcall
    have hcounted := h.counted call hcall
    simpa [State.made, heq, List.countP_cons] using hcounted
  case onTime =>
    intro x hx
    rcases hmem x hx with rfl | hx
    · simp only [OnTime]
      refine ⟨hmin.trans hbudget, by linarith, ?_⟩
      have hpos : (0 : ℚ) ≤ MIN_ATTEMPT_MS := by norm_num [MIN_ATTEMPT_MS]
      linarith
    · exact h.onTime x hx
  case pauses => exact h.pauses

theorem GivesUp.onTime {start : Option (ℚ × ℚ)} {how : Ending} {deadline : ℚ}
    (h : GivesUp s before t start how) (ht : OnTime s.now deadline t) :
    OnTime s.now deadline { t with stage := .settled start s.now how } := by
  cases h with
  | tooLate => simp [OnTime]
  | ran hs hhow hlimit =>
    simp only [OnTime, hs] at ht ⊢
    exact ⟨ht.1, ht.2.1, ht.2.2, hlimit, hhow⟩

theorem Inv.giveUp (h : Inv s) {start : Option (ℚ × ℚ)} {how : Ending} {c : Call}
    (heq : s.turns = before ++ t :: after) (hup : GivesUp s before t start how)
    (hc : Becomes s t c) :
    Inv { s with
      calls := Function.update s.calls t.call c
      turns := before ++ { t with stage := .settled start s.now how } :: after } := by
  have hover := hup.not_over
  have ht : t ∈ s.turns := by simp [heq]
  have hjoined : ∀ call, (Function.update s.calls t.call c call).joined = (s.calls call).joined := by
    intro call
    by_cases hcall : call = t.call
    · rw [hcall, Function.update_self, hc.joined]
    · rw [Function.update_of_ne hcall]
  have hmem : ∀ x ∈ before ++ { t with stage := .settled start s.now how } :: after,
      x = { t with stage := .settled start s.now how } ∨
        x ∈ s.turns ∧ (x.isOver = false → x.call ≠ t.call) := by
    have halone := List.pairwise_append.1 (heq ▸ h.alone)
    intro x hx
    simp only [List.mem_append, List.mem_cons] at hx
    rcases hx with hx | rfl | hx
    · exact .inr ⟨by simp [heq, hx], fun ho => halone.2.2 x hx t (by simp) ho hover⟩
    · exact .inl rfl
    · exact .inr ⟨by simp [heq, hx], fun ho =>
        ((List.pairwise_cons.1 halone.2.1).1 x hx hover ho).symm⟩
  constructor
  case chain =>
    refine pairwise_replace (heq ▸ h.chain) (fun p hp hafter => ?_)
      (fun q _ hq => after_of_not_over hover hq)
    cases hup with
    | tooLate hw hfree => exact h.after_before heq hfree (by simp [Turn.reached?]) p hp
    | ran hs =>
      intro st hst
      exact hafter st (by simpa [Turn.reached?, hs] using hst)
  case ended =>
    intro x hx e he
    rcases hmem x hx with rfl | ⟨hx, -⟩
    · obtain rfl : s.now = e := by simpa [Turn.ended?] using he
      exact le_rfl
    · exact h.ended x hx e he
  case known =>
    intro x hx
    rcases hmem x hx with rfl | ⟨hx, -⟩
    · exact h.known t ht
    · exact h.known x hx
  case joined =>
    intro call hcall
    simpa only [hjoined] using h.joined call hcall
  case order =>
    simp only [hjoined]
    have horder := h.order
    rw [heq] at horder
    exact pairwise_replace horder (fun _ _ hle => hle) (fun _ _ hle => hle)
  case active =>
    intro x hx ho
    rcases hmem x hx with rfl | ⟨hx, hne⟩
    · simp [Turn.isOver] at ho
    · simpa only [Function.update_of_ne (hne ho)] using h.active x hx ho
  case alone =>
    have halone := h.alone
    rw [heq] at halone
    exact pairwise_replace halone (fun _ _ _ _ ho => by simp [Turn.isOver] at ho)
      (fun _ _ _ ho => by simp [Turn.isOver] at ho)
  case waits =>
    intro call hcall n hs
    by_cases hcall' : call = t.call
    · simp only [hcall', Function.update_self] at hs
      rcases hc.stage with ⟨stored, hst⟩ | ⟨-, hst, -⟩ <;> simp [hst] at hs
    · obtain ⟨x, hx, hxc, ho⟩ := h.waits call hcall n (by simpa [hcall'] using hs)
      rw [heq] at hx
      rcases mem_replace (x := { t with stage := .settled start s.now how }) hx with rfl | hx
      · exact absurd hxc.symm hcall'
      · exact ⟨x, hx, hxc, ho⟩
  case counted =>
    intro call hcall
    have hcounted := h.counted call hcall
    have hmade : State.made
        { s with
          calls := Function.update s.calls t.call c
          turns := before ++ { t with stage := .settled start s.now how } :: after } call =
        s.made call := by
      simp [State.made, heq, List.countP_cons]
    rw [hmade]
    by_cases hcall' : call = t.call
    · subst hcall'
      simp only [Function.update_self]
      rw [h.active t ht hover] at hcounted
      have hpos : 0 < s.made t.call := List.countP_pos_iff.2 ⟨t, ht, by simp⟩
      obtain ⟨hn, hle⟩ := hcounted
      rcases hc.stage with ⟨stored, hst⟩ | ⟨hlt, hst, -⟩
      · rw [hst]
        exact hn ▸ hle
      · rw [hst]
        exact ⟨by rw [hn], hpos, hlt⟩
    · simpa [hcall'] using hcounted
  case onTime =>
    intro x hx
    simp only [Call.deadline, hjoined]
    rcases hmem x hx with rfl | ⟨hx, -⟩
    · exact hup.onTime (h.onTime t ht)
    · exact h.onTime x hx
  case pauses =>
    intro call hcall n till hp
    simp only [Call.deadline, hjoined]
    by_cases hcall' : call = t.call
    · subst hcall'
      simp only [Function.update_self] at hp
      rcases hc.stage with ⟨stored, hst⟩ | ⟨-, hst, hle⟩
      · simp [hst] at hp
      · obtain ⟨-, rfl⟩ : t.attempt + 1 = n ∧ s.now + UPLOAD_RETRY_PAUSE_MS = till := by
          simpa [hst] using hp
        exact ⟨by norm_num [UPLOAD_RETRY_PAUSE_MS], hle⟩
    · exact h.pauses call hcall n till (by simpa [hcall'] using hp)

theorem Inv.elapse (h : Inv s) (hd : 0 < d)
    (hrunning : ∀ t ∈ s.turns, ∀ start budget, t.stage = .running start budget →
      s.now + d ≤ start + budget)
    (hpausing : ∀ call < s.count, ∀ attempt till, (s.calls call).stage = .pausing attempt till →
      s.now + d ≤ till) : Inv { s with now := s.now + d } where
  chain := h.chain
  ended := fun t ht e he => (h.ended t ht e he).trans (le_add_of_nonneg_right hd.le)
  known := h.known
  joined := fun call hcall => (h.joined call hcall).trans (le_add_of_nonneg_right hd.le)
  order := h.order
  active := h.active
  alone := h.alone
  waits := h.waits
  counted := h.counted
  onTime := fun t ht => (h.onTime t ht).of_not_running (hrunning t ht)
  pauses := fun call hcall attempt till hs =>
    ⟨hpausing call hcall attempt till hs, (h.pauses call hcall attempt till hs).2⟩

theorem Inv.move (h : Inv s) (hm : Move s a s') : Inv s' := by
  cases hm with
  | join => exact h.join
  | start k before t after budget heq hw hfree hmin hbudget =>
    exact h.start heq hw hfree hmin hbudget
  | giveUp a before t after start how c heq hup hc _ => exact h.giveUp heq hup hc
  | resume call attempt hcall hs => exact h.resume hcall hs
  | elapse d hd _ hrunning hpausing => exact h.elapse hd hrunning hpausing

end UploadTurns

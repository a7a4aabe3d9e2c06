import BlindMarket.Support.Async

/-!
# What the programs under way know

From the trace of a run one reads the answers of each program that has started
and has neither finished nor died. An invariant over traces is proved one move
at a time: what a program asks for, given what it knows, keeps it.
-/
namespace Async

open Runs Prog

variable {C : Type} {Ans : C → Type} {ε α τ σ : Type} [DecidableEq τ]

/-- The answers of a program under way. -/
def known : List (Event Ans ε α τ σ) → τ → Option (Answers Ans ε)
  | [], _ => none
  | e :: tr, t =>
    match e.label with
    | .ran t' c r => if t' = t then (known tr t).map fun a => ⟨c, r⟩ :: a else known tr t
    | .started t' => if t' = t then some [] else known tr t
    | .finished t' _ => if t' = t then none else known tr t
    | .env => known tr t
    | .died t' => if t' = t then none else known tr t

variable {S : System Ans ε α τ σ} {tr : List (Event Ans ε α τ σ)} {e : Event Ans ε α τ σ}
  {s s' : σ} {t t' : τ} {a : Answers Ans ε}

@[simp] theorem known_nil : known ([] : List (Event Ans ε α τ σ)) t = none := rfl

theorem known_other (h : e.label.tag? ≠ some t) : known (e :: tr) t = known tr t := by
  obtain ⟨label, pre, post⟩ := e
  cases label <;> simp_all [known, Label.tag?]

@[simp] theorem known_ran {c : C} {r : Except ε (Ans c)} :
    known (⟨.ran t c r, s, s'⟩ :: tr) t' =
      if t = t' then (known tr t').map fun a => ⟨c, r⟩ :: a else known tr t' := rfl

@[simp] theorem known_started :
    known (⟨.started t, s, s'⟩ :: tr) t' = if t = t' then some [] else known tr t' := rfl

@[simp] theorem known_finished {r : Except ε α} :
    known (⟨.finished t r, s, s'⟩ :: tr) t' = if t = t' then none else known tr t' := rfl

@[simp] theorem known_env : known (⟨.env, s, s'⟩ :: tr) t' = known tr t' := rfl

@[simp] theorem known_died :
    known (⟨.died t, s, s'⟩ :: tr) t' = if t = t' then none else known tr t' := rfl

theorem known_fresh (h : ∀ e ∈ tr, e.label.tag? ≠ some t) : known tr t = none := by
  induction tr with
  | nil => rfl
  | cons e tr ih =>
    rw [known_other (h e List.mem_cons_self)]
    exact ih fun e' he' => h e' (List.mem_cons_of_mem _ he')

theorem known_mem (h : known tr t = some a) {c : C} {r : Except ε (Ans c)} (hmem : ⟨c, r⟩ ∈ a) :
    ∃ e ∈ tr, e.label = .ran t c r := by
  induction tr generalizing a with
  | nil => cases h
  | cons e tr ih =>
    have hkeep : ∀ {a'}, known tr t = some a' → ⟨c, r⟩ ∈ a' →
        ∃ e' ∈ e :: tr, e'.label = .ran t c r := fun ha hm =>
      (ih ha hm).imp fun _ h => ⟨List.mem_cons_of_mem _ h.1, h.2⟩
    by_cases htag : e.label.tag? = some t
    · obtain ⟨label, pre, post⟩ := e
      cases label with
      | ran t' c' r' =>
        cases htag
        rw [known_ran, if_pos rfl] at h
        obtain ⟨a', ha, rfl⟩ := Option.map_eq_some_iff.mp h
        rcases List.mem_cons.mp hmem with heq | hmem
        · cases heq
          exact ⟨_, List.mem_cons_self, rfl⟩
        · exact hkeep ha hmem
      | started t' =>
        cases htag
        rw [known_started, if_pos rfl] at h
        cases h
        cases hmem
      | finished t' r' =>
        cases htag
        rw [known_finished, if_pos rfl] at h
        cases h
      | env => cases htag
      | died t' =>
        cases htag
        rw [known_died, if_pos rfl] at h
        cases h
    · rw [known_other htag] at h
      exact hkeep h hmem

/-- A step that answers nothing leaves each program what it knew, or starts it with nothing. -/
theorem known_silent (hne : ∀ (t : τ) (c : C) (r : Except ε (Ans c)), e.label ≠ .ran t c r)
    (ha : known (e :: tr) t = some a) : a = [] ∨ known tr t = some a := by
  by_cases htag : e.label.tag? = some t
  · obtain ⟨label, pre, post⟩ := e
    cases label with
    | ran t' c r => exact absurd rfl (hne t' c r)
    | started t' =>
      cases htag
      rw [known_started, if_pos rfl] at ha
      cases ha
      exact .inl rfl
    | finished t' r =>
      cases htag
      simp at ha
    | env => cases htag
    | died t' =>
      cases htag
      simp at ha
  · rw [known_other htag] at ha
    exact .inr ha

/-- An answer comes on top of what its program knew; the others know what they did. -/
theorem known_answered {c : C} {r : Except ε (Ans c)} {a' : Answers Ans ε}
    (hknown : known tr t = some a) (ha : known (⟨.ran t c r, s, s'⟩ :: tr) t' = some a') :
    t' = t ∧ a' = ⟨c, r⟩ :: a ∨ t' ≠ t ∧ known tr t' = some a' := by
  by_cases htag : t = t'
  · subst htag
    rw [known_ran, if_pos rfl, hknown] at ha
    cases ha
    exact .inl ⟨rfl, rfl⟩
  · rw [known_ran, if_neg htag] at ha
    exact .inr ⟨Ne.symm htag, ha⟩

/-- One step, told by what its program knows before it. -/
inductive Move (S : System Ans ε α τ σ) (P : τ → Answers Ans ε → C → Prop)
    (Q : τ → Answers Ans ε → Except ε α → Prop) (tr : List (Event Ans ε α τ σ)) :
    σ → Event Ans ε α τ σ → σ → Prop where
  | ran {s s' : σ} (t : τ) (a : Answers Ans ε) (c : C) (r : Except ε (Ans c))
      (hknown : known tr t = some a) (hasks : P t a c) (hx : S.exec t s c r s') :
      Move S P Q tr s ⟨.ran t c r, s, s'⟩ s'
  | started {s s' : σ} (t : τ) (p : Prog Ans ε α) (tags : List τ) (hfresh : known tr t = none)
      (hx : S.start tags s t p s') : Move S P Q tr s ⟨.started t, s, s'⟩ s'
  | finished {s : σ} (t : τ) (a : Answers Ans ε) (r : Except ε α) (hknown : known tr t = some a)
      (hends : Q t a r) : Move S P Q tr s ⟨.finished t r, s, s⟩ s
  | env {s s' : σ} (hx : S.env s s') : Move S P Q tr s ⟨.env, s, s'⟩ s'
  | died {s s' : σ} (t : τ) (a : Answers Ans ε) (hknown : known tr t = some a)
      (hx : S.die t s s') : Move S P Q tr s ⟨.died t, s, s'⟩ s'

theorem Move.states {P : τ → Answers Ans ε → C → Prop} {Q : τ → Answers Ans ε → Except ε α → Prop}
    (h : Move S P Q tr s e s') : e.pre = s ∧ e.post = s' := by
  cases h <;> exact ⟨rfl, rfl⟩

section

variable {P : τ → Answers Ans ε → C → Prop} {Q : τ → Answers Ans ε → Except ε α → Prop}
  {num : τ → Nat} {count : σ → Nat} {s₀ : σ} {c : Pool Ans ε α τ σ}

/-- The programs of a pool are the ones that know something. -/
structure Tracks (P : τ → Answers Ans ε → C → Prop) (Q : τ → Answers Ans ε → Except ε α → Prop)
    (tr : List (Event Ans ε α τ σ)) (c : Pool Ans ε α τ σ) : Prop where
  told : ∀ th ∈ c.threads, ∃ a, known tr th.tag = some a ∧
    th.prog.Told (P th.tag) (Q th.tag) a
  running : ∀ t a, known tr t = some a → ∃ th ∈ c.threads, th.tag = t

theorem Numbered.tracks (hS : Numbered S num count) (h : PoolRun S ⟨s₀, []⟩ tr c)
    (hstart : ∀ tags s t p s', S.start tags s t p s' → p.Told (P t) (Q t) []) :
    Tracks P Q tr c := by
  refine ⟨?_, ?_⟩
  · refine hS.threads (J := fun tr _ th => ∃ a, known tr th.tag = some a ∧
      th.prog.Told (P th.tag) (Q th.tag) a) h ?_ ?_ ?_
    · intro tr tags s t p s' hx hnew
      exact ⟨[], by simp, hstart _ _ _ _ _ hx⟩
    · rintro tr s t cmd k r s' hx ⟨a, ha, hp⟩
      exact ⟨⟨cmd, r⟩ :: a, by simp [ha], hp.2 r⟩
    · rintro tr b e c th hpre hs ⟨a, ha, hp⟩ htag
      exact ⟨a, by rw [known_other htag, ha], hp⟩
  · refine Run.invariant (I := fun tr c => ∀ t a, known tr t = some a →
      ∃ th ∈ c.threads, th.tag = t) h (by simp) ?_
    intro tr b e c hpre hb hs t a ha
    by_cases htag : e.label.tag? = some t
    · cases hs with
      | run l₁ l₂ t' cmd k r hx =>
        cases htag
        exact ⟨⟨t, k r⟩, by simp, rfl⟩
      | start l t' p hx =>
        cases htag
        exact ⟨⟨t, p⟩, by simp, rfl⟩
      | finish l₁ l₂ t' r =>
        cases htag
        simp at ha
      | env l hx => cases htag
      | die l₁ l₂ t' p hx =>
        cases htag
        simp at ha
    · rw [known_other htag] at ha
      obtain ⟨th, hth, rfl⟩ := hb t a ha
      obtain hth | ⟨cmd, k, r, -, hlabel, -⟩ | ⟨r, -, hlabel⟩ | hlabel := hs.thread hth
      · exact ⟨th, hth, rfl⟩
      all_goals
        rw [hlabel] at htag
        exact absurd rfl htag

/-- Programs under way have numbers of their own. -/
theorem Numbered.known_unique (hS : Numbered S num count) (h : PoolRun S ⟨s₀, []⟩ tr c)
    {a' : Answers Ans ε} (ha : known tr t = some a) (ha' : known tr t' = some a')
    (hnum : num t' = num t) : t' = t := by
  have htracks : Tracks (fun _ _ _ => True) (fun _ _ _ => True) tr c :=
    hS.tracks h fun _ _ _ p _ _ => told_true p
  obtain ⟨th, hth, rfl⟩ := htracks.running t a ha
  obtain ⟨th', hth', rfl⟩ := htracks.running t' a' ha'
  rw [(hS.run h).eq_of_tag hth' hth hnum]

/-- Every step is a move. -/
theorem Numbered.move (hS : Numbered S num count) {b : Pool Ans ε α τ σ}
    (h : PoolRun S ⟨s₀, []⟩ tr b) (hs : Step S b e c)
    (hstart : ∀ tags s t p s', S.start tags s t p s' → p.Told (P t) (Q t) []) :
    Move S P Q tr b.state e c.state := by
  have hb := hS.tracks h hstart
  have hcounted := hS.run h
  cases hs with
  | run l₁ l₂ t cmd k r hx =>
    obtain ⟨a, ha, hp⟩ := hb.told ⟨t, .await cmd k⟩ (by simp)
    exact .ran t a cmd r ha hp.1 hx
  | start l t p hx =>
    refine .started t p _ (known_fresh fun e he htag => ?_) hx
    have hnum := (hS.start _ _ _ _ _ hx).1
    have := hcounted.events e he t htag
    simp only at this
    omega
  | finish l₁ l₂ t r =>
    obtain ⟨a, ha, hp⟩ := hb.told ⟨t, .done r⟩ (by simp)
    exact .finished t a r ha hp
  | env l hx => exact .env hx
  | die l₁ l₂ t p hx =>
    obtain ⟨a, ha, -⟩ := hb.told ⟨t, p⟩ (by simp)
    exact .died t a ha hx

/-- A program under way knows every answer it was given. -/
theorem Numbered.known_all (hS : Numbered S num count) (h : PoolRun S ⟨s₀, []⟩ tr c)
    (hknown : known tr t = some a) {e : Event Ans ε α τ σ} (he : e ∈ tr) {cmd : C}
    {r : Except ε (Ans cmd)} (hlabel : e.label = .ran t cmd r) : ⟨cmd, r⟩ ∈ a := by
  suffices hall : ∀ a, known tr t = some a → ∀ e ∈ tr, e.label = .ran t cmd r → ⟨cmd, r⟩ ∈ a from
    hall a hknown e he hlabel
  refine Run.invariant (I := fun tr _ => ∀ a, known tr t = some a → ∀ e ∈ tr,
    e.label = .ran t cmd r → ⟨cmd, r⟩ ∈ a) h (by simp) ?_
  intro tr b e c hpre hb hs a ha e' he' hlabel
  by_cases htag : e.label.tag? = some t
  · cases hs with
    | run l₁ l₂ t' cmd' k r' hx =>
      cases htag
      rw [known_ran, if_pos rfl] at ha
      obtain ⟨a₀, ha₀, rfl⟩ := Option.map_eq_some_iff.mp ha
      obtain rfl | he' := List.mem_cons.mp he'
      · cases hlabel
        exact List.mem_cons_self
      · exact List.mem_cons_of_mem _ (hb a₀ ha₀ e' he' hlabel)
    | start l t' p hx =>
      cases htag
      obtain rfl | he' := List.mem_cons.mp he'
      · cases hlabel
      · have hold := (hS.run hpre).events e' he' t (by rw [hlabel]; rfl)
        have hnum := (hS.start _ _ _ _ _ hx).1
        simp only at hold
        omega
    | finish l₁ l₂ t' r' =>
      cases htag
      simp at ha
    | env l hx => cases htag
    | die l₁ l₂ t' p hx =>
      cases htag
      simp at ha
  · rw [known_other htag] at ha
    obtain rfl | he' := List.mem_cons.mp he'
    · rw [hlabel] at htag
      exact absurd rfl htag
    · exact hb a ha e' he' hlabel

/-- What every move keeps, every run keeps. -/
theorem Numbered.known_invariant (hS : Numbered S num count)
    {I : List (Event Ans ε α τ σ) → σ → Prop} (h : PoolRun S ⟨s₀, []⟩ tr c)
    (hstart : ∀ tags s t p s', S.start tags s t p s' → p.Told (P t) (Q t) []) (h0 : I [] s₀)
    (hmove : ∀ tr s e s', I tr s → Move S P Q tr s e s' → I (e :: tr) s') : I tr c.state :=
  Run.invariant (I := fun tr c => I tr c.state) h h0 fun _ _ _ _ hpre hb hs =>
    hmove _ _ _ _ hb (hS.move hpre hs hstart)

end

end Async

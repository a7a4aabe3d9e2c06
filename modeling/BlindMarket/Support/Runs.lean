import Mathlib

/-!
# Runs of a labelled transition system

A run records its labels newest first, so the trace of a longer run is the
trace of the shorter one with a label put in front. The rules below are the
only inductions over runs that the rest of the development uses.
-/
namespace Runs

variable {σ ε : Type}

inductive Run (step : σ → ε → σ → Prop) (a : σ) : List ε → σ → Prop where
  | nil : Run step a [] a
  | snoc {trace : List ε} {b c : σ} {e : ε} :
      Run step a trace b → step b e c → Run step a (e :: trace) c

variable {step : σ → ε → σ → Prop} {a b c : σ} {trace later earlier : List ε} {e : ε}

theorem Run.single (h : step a e b) : Run step a [e] b := .snoc .nil h

theorem Run.append (h : Run step a earlier b) (h' : Run step b later c) :
    Run step a (later ++ earlier) c := by
  induction h' with
  | nil => exact h
  | snoc _ hs ih => exact .snoc ih hs

/-- A trace cut anywhere cuts the run. -/
theorem Run.cut (h : Run step a (later ++ earlier) c) :
    ∃ b, Run step a earlier b ∧ Run step b later c := by
  induction later generalizing c with
  | nil => exact ⟨c, h, .nil⟩
  | cons e later ih =>
    cases h with
    | snoc h hs =>
      obtain ⟨b, h₁, h₂⟩ := ih h
      exact ⟨b, h₁, .snoc h₂ hs⟩

/-- Every label of a run was a step between a run before it and a run after it. -/
theorem Run.split (h : Run step a (later ++ e :: earlier) c) :
    ∃ b b', Run step a earlier b ∧ step b e b' ∧ Run step b' later c := by
  obtain ⟨b', h₁, h₂⟩ := h.cut
  cases h₁ with
  | snoc h₁ hs => exact ⟨_, b', h₁, hs, h₂⟩

theorem Run.split_mem (h : Run step a trace c) (he : e ∈ trace) :
    ∃ later earlier b b', trace = later ++ e :: earlier ∧
      Run step a earlier b ∧ step b e b' ∧ Run step b' later c := by
  obtain ⟨later, earlier, rfl⟩ := List.append_of_mem he
  obtain ⟨b, b', h₁, hs, h₂⟩ := h.split
  exact ⟨later, earlier, b, b', rfl, h₁, hs, h₂⟩

/-- The invariant rule: what holds at the start and is kept by every step from
a reachable state holds after every run. It may speak about the trace. -/
theorem Run.invariant {I : List ε → σ → Prop} (h : Run step a trace c) (h0 : I [] a)
    (hs : ∀ trace b e c, Run step a trace b → I trace b → step b e c → I (e :: trace) c) :
    I trace c := by
  induction h with
  | nil => exact h0
  | snoc h hstep ih => exact hs _ _ _ _ h ih hstep

/-- A relation that every step satisfies, and that composes, relates the ends of a run. -/
theorem Run.relates {R : σ → σ → Prop} (h : Run step a trace c) (hrefl : R a a)
    (hs : ∀ b e c, R a b → step b e c → R a c) : R a c := by
  induction h with
  | nil => exact hrefl
  | snoc _ hstep ih => exact hs _ _ _ ih hstep

/-- Steps may be weakened along a run. -/
theorem Run.mono {step' : σ → ε → σ → Prop} (h : Run step a trace c)
    (hs : ∀ b e c, step b e c → step' b e c) : Run step' a trace c := by
  induction h with
  | nil => exact .nil
  | snoc _ hstep ih => exact .snoc ih (hs _ _ _ hstep)

/-- Every label of a trace satisfies `P`, given the labels before it. -/
def Throughout (P : List ε → ε → Prop) (trace : List ε) : Prop :=
  ∀ later e earlier, trace = later ++ e :: earlier → P earlier e

variable {P : List ε → ε → Prop}

theorem Throughout.tail (h : Throughout P (e :: trace)) : Throughout P trace :=
  fun later e' earlier heq => h (e :: later) e' earlier (by rw [heq]; rfl)

theorem Throughout.head (h : Throughout P (e :: trace)) : P trace e := h [] e trace rfl

/-- A test of every label, given those before it. -/
def everywhere (f : List ε → ε → Bool) : List ε → Bool
  | [] => true
  | e :: trace => f trace e && everywhere f trace

theorem throughout_of_everywhere {f : List ε → ε → Bool}
    (hf : ∀ earlier e, f earlier e = true → P earlier e) (h : everywhere f trace = true) :
    Throughout P trace := by
  induction trace with
  | nil =>
    intro later e earlier heq
    cases later <;> cases heq
  | cons e' trace ih =>
    simp only [everywhere, Bool.and_eq_true] at h
    intro later e earlier heq
    cases later with
    | nil =>
      cases heq
      exact hf _ _ h.1
    | cons e'' later =>
      cases heq
      exact ih h.2 later e earlier rfl

end Runs

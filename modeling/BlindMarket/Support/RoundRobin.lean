import Mathlib

/-!
# Sharing in rounds

Claimants with a limit each take one piece a round, one after the other, until
nothing is left or all have reached their limits. Whoever stays below the limit
is then at most one piece behind anyone else, and cannot have more unless
someone who has no more than that gets less.
-/
namespace RoundRobin

variable {ι : Type} {limit got : ι → Nat} {ks pre post : List ι} {i j : ι} {r : Nat}

/-- After `r` rounds, and in the next the turns of `pre` but not of `post`. -/
structure Level (limit got : ι → Nat) (r : Nat) (pre post : List ι) : Prop where
  served : ∀ i ∈ pre, got i = min (r + 1) (limit i)
  waiting : ∀ i ∈ post, got i = min r (limit i)

theorem Level.start (ks : List ι) : Level limit (fun _ => 0) 0 [] ks where
  served := by simp
  waiting := by simp

/-- One more piece for `i`, within its limit. -/
def turn [DecidableEq ι] (limit got : ι → Nat) (i : ι) : ι → Nat :=
  if got i < limit i then Function.update got i (got i + 1) else got

theorem turn_other [DecidableEq ι] (limit got : ι → Nat) (h : j ≠ i) :
    turn limit got i j = got j := by
  unfold turn
  split
  · exact Function.update_of_ne h _ _
  · rfl

theorem Level.turn [DecidableEq ι] (h : Level limit got r pre (i :: post))
    (hnodup : (pre ++ i :: post).Nodup) :
    Level limit (turn limit got i) r (pre ++ [i]) post := by
  have hnew := List.nodup_cons.1 (List.nodup_middle.1 hnodup)
  have hne : ∀ j ∈ pre ++ post, j ≠ i := by
    rintro j hj rfl
    exact hnew.1 hj
  have hi := h.waiting i List.mem_cons_self
  constructor
  · intro j hj
    rcases List.mem_append.1 hj with hj | hj
    · rw [turn_other limit got (hne j (List.mem_append_left _ hj))]
      exact h.served j hj
    · obtain rfl := List.mem_singleton.1 hj
      unfold RoundRobin.turn
      split
      · rw [Function.update_self]
        omega
      · omega
  · intro j hj
    rw [turn_other limit got (hne j (List.mem_append_right _ hj))]
    exact h.waiting j (List.mem_cons_of_mem _ hj)

theorem Level.round (h : Level limit got r ks []) : Level limit got (r + 1) [] ks where
  served := by simp
  waiting := h.served

/-- Shares as rounds give them. -/
def Leveled (limit got : ι → Nat) (ks : List ι) : Prop :=
  ∃ r pre post, ks = pre ++ post ∧ Level limit got r pre post

namespace Leveled

theorem le_limit (h : Leveled limit got ks) (hi : i ∈ ks) : got i ≤ limit i := by
  obtain ⟨r, pre, post, rfl, hlevel⟩ := h
  rcases List.mem_append.1 hi with hi | hi
  · exact (hlevel.served i hi).trans_le (min_le_right _ _)
  · exact (hlevel.waiting i hi).trans_le (min_le_right _ _)

/-- Whoever could have more is at most one piece behind. -/
theorem near (h : Leveled limit got ks) (hi : i ∈ ks) (hj : j ∈ ks) (hlt : got i < limit i) :
    got j ≤ got i + 1 := by
  obtain ⟨r, pre, post, rfl, hlevel⟩ := h
  have hlow : r ≤ got i := by
    rcases List.mem_append.1 hi with hi | hi
    · have := hlevel.served i hi
      omega
    · have := hlevel.waiting i hi
      omega
  have hhigh : got j ≤ r + 1 := by
    rcases List.mem_append.1 hj with hj | hj
    · exact (hlevel.served j hj).trans_le (min_le_left _ _)
    · exact ((hlevel.waiting j hj).trans_le (min_le_left _ _)).trans (Nat.le_succ r)
  omega

/-- To give one claimant more of the same total, another that has no more than that must get
less. -/
theorem fair {f : ι → Nat} (h : Leveled limit got ks) (hf : ∀ i ∈ ks, f i ≤ limit i)
    (hsum : (ks.map f).sum ≤ (ks.map got).sum) (hi : i ∈ ks) (hlt : got i < f i) :
    ∃ j ∈ ks, f j < got j ∧ f j ≤ got i := by
  have hless : ∃ j ∈ ks, f j < got j := by
    by_contra hnone
    push Not at hnone
    exact absurd hsum (not_le.2 (List.sum_lt_sum got f hnone ⟨i, hi, hlt⟩))
  obtain ⟨j, hj, hjlt⟩ := hless
  have hnear := h.near hi hj (hlt.trans_le (hf i hi))
  exact ⟨j, hj, hjlt, by omega⟩

end Leveled

end RoundRobin

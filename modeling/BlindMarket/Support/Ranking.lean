import Mathlib

/-!
# Places in a line

A line is a list of keys of a linear order, and a key's place is one more than
the number of keys below it. No two keys of a line without repetitions share a
place, and sorting the line reads the places off.
-/
namespace Ranking

variable {κ α : Type} [LinearOrder κ] {ks ks' : List κ} {k k' j : κ}

def position (ks : List κ) (k : κ) : Nat := ks.countP (fun j => decide (j < k)) + 1

theorem position_perm (h : ks.Perm ks') (k : κ) : position ks k = position ks' k := by
  rw [position, position, h.countP_eq]

theorem position_le_length (h : k ∈ ks) : position ks k ≤ ks.length := by
  have hlt : ks.countP (fun j => decide (j < k)) < ks.length := by
    refine lt_of_le_of_ne List.countP_le_length fun heq => ?_
    have hall := List.countP_eq_length.1 heq k h
    simp at hall
  exact hlt

theorem position_mono (ks : List κ) (h : j ≤ k) : position ks j ≤ position ks k := by
  refine Nat.succ_le_succ (List.countP_mono_left fun i _ hi => ?_)
  simp only [decide_eq_true_eq] at hi ⊢
  exact lt_of_lt_of_le hi h

theorem position_lt (hj : j ∈ ks) (h : j < k) : position ks j < position ks k := by
  induction ks with
  | nil => cases hj
  | cons i ks ih =>
    have hmono : position ks j ≤ position ks k := position_mono ks h.le
    simp only [position, List.countP_cons, decide_eq_true_eq] at ih hmono ⊢
    rcases List.mem_cons.1 hj with rfl | hj
    · simp only [lt_irrefl, if_false, h, if_true]
      omega
    · have hlt := ih hj
      by_cases hi : i < j
      · simp only [hi, hi.trans h, if_true]
        omega
      · simp only [hi, if_false]
        split <;> omega

/-- The order of the places is the order of the keys. -/
theorem position_lt_iff (hj : j ∈ ks) : position ks j < position ks k ↔ j < k := by
  refine ⟨fun h => ?_, position_lt hj⟩
  by_contra hkj
  have hmono := position_mono ks (not_lt.1 hkj)
  omega

/-! ### Sorting -/

variable {l : List α} {key : α → κ}

/-- In a sorted line the places count up from one. -/
theorem position_sorted (h : ks.Pairwise (· < ·)) (i : Nat) (hi : i < ks.length) :
    position ks ks[i] = i + 1 := by
  induction ks generalizing i with
  | nil => simp at hi
  | cons k ks ih =>
    obtain ⟨hk, hks⟩ := List.pairwise_cons.1 h
    cases i with
    | zero =>
      have hnone : ks.countP (fun j => decide (j < k)) = 0 := by
        rw [List.countP_eq_zero]
        intro j hj
        simpa using (hk j hj).le
      simp [position, hnone]
    | succ i =>
      have hi' : i < ks.length := by simpa using hi
      have hlt : k < ks[i] := hk _ (List.getElem_mem hi')
      have hrest := ih hks i hi'
      simp only [position, List.getElem_cons_succ, List.countP_cons, hlt, decide_true,
        if_true] at hrest ⊢
      omega

def inOrder (key : α → κ) (l : List α) : List α := l.mergeSort fun a b => decide (key a ≤ key b)

theorem inOrder_perm (key : α → κ) (l : List α) : (inOrder key l).Perm l := List.mergeSort_perm _ _

theorem inOrder_sorted (h : (l.map key).Nodup) : ((inOrder key l).map key).Pairwise (· < ·) := by
  have hle : (inOrder key l).Pairwise fun a b => key a ≤ key b := by
    have hdecided : (inOrder key l).Pairwise fun a b => decide (key a ≤ key b) = true := by
      refine List.pairwise_mergeSort ?_ ?_ l
      · intro a b c hab hbc
        simp only [decide_eq_true_eq] at hab hbc ⊢
        exact hab.trans hbc
      · intro a b
        simpa using le_total (key a) (key b)
    exact hdecided.imp of_decide_eq_true
  have hnodup : ((inOrder key l).map key).Nodup := ((inOrder_perm key l).map key).nodup_iff.2 h
  exact (List.pairwise_map.2 hle).imp₂ (fun _ _ hle hne => lt_of_le_of_ne hle hne) hnodup

/-- Whoever stands at index `i` of the sorted line has place `i + 1`. -/
theorem position_inOrder (h : (l.map key).Nodup) (i : Nat) (hi : i < (inOrder key l).length) :
    position (l.map key) (key (inOrder key l)[i]) = i + 1 := by
  have hi' : i < ((inOrder key l).map key).length := by simpa using hi
  rw [position_perm ((inOrder_perm key l).map key).symm]
  simpa using position_sorted (inOrder_sorted h) i hi'

/-- Every place of a line is held, and held once. -/
theorem positions_perm (h : ks.Nodup) :
    (ks.map (position ks)).Perm (List.range' 1 ks.length) := by
  have hid : (ks.map id).Nodup := by simpa using h
  have hperm : (inOrder id ks).Perm ks := inOrder_perm id ks
  have hsorted : (inOrder id ks).map (position ks) = List.range' 1 ks.length := by
    apply List.ext_getElem
    · simp [hperm.length_eq]
    · intro i h₁ h₂
      have hi : i < (inOrder id ks).length := by simpa using h₁
      have hplace := position_inOrder hid i hi
      simp only [List.map_id, id_eq] at hplace
      simp [hplace, Nat.add_comm]
  rw [← hsorted]
  exact (hperm.map _).symm

/-! ### Moving up -/

variable {before after : List κ}

/-- The keys that one key leaves behind on its way up from `k` to `k'`. -/
def overtaken (k' k : κ) (ks : List κ) : List κ := ks.filter fun j => decide (k' < j ∧ j < k)

/-- The place of another key changes by one if it is overtaken, and not otherwise. -/
theorem position_other (before after : List κ) (hle : k' ≤ k) (hk : j ≠ k) (hk' : j ≠ k') :
    position (before ++ k' :: after) j =
      position (before ++ k :: after) j + if k' < j ∧ j < k then 1 else 0 := by
  simp only [position, List.countP_append, List.countP_cons, decide_eq_true_eq]
  rcases lt_or_gt_of_ne hk with hjk | hkj
  · have hnot : ¬ k < j := not_lt.2 hjk.le
    rcases lt_or_gt_of_ne hk' with hjk' | hkj'
    · have hnot' : ¬ k' < j := not_lt.2 hjk'.le
      simp [hnot, hnot']
    · simp only [hnot, hkj', hjk, if_true, if_false, and_self]
      omega
  · have hkj' : k' < j := lt_of_le_of_lt hle hkj
    simp [hkj, hkj', not_lt.2 hkj.le]

theorem countP_lt_add (h : ∀ j ∈ ks, j ≠ k') (hle : k' ≤ k) :
    ks.countP (fun j => decide (j < k)) =
      ks.countP (fun j => decide (j < k')) + (overtaken k' k ks).length := by
  induction ks with
  | nil => rfl
  | cons j ks ih =>
    have hrest := ih fun i hi => h i (List.mem_cons_of_mem _ hi)
    have hne : j ≠ k' := h j List.mem_cons_self
    simp only [overtaken, List.filter_cons, List.countP_cons, decide_eq_true_eq] at hrest ⊢
    rcases lt_or_gt_of_ne hne with hlt | hgt
    · have hjk : j < k := lt_of_lt_of_le hlt hle
      simp only [hlt, hjk, not_lt.2 hlt.le, if_true, false_and, if_false]
      omega
    · by_cases hjk : j < k
      · simp only [hjk, hgt, not_lt.2 hgt.le, and_self, if_true, if_false, List.length_cons]
        omega
      · simp only [hjk, not_lt.2 hgt.le, and_false, if_false]
        omega

/-- The key that moves gains as many places as it overtakes keys. -/
theorem position_riser (h : (before ++ k' :: after).Nodup) (hle : k' ≤ k) :
    position (before ++ k :: after) k = position (before ++ k' :: after) k' +
      (overtaken k' k (before ++ after)).length := by
  have hne : ∀ j ∈ before ++ after, j ≠ k' := by
    intro j hj heq
    subst heq
    exact (List.nodup_middle.1 h |> List.nodup_cons.1).1 hj
  have hcount := countP_lt_add hne hle
  simp only [List.countP_append] at hcount
  simp only [position, List.countP_append, List.countP_cons, lt_irrefl, decide_false,
    Bool.false_eq_true, if_false]
  omega

end Ranking

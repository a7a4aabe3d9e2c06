import BlindMarket.AgentRunner.Moves

/-!
# The crashes of an agent

What is remembered of an agent's crashes is a function of what has happened to
it. It keeps the last twenty tasks; until more than that have crashed it is
exact.
-/
namespace AgentRunner

/-- What happens to an agent's crash memory. -/
inductive Note
  | stopped
  | crashed (inFlightTask : Option Task) (uptimeMs : Nat)
  | completed (task : Task)
  deriving DecidableEq, Repr

def Note.write : Note → Option CrashMemory → Option CrashMemory
  | .stopped, _ => none
  | .crashed inFlightTask uptimeMs, memory => some (recordCrash memory inFlightTask uptimeMs)
  | .completed task, memory => recordTaskCompleted memory task

/-- The memory after these notes, newest first. -/
def remember (notes : List Note) : Option CrashMemory := notes.foldr Note.write none

/-! ## What the notes say -/

/-- The crashes with a task in flight since it was last completed or the agent last stopped. -/
def crashesSince (task : Task) : List Note → Nat
  | [] | .stopped :: _ => 0
  | .crashed inFlightTask _ :: notes =>
    crashesSince task notes + if inFlightTask = some task then 1 else 0
  | .completed done :: notes => if task = done then 0 else crashesSince task notes

/-- The crashes in a row, with no healthy stretch before one and no task completed between. -/
def streak : List Note → Nat
  | [] | .stopped :: _ | .completed _ :: _ => 0
  | .crashed _ uptimeMs :: notes => (if healthyUptimeMs ≤ uptimeMs then 0 else streak notes) + 1

/-- The tasks in flight at the crashes since the agent was last stopped. -/
def blamed : List Note → Finset Task
  | [] | .stopped :: _ => ∅
  | .crashed inFlightTask _ :: notes => blamed notes ∪ inFlightTask.toFinset
  | .completed _ :: notes => blamed notes

/-! ## The counts -/

section Counts

variable {byTask rest : List (Task × Nat)} {task other : Task} {n : Nat}

theorem crashesOf_withoutTask (byTask : List (Task × Nat)) (task other : Task) :
    crashesOf (withoutTask byTask task) other = if other = task then 0 else crashesOf byTask other := by
  rw [crashesOf, withoutTask, lookup_filter_ne]
  split <;> rfl

theorem crashesOf_append_single (byTask : List (Task × Nat)) (task other : Task) (n : Nat)
    (h : task ∉ byTask.map Prod.fst) :
    crashesOf (byTask ++ [(task, n)]) other = if other = task then n else crashesOf byTask other := by
  induction byTask with
  | nil =>
    by_cases ho : other = task
    · simp [crashesOf, ho]
    · simp [crashesOf, List.lookup_cons, beq_eq_false_iff_ne.2 ho, ho]
  | cons entry rest ih =>
    obtain ⟨key, m⟩ := entry
    simp only [List.map_cons, List.mem_cons, not_or] at h
    have hrest := ih h.2
    rw [crashesOf] at hrest ⊢
    rw [List.cons_append, List.lookup_cons]
    rw [crashesOf, List.lookup_cons]
    by_cases hk : other = key
    · subst hk
      simp [Ne.symm h.1]
    · rw [beq_eq_false_iff_ne.2 hk]
      exact hrest

/-- Dropping entries takes counts away and changes none. -/
theorem crashesOf_sublist (h : (byTask.map Prod.fst).Nodup) (hsub : rest.Sublist byTask)
    (task : Task) : crashesOf rest task ≤ crashesOf byTask task := by
  cases hl : rest.lookup task with
  | none => simp [crashesOf, hl]
  | some n =>
    have hmem := hsub.subset (mem_of_lookup hl)
    simp [crashesOf, hl, lookup_of_mem h hmem]

theorem keys_withoutTask (byTask : List (Task × Nat)) (task : Task) :
    (withoutTask byTask task).map Prod.fst = (byTask.map Prod.fst).filter fun key => key ≠ task := by
  rw [withoutTask, List.filter_map]
  rfl

end Counts

/-- The counts of a memory, none if there is none. -/
def countsOf (memory : Option CrashMemory) : List (Task × Nat) := (memory.map CrashMemory.byTask).getD []

/-- The counts are of different tasks, of these, and no more than were made. -/
structure Tallied (byTask : List (Task × Nat)) (notes : List Note) : Prop where
  keys : (byTask.map Prod.fst).Nodup
  blamed : ∀ task ∈ byTask.map Prod.fst, task ∈ blamed notes
  most : ∀ task, crashesOf byTask task ≤ crashesSince task notes
  exact : (AgentRunner.blamed notes).card ≤ maxTrackedCrashTasks →
    ∀ task, crashesOf byTask task = crashesSince task notes

namespace Tallied

variable {byTask : List (Task × Nat)} {notes : List Note}

theorem empty (h : ∀ task, crashesSince task notes = 0) : Tallied [] notes where
  keys := List.nodup_nil
  blamed := by simp
  most := by simp [crashesOf]
  exact := fun _ task => (h task).symm

/-- The entries are as many as the tasks at most. -/
theorem length_le (h : Tallied byTask notes) : byTask.length ≤ (AgentRunner.blamed notes).card := by
  have hsub : (byTask.map Prod.fst).toFinset ⊆ AgentRunner.blamed notes := by
    intro task ht
    exact h.blamed task (List.mem_toFinset.1 ht)
  have hcard := Finset.card_le_card hsub
  rwa [List.toFinset_card_of_nodup h.keys, List.length_map] at hcard

theorem uncharged (h : Tallied byTask notes) (uptimeMs : Nat) :
    Tallied byTask (.crashed none uptimeMs :: notes) where
  keys := h.keys
  blamed := by simpa [AgentRunner.blamed] using h.blamed
  most := by simpa [crashesSince] using h.most
  exact := by simpa [AgentRunner.blamed, crashesSince] using h.exact

theorem charged (h : Tallied byTask notes) (task : Task) (uptimeMs : Nat) :
    Tallied (withoutTask byTask task ++ [(task, crashesOf byTask task + 1)])
      (.crashed (some task) uptimeMs :: notes) := by
  have hnot : task ∉ (withoutTask byTask task).map Prod.fst := by
    rw [keys_withoutTask]
    simp
  have hcount : ∀ other, crashesOf (withoutTask byTask task ++ [(task, crashesOf byTask task + 1)])
      other = crashesOf byTask other + if some task = some other then 1 else 0 := by
    intro other
    rw [crashesOf_append_single _ _ _ _ hnot, crashesOf_withoutTask]
    by_cases ho : other = task
    · simp [ho]
    · simp [ho, Ne.symm ho]
  constructor
  · rw [List.map_append, List.map_cons, List.map_nil, List.nodup_append]
    refine ⟨?_, List.nodup_singleton _, ?_⟩
    · rw [keys_withoutTask]
      exact h.keys.filter _
    · intro other hother last hlast
      rw [List.mem_singleton.1 hlast]
      exact ne_of_mem_of_not_mem hother hnot
  · intro other hother
    rw [List.map_append, List.mem_append, keys_withoutTask] at hother
    rw [AgentRunner.blamed, Finset.mem_union]
    rcases hother with hother | hother
    · exact .inl (h.blamed other (List.mem_of_mem_filter hother))
    · exact .inr (by simpa using hother)
  · intro other
    rw [hcount, crashesSince]
    exact Nat.add_le_add_right (h.most other) _
  · intro hcard other
    have hfew : (AgentRunner.blamed notes).card ≤ maxTrackedCrashTasks :=
      (Finset.card_le_card Finset.subset_union_left).trans hcard
    rw [hcount, crashesSince, h.exact hfew other]

theorem trimmed (h : Tallied byTask notes) :
    Tallied (byTask.drop (byTask.length - maxTrackedCrashTasks)) notes where
  keys := h.keys.sublist ((List.drop_sublist _ _).map _)
  blamed := fun task ht => h.blamed task (((List.drop_sublist _ _).map _).subset ht)
  most := fun task => (crashesOf_sublist h.keys (List.drop_sublist _ _) task).trans (h.most task)
  exact := by
    intro hcard task
    have hlen := h.length_le
    rw [Nat.sub_eq_zero_of_le (hlen.trans hcard), List.drop_zero]
    exact h.exact hcard task

theorem completed (h : Tallied byTask notes) (task : Task) :
    Tallied (withoutTask byTask task) (.completed task :: notes) where
  keys := by
    rw [keys_withoutTask]
    exact h.keys.filter _
  blamed := by
    intro other hother
    rw [keys_withoutTask] at hother
    exact h.blamed other (List.mem_of_mem_filter hother)
  most := by
    intro other
    rw [crashesOf_withoutTask, crashesSince]
    split
    · exact le_rfl
    · exact h.most other
  exact := by
    intro hcard other
    rw [crashesOf_withoutTask, crashesSince, h.exact hcard other]

end Tallied

theorem tallied_remember (notes : List Note) : Tallied (countsOf (remember notes)) notes := by
  induction notes with
  | nil => exact .empty fun _ => rfl
  | cons note notes ih =>
    rw [remember, List.foldr_cons]
    cases note with
    | stopped => exact .empty fun _ => rfl
    | crashed inFlightTask uptimeMs =>
      cases inFlightTask with
      | none => exact (ih.uncharged uptimeMs).trimmed
      | some task => exact (ih.charged task uptimeMs).trimmed
    | completed task =>
      have hcounts : countsOf (Note.write (.completed task) (remember notes)) =
          withoutTask (countsOf (remember notes)) task := by
        cases remember notes <;> rfl
      rw [remember] at hcounts
      rw [hcounts]
      exact ih.completed task

theorem streak_remember (notes : List Note) :
    ((remember notes).map CrashMemory.consecutive).getD 0 = streak notes := by
  induction notes with
  | nil => rfl
  | cons note notes ih =>
    rw [remember, List.foldr_cons]
    cases note with
    | stopped => rfl
    | crashed inFlightTask uptimeMs =>
      rw [streak, ← ih]
      rfl
    | completed task =>
      simp only [Note.write, recordTaskCompleted, streak]
      cases List.foldr Note.write none notes <;> rfl

/-! ## What a worker is told -/

theorem skipReason_isSome (memory : Option CrashMemory) (task : Task) :
    (CrashMemory.skipReason memory task).isSome = true ↔
      taskCrashLimit ≤ crashesOf (countsOf memory) task ∨
        crashRestartLimit ≤ (memory.map CrashMemory.consecutive).getD 0 ∧
          ∀ entry ∈ countsOf memory, entry.2 < taskCrashLimit := by
  simp only [CrashMemory.skipReason, resumeSkipReason, countsOf]
  split
  · next h => simp [h]
  · next h =>
    simp only [h, false_or]
    split
    · next h' => simpa [List.any_eq_true] using h'
    · next h' =>
      simp only [Option.isSome_none, Bool.false_eq_true, false_iff]
      intro hall
      exact h' (by simpa [List.any_eq_true] using hall)

theorem withheld_iff (notes : List Note) (task : Task)
    (h : (blamed notes).card ≤ maxTrackedCrashTasks) :
    (CrashMemory.skipReason (remember notes) task).isSome = true ↔
      taskCrashLimit ≤ crashesSince task notes ∨
        crashRestartLimit ≤ streak notes ∧ ∀ other, crashesSince other notes < taskCrashLimit := by
  have htally := tallied_remember notes
  rw [skipReason_isSome, htally.exact h task, streak_remember]
  refine or_congr_right (and_congr_right fun _ => ⟨?_, ?_⟩)
  · intro hall other
    rw [← htally.exact h other]
    cases hl : (countsOf (remember notes)).lookup other with
    | none => simp [crashesOf, hl, taskCrashLimit]
    | some n => simpa [crashesOf, hl] using hall _ (mem_of_lookup hl)
  · intro hall entry hentry
    have hcount := hall entry.1
    rw [← htally.exact h entry.1, crashesOf, lookup_of_mem htally.keys hentry] at hcount
    exact hcount

end AgentRunner

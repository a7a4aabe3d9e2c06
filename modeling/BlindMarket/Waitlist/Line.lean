import BlindMarket.Waitlist.Signups
import BlindMarket.Support.Ranking

/-!
# The line

A row's place is that of its pair of `eff` and id among those of all rows, so
the places are one to the total, each held once, the leaderboard reads off the
first of them, and a row that scores passes others without disturbing them.
-/
namespace Waitlist

open Async Prog Runs Ranking

variable {H : Type} {db db' : Table H} {s t : Signup H}

namespace Table

def key (db : Table H) (s : Signup H) : ℤ ×ₗ ℕ := toLex (db.eff s, s.id)

theorem ahead_eq (db : Table H) (s t : Signup H) :
    db.ahead s t = decide (db.key s < db.key t) := by
  rw [Bool.eq_iff_iff]
  simp [ahead, key, Prod.Lex.toLex_lt_toLex]

theorem position_eq (db : Table H) (s : Signup H) :
    db.position s = Ranking.position (db.map db.key) (db.key s) := by
  simp only [position, Ranking.position, List.countP_map, ahead_eq]
  rfl

theorem front_eq (db : Table H) : db.front = (inOrder db.key db).take leaderboardSize := by
  have hle : (fun s t => db.eff s < db.eff t || (db.eff s = db.eff t && s.id ≤ t.id)) =
      fun s t => decide (db.key s ≤ db.key t) := by
    funext s t
    rw [Bool.eq_iff_iff]
    simp [key, Prod.Lex.toLex_le_toLex]
  rw [front, hle, inOrder]

theorem rowNumber_eq (db : Table H) (s : Signup H) :
    db.rowNumber s = Ranking.position (db.map (·.id)) s.id := by
  simp only [rowNumber, Ranking.position, List.countP_map]
  rfl

theorem key_nodup (h : (db.map (·.id)).Nodup) : (db.map db.key).Nodup := by
  have hids : ((db.map db.key).map fun k => (ofLex k).2).Nodup := by
    simpa [Function.comp_def, key] using h
  exact hids.of_map _

end Table

/-! ## Places -/

theorem Sound.positions (h : Sound db) : (db.map db.position).Perm (List.range' 1 db.length) := by
  have hperm := positions_perm (Table.key_nodup h.ids)
  simpa [Function.comp_def, ← Table.position_eq] using hperm

theorem Sound.leaderboard (h : Sound db) (i : Nat) (hi : i < db.leaderboard.length) :
    ∃ s ∈ db, db.position s = i + 1 ∧
      db.leaderboard[i] = ⟨i + 1, s.xHandle, s.score, s.referralCount⟩ := by
  have hfront : i < db.front.length := by simpa [Table.leaderboard] using hi
  have hsorted : i < (inOrder db.key db).length := by
    rw [Table.front_eq, List.length_take] at hfront
    omega
  have hget : db.front[i] = (inOrder db.key db)[i] := by simp [Table.front_eq]
  refine ⟨db.front[i], ?_, ?_, by simp [Table.leaderboard]⟩
  · rw [hget]
    exact (inOrder_perm _ _).mem_iff.1 (List.getElem_mem hsorted)
  · rw [Table.position_eq, hget]
    exact position_inOrder (Table.key_nodup h.ids) i hsorted

theorem leaderboard_length (db : Table H) :
    db.leaderboard.length = min leaderboardSize db.length := by
  simp [Table.leaderboard, Table.front_eq, (inOrder_perm db.key db).length_eq]

/-! ## One who scores -/

theorem rowNumber_congr (h : db'.map (·.id) = db.map (·.id)) (s : Signup H) :
    db'.rowNumber s = db.rowNumber s := by
  rw [Table.rowNumber_eq, Table.rowNumber_eq, h]

theorem key_congr (h : db'.map (·.id) = db.map (·.id)) (s : Signup H) : db'.key s = db.key s := by
  rw [Table.key, Table.key, Table.eff, Table.eff, rowNumber_congr h]

theorem key_rise (hid : t.id = s.id) (hscore : s.score ≤ t.score) : db.key t ≤ db.key s := by
  have hrow : db.rowNumber t = db.rowNumber s := by rw [Table.rowNumber_eq, Table.rowNumber_eq, hid]
  rw [Table.key, Table.key, Prod.Lex.toLex_le_toLex, Table.eff, Table.eff, hrow, hid]
  have hmul : s.score * positionBoostPerPoint ≤ t.score * positionBoostPerPoint :=
    Nat.mul_le_mul_right _ hscore
  simp only [le_refl, and_true]
  omega

/-- What becomes of the line as the row `s` turns into `t`, which scores more. -/
structure Rises (db db' : Table H) (s t : Signup H) : Prop where
  up : db'.position t ≤ db.position s
  /-- It gains a place for every row it passes. -/
  gain : db.position s = db'.position t + db.countP fun u => db.ahead u s && db'.ahead t u
  /-- A row it passes loses a place, and no other does. -/
  others : ∀ u ∈ db, u.id ≠ s.id → u ∈ db' ∧
    db'.position u = db.position u + if db.ahead u s && db'.ahead t u then 1 else 0
  order : ∀ u ∈ db, u.id ≠ s.id → ∀ v ∈ db, v.id ≠ s.id →
    (db'.position u < db'.position v ↔ db.position u < db.position v)

theorem rises {before after : Table H} (h : ((before ++ s :: after).map (·.id)).Nodup)
    (hid : t.id = s.id) (hscore : s.score ≤ t.score) :
    Rises (before ++ s :: after) (before ++ t :: after) s t := by
  generalize hdb : before ++ s :: after = db at h ⊢
  generalize hdb' : before ++ t :: after = db'
  have hids : db'.map (·.id) = db.map (·.id) := by simp [← hdb, ← hdb', hid]
  have hkey : db'.key = db.key := funext (key_congr hids)
  have hkeys : ∀ key : Signup H → ℤ ×ₗ ℕ, db.map key = before.map key ++ key s :: after.map key := by
    intro key
    rw [← hdb, List.map_append, List.map_cons]
  have hkeys' : ∀ key : Signup H → ℤ ×ₗ ℕ,
      db'.map key = before.map key ++ key t :: after.map key := by
    intro key
    rw [← hdb', List.map_append, List.map_cons]
  have hcount : ∀ p : Signup H → Bool, p s = false → db.countP p = (before ++ after).countP p := by
    intro p hp
    rw [← hdb]
    simp [hp]
  have hle : db.key t ≤ db.key s := key_rise hid hscore
  have hnodup : (before.map db.key ++ db.key t :: after.map db.key).Nodup := by
    rw [← hkeys', ← hkey]
    exact Table.key_nodup (by rw [hids]; exact h)
  have hne : ∀ {u v : Signup H}, u.id ≠ v.id → db.key u ≠ db.key v := by
    intro u v huv heq
    exact huv (congrArg (fun k => (ofLex k).2) heq)
  have hpassed : ∀ u, (db.ahead u s && db'.ahead t u) =
      decide (db.key t < db.key u ∧ db.key u < db.key s) := by
    intro u
    rw [Table.ahead_eq, Table.ahead_eq, hkey, Bool.eq_iff_iff]
    simp [and_comm]
  have hother : ∀ u ∈ db, u.id ≠ s.id → db'.position u = db.position u +
      if db.ahead u s && db'.ahead t u then 1 else 0 := by
    intro u hu hus
    rw [Table.position_eq, Table.position_eq, hkeys, hkeys', hkey, hpassed]
    simpa using position_other (before.map db.key) (after.map db.key) hle
      (hne hus) (hne (hid ▸ hus))
  have hgain : db.position s = db'.position t +
      db.countP fun u => db.ahead u s && db'.ahead t u := by
    rw [Table.position_eq, Table.position_eq, hkeys, hkeys', hkey, position_riser hnodup hle,
      hcount _ (by simp [hpassed])]
    simp only [overtaken, hpassed, ← List.countP_eq_length_filter, ← List.map_append,
      List.countP_map]
    rfl
  have hmem : ∀ u ∈ db, u.id ≠ s.id → u ∈ db' := by
    intro u hu hus
    rw [← hdb] at hu
    rw [← hdb']
    have hcase : u ∈ before ∨ u = s ∨ u ∈ after := by simpa using hu
    rcases hcase with hu | rfl | hu
    · simp [hu]
    · exact absurd rfl hus
    · simp [hu]
  refine ⟨by omega, hgain, fun u hu hus => ⟨hmem u hu hus, hother u hu hus⟩, ?_⟩
  intro u hu hus v hv hvs
  rw [Table.position_eq, Table.position_eq, Table.position_eq, Table.position_eq,
    position_lt_iff (List.mem_map_of_mem (hmem u hu hus)),
    position_lt_iff (List.mem_map_of_mem hu), hkey]

/-- One row changes, the others are what they were. -/
theorem addTask_split [DecidableEq H] {before after : Table H} {tokenHash : H} (task : WaitlistTask)
    (points : Nat) (h : ((before ++ s :: after).map (·.tokenHash)).Nodup)
    (htoken : s.tokenHash = tokenHash) :
    (Table.addTask (before ++ s :: after) tokenHash task points).2 =
      before ++ s.addTask task points :: after := by
  have hother : ∀ l : Table H, (∀ u ∈ l, u.tokenHash ≠ tokenHash) →
      (l.map fun u => if u.tokenHash = tokenHash then u.addTask task points else u) = l := by
    intro l hl
    conv_rhs => rw [← List.map_id l]
    refine List.map_congr_left fun u hu => ?_
    rw [if_neg (hl u hu), id]
  simp only [List.map_append, List.map_cons, List.nodup_append, List.nodup_cons, List.mem_map,
    List.mem_cons] at h
  simp only [Table.addTask, List.map_append, List.map_cons, htoken, if_true]
  rw [hother before, hother after]
  · intro u hu heq
    exact h.2.1.1 ⟨u, hu, heq.trans htoken.symm⟩
  · intro u hu heq
    exact h.2.2 _ ⟨u, hu, rfl⟩ _ (.inl rfl) (heq.trans htoken.symm)

/-! ## One who scores alone -/

/-- Nobody else has points, so the row passes all that joined in the places its points are worth
before it, but for the last of them, which keeps the tie. -/
theorem Sound.alone (h : Sound db) (hs : s ∈ db) (hscore : 0 < s.score)
    (halone : ∀ t ∈ db, t.id ≠ s.id → t.score = 0) :
    db.position s = (db.rowNumber s - s.score * positionBoostPerPoint) + 1 := by
  have hrows := positions_perm h.ids
  have hle : db.rowNumber s ≤ db.length := by
    rw [Table.rowNumber_eq]
    simpa using position_le_length (List.mem_map_of_mem (f := fun t => t.id) hs)
  have hahead : ∀ t ∈ db, db.ahead t s =
      decide (db.rowNumber t ≤ db.rowNumber s - s.score * positionBoostPerPoint) := by
    intro t ht
    have hpos : 0 < s.score * positionBoostPerPoint := Nat.mul_pos hscore (by decide)
    have hrow : 0 < db.rowNumber t := Nat.succ_pos _
    by_cases hid : t.id = s.id
    · have heq : db.rowNumber t = db.rowNumber s := by
        rw [Table.rowNumber_eq, Table.rowNumber_eq, hid]
      obtain rfl : t = s := List.inj_on_of_nodup_map h.ids ht hs hid
      simp only [Table.ahead, lt_irrefl, decide_false, Bool.and_false, Bool.or_false]
      symm
      rw [decide_eq_false_iff_not]
      omega
    · have hlt : t.id < s.id ↔ db.rowNumber t < db.rowNumber s := by
        rw [Table.rowNumber_eq, Table.rowNumber_eq,
          position_lt_iff (List.mem_map_of_mem (f := fun u => u.id) ht)]
      rw [Bool.eq_iff_iff]
      simp only [Table.ahead, Table.eff, halone t ht hid, Nat.zero_mul, Bool.or_eq_true,
        Bool.and_eq_true, decide_eq_true_eq, hlt]
      omega
  rw [Table.position, List.countP_congr fun t ht => by rw [hahead t ht]]
  have hcount : ∀ m, db.countP (fun t => decide (db.rowNumber t ≤ m)) =
      (List.range' 1 db.length).countP fun n => decide (n ≤ m) := by
    intro m
    have hperm := hrows.countP_eq fun n => decide (n ≤ m)
    simp only [List.map_map, List.countP_map, List.length_map] at hperm
    rw [← hperm]
    refine List.countP_congr fun t ht => ?_
    simp [Table.rowNumber_eq]
  have hrange : ∀ m len, (List.range' 1 len).countP (fun n => decide (n ≤ m)) = min m len := by
    intro m len
    induction len with
    | zero => simp
    | succ len ih =>
      rw [List.range'_concat, List.countP_append, ih, List.countP_singleton]
      by_cases hm : 1 + 1 * len ≤ m
      · simp only [hm, decide_true, if_true]
        omega
      · simp only [hm, decide_false, Bool.false_eq_true, if_false]
        omega
  rw [hcount, hrange]
  omega

/-! ## Runs -/

variable [DecidableEq H] {hashToken : String → H} {tr : List (Ev H)} {e : Ev H} {t' : Call}
  {pool : Pool (Ans (H := H)) Failure Response Call (State H)}

/-- The table before and after a step of a run says what it should. -/
theorem event_sound (h : PoolRun (service hashToken) ⟨{}, []⟩ tr pool) (he : e ∈ tr) :
    Sound e.pre.signups := by
  obtain ⟨later, earlier, b, b', -, hrun, hstep, -⟩ := Run.split_mem h he
  rw [hstep.states.1]
  exact sound_run hrun

/-- Whoever records a task moves up past the rows it overtakes and disturbs no other two. -/
theorem task_rises (h : PoolRun (service hashToken) ⟨{}, []⟩ tr pool) (he : e ∈ tr)
    {tokenHash : H} {task : WaitlistTask} {points : Nat} {r : Except Failure (Option Nat)}
    (hlabel : e.label = .ran t' (.addTask tokenHash task points) r) :
    e.post.signups = e.pre.signups ∨ ∃ before s after, e.pre.signups = before ++ s :: after ∧
      s.tokenHash = tokenHash ∧ task ∉ s.tasks ∧
      e.post.signups = before ++ s.addTask task (waitlistTaskPoints task) :: after ∧
      Rises e.pre.signups e.post.signups s (s.addTask task (waitlistTaskPoints task)) := by
  have hsound := event_sound h he
  obtain ⟨hpoints, x, hx⟩ := ran_proper h he hlabel
  obtain rfl : points = waitlistTaskPoints task := hpoints
  have hmoved := respond_moved hx
  generalize hpost : e.post.signups = db' at hmoved ⊢
  cases hmoved with
  | kept => exact .inl rfl
  | task =>
    by_cases hrow : ∃ s ∈ e.pre.signups, s.tokenHash = tokenHash ∧ task ∉ s.tasks
    · obtain ⟨s, hs, htoken, htask⟩ := hrow
      obtain ⟨before, after, hpre⟩ := List.append_of_mem hs
      refine .inr ⟨before, s, after, hpre, htoken, htask, ?_⟩
      have hsplit := addTask_split task (waitlistTaskPoints task)
        (hpre ▸ hsound.tokens) htoken
      rw [hpre, hsplit]
      refine ⟨rfl, rises (hpre ▸ hsound.ids) addTask_same.id ?_⟩
      simp only [Signup.score, Signup.addTask, htask, if_false]
      omega
    · refine .inl ?_
      rw [Table.addTask]
      conv_rhs => rw [← List.map_id e.pre.signups]
      refine List.map_congr_left fun s hs => ?_
      split
      · next htoken =>
        by_contra hne
        refine hrow ⟨s, hs, htoken, fun htask => hne ?_⟩
        rw [Signup.addTask, if_pos htask, id]
      · rfl

theorem task_rises_twoSignups : ∃ e ∈ twoSignupsRun.1, ∃ before s after,
    e.pre.signups = before ++ s :: after ∧ s.tokenHash = demoHash aliceToken ∧
      Rises e.pre.signups e.post.signups s (s.addTask .comment 3) := by
  refine ⟨twoSignupsRun.1.get ⟨2, by decide⟩, List.get_mem _ _, ?_⟩
  have hlabel : (twoSignupsRun.1.get ⟨2, by decide⟩).label = .ran aliceComments
      (.addTask (demoHash aliceToken) .comment 3) (.ok (some 1)) := rfl
  have hrises := task_rises twoSignups_run (List.get_mem _ _) hlabel
  obtain hkept | ⟨before, s, after, hpre, htoken, -, -, hrises⟩ := hrises
  · exact absurd hkept (by decide)
  · exact ⟨before, s, after, hpre, htoken, hrises⟩

/-- Where nobody else has points, each point is worth ten places less one in all. -/
theorem lone_climber (h : PoolRun (service hashToken) ⟨{}, []⟩ tr pool)
    (hs : s ∈ pool.state.signups) (hscore : 0 < s.score)
    (halone : ∀ t ∈ pool.state.signups, t.id ≠ s.id → t.score = 0) :
    pool.state.signups.position s =
      (pool.state.signups.rowNumber s - s.score * positionBoostPerPoint) + 1 :=
  (sound_run h).alone hs hscore halone

theorem lone_climber_twoSignups : ∃ s ∈ twoSignupsRun.2.state.signups,
    twoSignupsRun.2.state.signups.position s = 1 :=
  ⟨twoSignupsRun.2.state.signups.get ⟨0, by decide⟩, List.get_mem _ _,
    lone_climber twoSignups_run (List.get_mem _ _) (by decide) (by decide)⟩

end Waitlist

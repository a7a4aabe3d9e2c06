import BlindMarket.Notifications.Programs

/-!
# What a feed keeps

Every notice that was pushed is in the feed, or in the copies of a call that is
rebuilding the feed, until enough later ones push it out.
-/
namespace Notifications

open Async Prog Runs

variable {s s' s₀ : State} {t t' : Call} {a : Answers Ans Failure} {tr : List Ev} {e : Ev}
  {c : Cmd} {r : Except Failure (Ans c)} {address : Address} {n : Notification}
  {items : List Notification} {pool : Pool Ans Failure Outcome Call State}

/-- The notice as it was before it was read. -/
def Notification.asPushed (n : Notification) : Notification := { n with read := false }

@[simp] theorem asPushed_id (n : Notification) : n.asPushed.id = n.id := rfl

@[simp] theorem asPushed_mark (n : Notification) : n.mark.asPushed = n.asPushed := rfl

@[simp] theorem mark_read (n : Notification) : n.mark.read = true := rfl

@[simp] theorem mark_id (n : Notification) : n.mark.id = n.id := rfl

theorem asPushed_of_unread (h : n.read = false) : n.asPushed = n := by
  cases n
  cases h
  rfl

@[simp] theorem map_asPushed_mark (items : List Notification) :
    (items.map Notification.mark).map Notification.asPushed =
      items.map Notification.asPushed := by
  simp

/-- The notices pushed on a feed, newest first. -/
def pushed (address : Address) : List Ev → List Notification
  | [] => []
  | e :: tr =>
    match e.label with
    | .ran _ (.lpush other notif) _ =>
      if other = address then notif :: pushed address tr else pushed address tr
    | _ => pushed address tr

/-- What the assumptions of a run rule out: a command that fails, a call that dies. -/
structure Completes (e : Ev) : Prop where
  answered : ∀ t c f, e.label ≠ .ran t c (.error f)
  alive : ∀ t, e.label ≠ .died t

/-- A push has an id of its own; a marking writes at the place of its notice; a rebuild deletes
nothing but what it has read, and writes its copies below what was pushed after them. -/
def Careful (earlier : List Ev) (e : Ev) : Prop :=
  match e.label with
  | .ran _ (.lpush address n) _ => ∀ m ∈ pushed address earlier, m.id ≠ n.id
  | .ran _ (.lset address idx n) _ => ∃ m, (e.pre.feed address)[idx]? = some m ∧ m.id = n.id
  | .ran t (.del address) _ => ∃ items, known earlier t = some [⟨.lrange address, .ok items⟩] ∧
      (e.pre.feed address).map (·.id) <+: items.map (·.id)
  | .ran _ (.rpush address notifs) _ =>
    ((e.pre.feed address ++ notifs).map Notification.asPushed).Sublist (pushed address earlier)
  | _ => True

/-! ## Traces and lists -/

theorem pushed_lpush (hc : c = .lpush address n) :
    pushed address (⟨.ran t c r, s, s'⟩ :: tr) = n :: pushed address tr := by
  subst hc
  simp [pushed]

theorem pushed_ran (hc : ∀ n, c ≠ .lpush address n) :
    pushed address (⟨.ran t c r, s, s'⟩ :: tr) = pushed address tr := by
  cases c with
  | lpush other notif =>
    have hne : other ≠ address := by
      rintro rfl
      exact hc notif rfl
    simp [pushed, hne]
  | _ => rfl

theorem pushed_other (h : ∀ (t : Call) (c : Cmd) (r : Except Failure (Ans c)),
    e.label ≠ .ran t c r) : pushed address (e :: tr) = pushed address tr := by
  obtain ⟨label, pre, post⟩ := e
  cases label with
  | ran t c r => exact absurd rfl (h t c r)
  | _ => rfl

theorem pushed_sublist (e : Ev) (tr : List Ev) :
    (pushed address tr).Sublist (pushed address (e :: tr)) := by
  rw [pushed]
  split
  · split
    · exact List.sublist_cons_self _ _
    · exact List.Sublist.refl _
  · exact List.Sublist.refl _

/-- An entry of a list is no further down in a part of it. -/
theorem mem_take_of_sublist {α : Type} {part whole : List α} {x : α} (h : part.Sublist whole)
    (hnodup : whole.Nodup) (k : Nat) (hx : x ∈ part) (hk : x ∈ whole.take k) :
    x ∈ part.take k := by
  induction h generalizing k with
  | slnil => cases hx
  | @cons part whole y h ih =>
    obtain ⟨hy, hwhole⟩ := List.nodup_cons.1 hnodup
    cases k with
    | zero => simp at hk
    | succ k =>
      rcases List.mem_cons.1 hk with rfl | hk
      · exact absurd (h.subset hx) hy
      · exact List.take_subset_take_left _ (Nat.le_succ k) (ih hwhole k hx hk)
  | @cons_cons part whole y h ih =>
    obtain ⟨hy, hwhole⟩ := List.nodup_cons.1 hnodup
    cases k with
    | zero => simp at hk
    | succ k =>
      rcases List.mem_cons.1 hx with rfl | hpart
      · exact List.mem_cons_self
      · rcases List.mem_cons.1 hk with rfl | hk
        · exact absurd (h.subset hpart) hy
        · exact List.mem_cons_of_mem _ (ih hwhole k hpart hk)

/-! ## The invariant -/

structure Inv (address : Address) (tr : List Ev) (s : State) : Prop where
  order : ((s.feed address).map Notification.asPushed).Sublist (pushed address tr)
  ids : ((pushed address tr).map (·.id)).Nodup
  unread : ∀ n ∈ pushed address tr, n.read = false
  copies : ∀ t a items, known tr t = some a → ⟨.lrange address, .ok items⟩ ∈ a →
    (items.map Notification.asPushed).Sublist (pushed address tr)
  kept : ∀ n ∈ (pushed address tr).take FEED_CAP, n ∈ (s.feed address).map Notification.asPushed ∨
    ∃ t a items, known tr t = some a ∧ Rebuilding a address items ∧
      n ∈ items.map Notification.asPushed

theorem Asks.rebuilding (h : Asks t a c) (hr : Rebuilding a address items) :
    c = .rpush address (items.map Notification.mark) := by
  cases c with
  | rpush other notifs =>
    obtain ⟨items', ⟨r', ha'⟩, rfl⟩ := h
    obtain ⟨r, rfl⟩ := hr
    cases ha'
    rfl
  | lpush other notif => exact absurd hr (h.2 _ _)
  | ltrim other stop => exact absurd hr (h.2 _ _)
  | expire other seconds => exact absurd hr (h _ _)
  | setOnce dedupeKey => exact absurd hr (h _ _)
  | lrange other =>
    obtain ⟨r, rfl⟩ := hr
    cases h
  | lset other idx notif =>
    obtain ⟨r, rfl⟩ := hr
    obtain ⟨items', old, ha, -⟩ := h
    simp at ha
  | del other =>
    obtain ⟨r, rfl⟩ := hr
    obtain ⟨items', ha, -⟩ := h
    simp at ha

theorem Inv.pushed_nodup (hI : Inv address tr s) : (pushed address tr).Nodup :=
  List.Nodup.of_map _ hI.ids

/-- Two pushed notices of one id are one. -/
theorem Inv.eq_of_id (hI : Inv address tr s) {m n : Notification} (hm : m ∈ pushed address tr)
    (hn : n ∈ pushed address tr) (hid : m.id = n.id) : m = n :=
  List.inj_on_of_nodup_map hI.ids hm hn hid

theorem Inv.feed_nodup (hI : Inv address tr s) : ((s.feed address).map (·.id)).Nodup := by
  have hsub := (hI.order.map (·.id))
  rw [List.map_map] at hsub
  exact hI.ids.sublist hsub

/-- Steps that run no command leave the feed and the copies as they are. -/
theorem Inv.silent (hI : Inv address tr s)
    (hne : ∀ (t : Call) (c : Cmd) (r : Except Failure (Ans c)), e.label ≠ .ran t c r)
    (hfeed : s'.feed address = s.feed address)
    (hpending : ∀ t a items, known tr t = some a → Rebuilding a address items →
      known (e :: tr) t = some a) : Inv address (e :: tr) s' where
  order := by
    rw [pushed_other hne, hfeed]
    exact hI.order
  ids := by
    rw [pushed_other hne]
    exact hI.ids
  unread := by
    rw [pushed_other hne]
    exact hI.unread
  copies := by
    intro t a items ha hmem
    rw [pushed_other hne]
    rcases known_silent hne ha with rfl | ha
    · cases hmem
    · exact hI.copies t a items ha hmem
  kept := by
    intro n hn
    rw [pushed_other hne] at hn
    rw [hfeed]
    rcases hI.kept n hn with hn | ⟨t, a, items, ha, hr, hn⟩
    · exact .inl hn
    · exact .inr ⟨t, a, items, hpending t a items ha hr, hr, hn⟩

section Ran

variable (hI : Inv address tr s) (hknown : known tr t = some a) (hasks : Asks t a c)
  (hx : respond s c = (r, s')) (hcareful : Careful tr ⟨.ran t c r, s, s'⟩)

include hI hknown

/-- Copies are of what was pushed. -/
theorem Inv.copies_ran (hx : respond s c = (r, s')) (t' : Call) (a' : Answers Ans Failure)
    (items : List Notification) (ha : known (⟨.ran t c r, s, s'⟩ :: tr) t' = some a')
    (hmem : ⟨.lrange address, .ok items⟩ ∈ a') :
    (items.map Notification.asPushed).Sublist
      (pushed address (⟨.ran t c r, s, s'⟩ :: tr)) := by
  refine List.Sublist.trans ?_ (pushed_sublist _ tr)
  by_cases htag : t = t'
  · subst htag
    rw [known_ran, if_pos rfl, hknown] at ha
    cases ha
    rcases List.mem_cons.1 hmem with heq | hmem
    · cases heq
      cases hx
      exact hI.order
    · exact hI.copies t a items hknown hmem
  · rw [known_ran, if_neg htag] at ha
    exact hI.copies t' a' items ha hmem

include hasks

/-- A recent notice stays in the feed or in a copy when the command does not lose it. -/
theorem Inv.kept_ran
    (hrpush : ∀ notifs, c = .rpush address notifs → s'.feed address = s.feed address ++ notifs)
    (hn : n ∈ (pushed address tr).take FEED_CAP)
    (hfeed : n ∈ (s.feed address).map Notification.asPushed →
      n ∈ (s'.feed address).map Notification.asPushed ∨
        ∃ items, Rebuilding (⟨c, r⟩ :: a) address items ∧ n ∈ items.map Notification.asPushed) :
    n ∈ (s'.feed address).map Notification.asPushed ∨
      ∃ t' a' items, known (⟨.ran t c r, s, s'⟩ :: tr) t' = some a' ∧
        Rebuilding a' address items ∧ n ∈ items.map Notification.asPushed := by
  rcases hI.kept n hn with hin | ⟨t', a', items, ha, hr, hin⟩
  · rcases hfeed hin with hin | ⟨items, hr, hin⟩
    · exact .inl hin
    · exact .inr ⟨t, _, items, by simp [hknown], hr, hin⟩
  · by_cases htag : t = t'
    · subst htag
      rw [hknown] at ha
      cases ha
      refine .inl ?_
      rw [hrpush _ (hasks.rebuilding hr), List.map_append, map_asPushed_mark]
      exact List.mem_append_right _ hin
    · exact .inr ⟨t', a', items, by rw [known_ran, if_neg htag, ha], hr, hin⟩

include hx hcareful

theorem Inv.ran : Inv address (⟨.ran t c r, s, s'⟩ :: tr) s' := by
  have hcopies := hI.copies_ran hknown hx
  have hnew (n : Notification) (hc : c = .lpush address n) :
      pushed address (⟨.ran t c r, s, s'⟩ :: tr) = n :: pushed address tr := pushed_lpush hc
  have hold (hc : ∀ n, c ≠ .lpush address n) :
      pushed address (⟨.ran t c r, s, s'⟩ :: tr) = pushed address tr := pushed_ran hc
  -- A command on another feed, or one that only reads.
  have hsame (hc : c.writes ≠ some address) : Inv address (⟨.ran t c r, s, s'⟩ :: tr) s' := by
    have hfeed := respond_feed hx hc
    have hpushed := hold fun n hlpush => hc (by rw [hlpush]; rfl)
    refine ⟨?_, hpushed ▸ hI.ids, hpushed ▸ hI.unread, hcopies, fun n hn => ?_⟩
    · rw [hfeed, hpushed]
      exact hI.order
    · rw [hpushed] at hn
      refine hI.kept_ran hknown hasks (fun notifs hrpush => ?_) hn fun hin => .inl (hfeed ▸ hin)
      subst hrpush
      exact absurd rfl hc
  by_cases hc : c.writes = some address
  swap
  · exact hsame hc
  cases c with
  | lpush other notif =>
    cases hc
    have hpushed := hnew notif rfl
    cases hx
    have hnotif : notif.asPushed = notif := asPushed_of_unread hasks.1
    refine ⟨?_, ?_, ?_, hcopies, fun n hn => ?_⟩
    · rw [hpushed, State.feed_put, List.map_cons, hnotif]
      exact hI.order.cons_cons _
    · rw [hpushed, List.map_cons, List.nodup_cons]
      refine ⟨fun hmem => ?_, hI.ids⟩
      obtain ⟨m, hm, hid⟩ := List.mem_map.1 hmem
      exact hcareful m hm hid
    · rw [hpushed]
      exact List.forall_mem_cons.2 ⟨hasks.1, hI.unread⟩
    · rw [hpushed] at hn
      rcases List.mem_cons.1 hn with rfl | hn
      · refine .inl ?_
        rw [State.feed_put, List.map_cons, hnotif]
        exact List.mem_cons_self
      · have hold : n ∈ (pushed address tr).take FEED_CAP :=
          List.take_subset_take_left _ (by decide) hn
        refine hI.kept_ran hknown hasks (by simp) hold fun hin => .inl ?_
        rw [State.feed_put]
        exact List.mem_cons_of_mem _ hin
  | ltrim other stop =>
    cases hc
    have hpushed := hold (by simp)
    obtain ⟨rfl, hrebuilding⟩ := hasks
    cases hx
    refine ⟨?_, hpushed ▸ hI.ids, hpushed ▸ hI.unread, hcopies, fun n hn => ?_⟩
    · rw [hpushed, State.feed_put]
      exact ((List.take_sublist _ _).map _).trans hI.order
    · rw [hpushed] at hn
      refine hI.kept_ran hknown (c := .ltrim address (FEED_CAP - 1)) ⟨rfl, hrebuilding⟩ (by simp) hn
        fun hin => .inl ?_
      rw [State.feed_put, List.map_take]
      exact mem_take_of_sublist hI.order hI.pushed_nodup FEED_CAP hin hn
  | lset other idx notif =>
    cases hc
    have hpushed := hold (by simp)
    obtain ⟨m, hm, hid⟩ := hcareful
    obtain ⟨hlt, rfl⟩ := List.getElem?_eq_some_iff.1 hm
    have hput : s' = s.put address ((s.feed address).set idx notif) := by
      simp only [respond, if_pos hlt] at hx
      cases hx
      rfl
    -- The entry and the copy are of one pushed notice.
    have heq : notif.asPushed = (s.feed address)[idx].asPushed := by
      obtain ⟨items, old, ha, hat, rfl, -⟩ := hasks
      refine hI.eq_of_id ?_ (hI.order.subset (List.mem_map_of_mem (List.getElem_mem hlt)))
        (by simpa using hid.symm)
      rw [asPushed_mark]
      exact (hI.copies t a items hknown (by simp [ha])).subset
        (List.mem_map_of_mem (List.mem_of_getElem? hat))
    have hmap : (s'.feed address).map Notification.asPushed =
        (s.feed address).map Notification.asPushed := by
      rw [hput, State.feed_put, List.map_set, heq, ← List.map_set, List.set_getElem_self]
    refine ⟨?_, hpushed ▸ hI.ids, hpushed ▸ hI.unread, hcopies, fun n hn => ?_⟩
    · rw [hpushed, hmap]
      exact hI.order
    · rw [hpushed] at hn
      exact hI.kept_ran hknown hasks (by simp) hn fun hin => .inl (hmap ▸ hin)
  | del other =>
    cases hc
    have hpushed := hold (by simp)
    cases hx
    obtain ⟨items, hitems, hread⟩ := hcareful
    have ha : a = [⟨.lrange address, .ok items⟩] := by
      rw [hknown] at hitems
      exact Option.some.inj hitems
    refine ⟨?_, hpushed ▸ hI.ids, hpushed ▸ hI.unread, hcopies, fun n hn => ?_⟩
    · rw [State.feed_put]
      exact List.nil_sublist _
    · rw [hpushed] at hn
      refine hI.kept_ran hknown hasks (by simp) hn fun hin => .inr ⟨items, ⟨_, by rw [ha]⟩, ?_⟩
      obtain ⟨m, hm, rfl⟩ := List.mem_map.1 hin
      obtain ⟨i, hi, hid⟩ := List.mem_map.1 (hread.subset (List.mem_map_of_mem (f := (·.id)) hm))
      have hipushed : i.asPushed ∈ pushed address tr :=
        (hI.copies t a items hknown (by simp [ha])).subset (List.mem_map_of_mem hi)
      have heq : i.asPushed = m.asPushed :=
        hI.eq_of_id hipushed (hI.order.subset hin) (by simpa using hid)
      exact heq ▸ List.mem_map_of_mem hi
  | rpush other notifs =>
    cases hc
    have hpushed := hold (by simp)
    cases hx
    refine ⟨?_, hpushed ▸ hI.ids, hpushed ▸ hI.unread, hcopies, fun n hn => ?_⟩
    · rw [hpushed, State.feed_put]
      exact hcareful
    · rw [hpushed] at hn
      refine hI.kept_ran hknown hasks (fun notifs' heq => ?_) hn fun hin => .inl ?_
      · cases heq
        rw [State.feed_put]
      · rw [State.feed_put, List.map_append]
        exact List.mem_append_left _ hin
  | _ => cases hc

end Ran

/-- Nothing has been pushed yet. -/
def Initial (s : State) : Prop := ∀ address, s.feed address = []

theorem store_move {b b' : Pool Ans Failure Outcome Call State}
    (h : PoolRun store ⟨s₀, []⟩ tr b) (hs : Step store b e b') :
    Move store Asks Ends tr b.state e b'.state :=
  store_numbered.move h hs fun _ _ t _ _ hstart => hstart.2.1 ▸ told_op t

theorem inv_run (h : PoolRun store ⟨s₀, []⟩ tr pool) (h0 : Initial s₀)
    (hcompletes : ∀ e ∈ tr, Completes e) (hcareful : Throughout Careful tr) :
    Inv address tr pool.state := by
  revert hcompletes hcareful
  refine Run.invariant (I := fun tr pool => (∀ e ∈ tr, Completes e) → Throughout Careful tr →
    Inv address tr pool.state) h (fun _ _ => ?_) ?_
  · have hfeed := h0 address
    exact ⟨by simp [hfeed, pushed], by simp [pushed], by simp [pushed], by simp, by simp [pushed]⟩
  · intro tr b e b' hrun hat hs hcompletes hcareful
    have hI := hat (fun e' he' => hcompletes e' (by simp [he'])) hcareful.tail
    have hstep := hcareful.head
    have hm := store_move hrun hs
    generalize b.state = s at hm hI
    generalize b'.state = s' at hm
    cases hm with
    | ran t a c r hknown hasks hx => exact hI.ran hknown hasks hx hstep
    | started t p tags hfresh hx =>
      obtain ⟨-, -, rfl⟩ := hx
      refine hI.silent (by simp) rfl fun t' a items ha _ => ?_
      have hne : t ≠ t' := by
        rintro rfl
        rw [hfresh] at ha
        cases ha
      rw [known_started, if_neg hne, ha]
    | finished t a r hknown hends =>
      refine hI.silent (by simp) rfl fun t' a' items ha hr => ?_
      have hne : t ≠ t' := by
        rintro rfl
        rw [hknown] at ha
        cases ha
        exact hends.1 address items hr
      rw [known_finished, if_neg hne, ha]
    | env hx => exact hx.elim
    | died t a hknown hx => exact absurd rfl ((hcompletes _ List.mem_cons_self).alive t)

end Notifications

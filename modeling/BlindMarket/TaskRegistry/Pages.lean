import BlindMarket.Escrow.Listings

/-!
# Pages of open tasks

`getOpenTasks` sizes its answer by the counter and fills it in a traversal of
the list. Read against the history of the registry, a page is a piece of the
listings published and not closed, in the order of publication.
-/
namespace TaskRegistry

open BlindEscrow (Address word)
open Checked Runs

variable {s s' s₀ : State} {sender : Address} {now offset limit : Nat} {op : Op}

/-- An entry of a fresh memory array. -/
def blank : TaskMeta := ⟨0, 0, "", "", 0, 0, false⟩

/-- The loop of `getOpenTasks` over the rest of the list. -/
def pageLoop (offset resultSize : Nat) :
    List TaskMeta → Nat → Nat → List TaskMeta → Except Revert (List TaskMeta)
  | [], _, _, result => return result
  | listing :: rest, found, skipped, result =>
    if found < resultSize then
      if listing.isOpen then
        if offset ≤ skipped then do
          require (found < result.length) .panic
          pageLoop offset resultSize rest (found + 1) skipped (result.set found listing)
        else pageLoop offset resultSize rest found (skipped + 1) result
      else pageLoop offset resultSize rest found skipped result
    else return result

def getOpenTasks (offset limit : Nat) (s : State) : Except Revert (List TaskMeta) :=
  if s.openTaskCount ≤ offset then .ok []
  else do
    let reach ← add word .panic offset limit
    let resultSize ← if s.openTaskCount < reach then sub .panic s.openTaskCount offset
      else .ok limit
    pageLoop offset resultSize s.taskList 0 0 (List.replicate resultSize blank)

/-! ## The history of the registry -/

/-- A call that went through. -/
structure Event where
  sender : Address
  now : Nat
  op : Op

def Step (s : State) (e : Event) (s' : State) : Prop := enter e.sender e.now e.op s = .ok s'

def Initial (s : State) : Prop := ∃ admin, s = { admin }

/-- The open listings after a history, newest call first, in the order of publication. -/
def openListings : List Event → List TaskMeta
  | [] => []
  | ⟨_, now, .publishTask taskId agent category locationZone reward⟩ :: tr =>
    openListings tr ++ [⟨taskId, agent, category, locationZone, reward, now, true⟩]
  | ⟨_, _, .closeTask taskId⟩ :: tr => (openListings tr).filter (·.taskId ≠ taskId)
  | _ :: tr => openListings tr

/-- Closing an entry takes it out of the open ones. -/
theorem filter_close {l : List TaskMeta} {i : Nat} {listing : TaskMeta}
    (hdistinct : (l.map TaskMeta.taskId).Nodup) (hi : l[i]? = some listing) :
    (l.set i { listing with isOpen := false }).filter TaskMeta.isOpen =
      (l.filter TaskMeta.isOpen).filter (·.taskId ≠ listing.taskId) := by
  obtain ⟨hlt, rfl⟩ := List.getElem?_eq_some_iff.mp hi
  have hsplit : l = l.take i ++ l[i] :: l.drop (i + 1) := by simp
  have hother : ∀ x ∈ l.take i ++ l.drop (i + 1), x.taskId ≠ l[i].taskId := by
    rw [hsplit, List.map_append, List.map_cons] at hdistinct
    obtain ⟨-, hcons, hdisjoint⟩ := List.nodup_append.mp hdistinct
    intro x hx
    rcases List.mem_append.mp hx with hx | hx
    · exact hdisjoint _ (List.mem_map_of_mem hx) _ List.mem_cons_self
    · intro hsame
      exact (List.nodup_cons.mp hcons).1 (hsame ▸ List.mem_map_of_mem hx)
  have hkeep : ∀ l' ⊆ l.take i ++ l.drop (i + 1),
      (l'.filter TaskMeta.isOpen).filter (·.taskId ≠ l[i].taskId) = l'.filter TaskMeta.isOpen := by
    intro l' hl'
    refine List.filter_eq_self.mpr fun x hx => ?_
    simpa using hother x (hl' (List.mem_of_mem_filter hx))
  have hleft := hkeep _ (List.subset_append_left (l.take i) (l.drop (i + 1)))
  have hright := hkeep _ (List.subset_append_right (l.take i) (l.drop (i + 1)))
  have hlast : ([l[i]].filter TaskMeta.isOpen).filter (·.taskId ≠ l[i].taskId) = [] := by
    refine List.filter_eq_nil_iff.mpr fun x hx => ?_
    rw [List.mem_singleton.mp (List.mem_of_mem_filter hx)]
    simp
  calc (l.set i { l[i] with isOpen := false }).filter TaskMeta.isOpen
      = (l.take i).filter TaskMeta.isOpen ++ (l.drop (i + 1)).filter TaskMeta.isOpen := by
        rw [List.set_eq_take_append_cons_drop, if_pos hlt, List.filter_append,
          List.filter_cons_of_neg (by simp)]
    _ = ((l.take i ++ ([l[i]] ++ l.drop (i + 1))).filter TaskMeta.isOpen).filter
          (·.taskId ≠ l[i].taskId) := by
        rw [List.filter_append, List.filter_append, List.filter_append, List.filter_append, hleft,
          hright, hlast, List.nil_append]
    _ = _ := by
        rw [List.singleton_append, ← hsplit]

/-- The registry keeps the open listings in order. -/
theorem Indexed.enter (h : Indexed s) (e : Event) (hs : Step s e s') {tr : List Event}
    (hopen : s.taskList.filter TaskMeta.isOpen = openListings tr) :
    Indexed s' ∧ s'.taskList.filter TaskMeta.isOpen = openListings (e :: tr) := by
  obtain ⟨sender, now, op⟩ := e
  unfold Step at hs
  cases op with
  | publishTask taskId agent category locationZone reward =>
    have hcall := hs
    simp only [TaskRegistry.enter, publishTask, onlyAuthorized, whenNotPaused, seq_eq_ok,
      require_eq_ok, exists_const, pure_eq, Except.ok.injEq] at hcall
    obtain ⟨ha, hp, hfresh, rfl⟩ := hcall
    obtain ⟨s', hok, hindexed, -⟩ := h.publish now agent category locationZone reward ha hp
      (h.listing_exists.mpr hfresh)
    cases hok.symm.trans hs
    refine ⟨hindexed, ?_⟩
    rw [List.filter_append, hopen]
    rfl
  | closeTask taskId =>
    have hcall := hs
    simp only [TaskRegistry.enter, closeTask, onlyAuthorized, whenNotPaused, seq_eq_ok,
      require_eq_ok, exists_const, orElse_eq_ok, sub_eq_ok, pure_eq, Except.ok.injEq] at hcall
    obtain ⟨ha, hp, hexists, listing, hlisting, hlisted, count, ⟨-, rfl⟩, rfl⟩ := hcall
    have hfound := State.listing_eq_some.mpr ⟨hexists, hlisting⟩
    obtain ⟨s', hok, hindexed, -⟩ := h.close ha hp hfound hlisted
    cases hok.symm.trans hs
    refine ⟨hindexed, ?_⟩
    rw [filter_close h.distinct hlisting, hopen, h.listing_id hfound]
    rfl
  | proposeAdmin _ | authorizePublisher _ | pause | unpause =>
    simp only [TaskRegistry.enter, onlyAdmin, whenNotPaused, seq_eq_ok, require_eq_ok,
      exists_const, pure_eq, Except.ok.injEq] at hs
    obtain ⟨-, -, rfl⟩ := hs
    exact ⟨SameListings.indexed (R := s) ⟨rfl, rfl, rfl, rfl⟩ h, hopen⟩
  | acceptAdmin | revokePublisher _ =>
    simp only [TaskRegistry.enter, onlyAdmin, seq_eq_ok, require_eq_ok, exists_const, pure_eq,
      Except.ok.injEq] at hs
    obtain ⟨-, rfl⟩ := hs
    exact ⟨SameListings.indexed (R := s) ⟨rfl, rfl, rfl, rfl⟩ h, hopen⟩

/-! ## Pages -/

/-- The loop fills the rest of the page with the next open listings. -/
theorem pageLoop_eq (offset n skipped : Nat) (done l : List TaskMeta)
    (hroom : n ≤ (l.filter TaskMeta.isOpen).length - (offset - skipped)) :
    pageLoop offset (done.length + n) l done.length skipped (done ++ List.replicate n blank) =
      .ok (done ++ ((l.filter TaskMeta.isOpen).drop (offset - skipped)).take n) := by
  induction l generalizing n skipped done with
  | nil =>
    have hn : n = 0 := by simpa using hroom
    simp [pageLoop, hn]
  | cons listing rest ih =>
    rw [pageLoop]
    cases n with
    | zero => simp
    | succ n =>
      rw [if_pos (by omega)]
      by_cases hopen : listing.isOpen = true
      · rw [if_pos hopen]
        rw [List.filter_cons_of_pos hopen] at hroom ⊢
        by_cases hskip : offset ≤ skipped
        · rw [if_pos hskip, require_pos (by simp), ok_bind]
          have hset : (done ++ List.replicate (n + 1) blank).set done.length listing =
              (done ++ [listing]) ++ List.replicate n blank := by
            simp [List.replicate_succ]
          have hlength : done.length + 1 = (done ++ [listing]).length := by simp
          have hsize : done.length + (n + 1) = (done ++ [listing]).length + n := by simp; omega
          rw [hset, hsize, hlength, ih]
          · simp [Nat.sub_eq_zero_of_le hskip]
          · simp only [List.length_cons] at hroom
            omega
        · rw [if_neg hskip, ih]
          · obtain ⟨k, hk⟩ : ∃ k, offset - skipped = k + 1 := ⟨offset - skipped - 1, by omega⟩
            rw [hk, List.drop_succ_cons, show offset - (skipped + 1) = k by omega]
          · simp only [List.length_cons] at hroom
            omega
      · rw [if_neg hopen]
        rw [List.filter_cons_of_neg hopen] at hroom ⊢
        exact ih (n + 1) skipped done hroom

/-- A page is read off the open listings, unless its end is past the last word. -/
theorem Indexed.page (h : Indexed s) : getOpenTasks offset limit s =
    if s.openTaskCount ≤ offset ∨ offset + limit < word then
      .ok (((s.taskList.filter TaskMeta.isOpen).drop offset).take limit)
    else .error .panic := by
  have hcount : s.openTaskCount = (s.taskList.filter TaskMeta.isOpen).length := by
    rw [h.count, List.countP_eq_length_filter]
  unfold getOpenTasks
  by_cases hpast : s.openTaskCount ≤ offset
  · rw [if_pos hpast, if_pos (.inl hpast), List.drop_eq_nil_of_le (hcount ▸ hpast), List.take_nil]
  · rw [if_neg hpast]
    by_cases hreach : offset + limit < word
    · rw [if_pos (.inr hreach), add, if_pos hreach, ok_bind]
      by_cases hlast : s.openTaskCount < offset + limit
      · rw [if_pos hlast, sub, if_pos (by omega), ok_bind]
        have hloop := pageLoop_eq offset (s.openTaskCount - offset) 0 [] s.taskList (by omega)
        simp only [List.length_nil, zero_add, List.nil_append, Nat.sub_zero] at hloop
        refine hloop.trans ?_
        have hlength : ((s.taskList.filter TaskMeta.isOpen).drop offset).length =
            s.openTaskCount - offset := by
          rw [List.length_drop, hcount]
        rw [List.take_of_length_le hlength.le, List.take_of_length_le (by omega)]
      · rw [if_neg hlast, ok_bind]
        have hloop := pageLoop_eq offset limit 0 [] s.taskList (by omega)
        simpa only [List.length_nil, zero_add, List.nil_append, Nat.sub_zero] using hloop
    · rw [if_neg (by omega), add, if_neg hreach, error_bind]

/-! ## Runs -/

theorem indexed_run {tr : List Event} (h : Run Step s₀ tr s) (h0 : Initial s₀) :
    Indexed s ∧ s.taskList.filter TaskMeta.isOpen = openListings tr := by
  refine Run.invariant (I := fun tr s => Indexed s ∧
    s.taskList.filter TaskMeta.isOpen = openListings tr) h ?_ ?_
  · obtain ⟨admin, rfl⟩ := h0
    exact ⟨⟨fun _ hid => (by cases hid), fun i _ hi => (by simp at hi), rfl⟩, rfl⟩
  · rintro tr b e b' - ⟨hindexed, hopen⟩ hs
    exact hindexed.enter e hs hopen

theorem flatMap_pages {α : Type} (l : List α) (k n : Nat) :
    ((List.range n).flatMap fun j => (l.drop (j * k)).take k) = l.take (n * k) := by
  induction n with
  | zero => simp
  | succ n ih =>
    rw [List.range_succ, List.flatMap_append, ih, List.flatMap_singleton, Nat.succ_mul,
      List.take_add]

/-- After any history a page is a piece of the open listings, unless it starts before their end and
ends past the last word; and the pages that are answered make up the whole. -/
theorem open_pages {tr : List Event} (h : Run Step s₀ tr s) (h0 : Initial s₀) :
    (∀ offset limit, getOpenTasks offset limit s =
        .ok (((openListings tr).drop offset).take limit) ↔
      (openListings tr).length ≤ offset ∨ offset + limit < word) ∧
    (∀ listing ∈ openListings tr, listing.isOpen = true) ∧
    ((openListings tr).map (·.taskId)).Nodup ∧
    ∀ k n pages, (openListings tr).length ≤ n * k →
      (∀ j < n, getOpenTasks (j * k) k s = .ok (pages j)) →
      (List.range n).flatMap pages = openListings tr := by
  obtain ⟨hindexed, hopen⟩ := indexed_run h h0
  have hcount : s.openTaskCount = (openListings tr).length := by
    rw [hindexed.count, List.countP_eq_length_filter, ← hopen]
  have hpage : ∀ offset limit, getOpenTasks offset limit s =
      if (openListings tr).length ≤ offset ∨ offset + limit < word then
        .ok (((openListings tr).drop offset).take limit) else .error .panic := by
    intro offset limit
    rw [hindexed.page, hopen, hcount]
  refine ⟨fun offset limit => ?_, fun listing hlisting => ?_, ?_, fun k n pages hn hpages => ?_⟩
  · rw [hpage]
    by_cases hreach : (openListings tr).length ≤ offset ∨ offset + limit < word
    · rw [if_pos hreach]
      exact iff_of_true rfl hreach
    · rw [if_neg hreach]
      exact iff_of_false (by simp) hreach
  · rw [← hopen] at hlisting
    exact (List.mem_filter.mp hlisting).2
  · rw [← hopen]
    exact hindexed.distinct.sublist (List.filter_sublist.map _)
  · have hpiece : ∀ j ∈ List.range n, pages j = ((openListings tr).drop (j * k)).take k := by
      intro j hj
      have hj := (hpage (j * k) k).symm.trans (hpages j (List.mem_range.mp hj))
      split at hj
      · exact (Except.ok.inj hj).symm
      · cases hj
    rw [List.flatMap_congr hpiece, flatMap_pages, List.take_of_length_le hn]

/-- Admin 9 lets 1 publish two tasks. -/
def twoTasks : List Event :=
  [⟨1, 6, .publishTask 8 1 "b" "z" 20⟩, ⟨1, 5, .publishTask 7 1 "a" "z" 10⟩,
    ⟨9, 4, .authorizePublisher 1⟩]

/-- The state after a history, if every call goes through. -/
def after (s : State) : List Event → Option State
  | [] => some s
  | e :: tr => (after s tr).bind fun s => (enter e.sender e.now e.op s).toOption

theorem after_run {tr : List Event} (h : after s tr = some s') : Run Step s tr s' := by
  induction tr generalizing s' with
  | nil =>
    cases h
    exact .nil
  | cons e tr ih =>
    obtain ⟨b, hb, hlast⟩ := Option.bind_eq_some_iff.mp h
    refine .snoc (ih hb) ?_
    unfold Step
    cases hcall : enter e.sender e.now e.op b with
    | error r =>
      rw [hcall] at hlast
      cases hlast
    | ok b' =>
      rw [hcall] at hlast
      cases hlast
      rfl

theorem twoTasks_after : (after { admin := 9 } twoTasks).isSome = true := by decide

/-- From the second listing on, everything: the end of the page is past the last word. -/
theorem open_pages_fails : ∃ s₀ tr s offset limit, Run Step s₀ tr s ∧ Initial s₀ ∧
    offset < word ∧ limit < word ∧
    getOpenTasks offset limit s ≠ .ok (((openListings tr).drop offset).take limit) :=
  ⟨{ admin := 9 }, twoTasks, (after { admin := 9 } twoTasks).get twoTasks_after, 1, word - 1,
    after_run (Option.some_get _).symm, ⟨9, rfl⟩, by decide, by decide, by decide⟩

/-- A page of one. -/
theorem open_pages_twoTasks : getOpenTasks 1 1 ((after { admin := 9 } twoTasks).get
    twoTasks_after) = .ok [⟨8, 1, "b", "z", 20, 6, true⟩] :=
  ((open_pages (after_run (Option.some_get twoTasks_after).symm) ⟨9, rfl⟩).1 1 1).mpr
    (.inr (by decide))

end TaskRegistry

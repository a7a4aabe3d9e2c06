import BlindMarket.Notifications.Feed

/-!
# Reading loses no notice

Once a notice is read in its feed every copy of it that comes back is read: a
push brings a new notice, a marking and a rebuild write marked ones.
-/
namespace Notifications

open Async Prog Runs

variable {s s' s₀ : State} {t : Call} {a : Answers Ans Failure} {tr later earlier : List Ev}
  {e : Ev} {c : Cmd} {r : Except Failure (Ans c)} {address : Address} {id : NoticeId}
  {n : Notification} {items : List Notification} {pool : Pool Ans Failure Outcome Call State}

/-- The notice is read if it is in the feed. -/
def Settled (address : Address) (id : NoticeId) (s : State) : Prop :=
  ∀ n ∈ s.feed address, n.id = id → n.read = true

/-- The notice was pushed. -/
def WasPushed (address : Address) (id : NoticeId) (tr : List Ev) : Prop :=
  ∃ m ∈ pushed address tr, m.id = id

theorem WasPushed.mono (h : WasPushed address id earlier) (later : List Ev) :
    WasPushed address id (later ++ earlier) := by
  obtain ⟨m, hm, hid⟩ := h
  refine ⟨m, ?_, hid⟩
  induction later with
  | nil => exact hm
  | cons e later ih => exact (pushed_sublist e _).subset ih

theorem Settled.ran (h : Settled address id s) (hpushed : WasPushed address id tr)
    (hasks : Asks t a c) (hx : respond s c = (r, s'))
    (hcareful : Careful tr ⟨.ran t c r, s, s'⟩) : Settled address id s' := by
  by_cases hc : c.writes = some address
  swap
  · rw [Settled, respond_feed hx hc]
    exact h
  cases c with
  | lpush other notif =>
    cases hc
    cases hx
    intro n hn hid
    rw [State.feed_put] at hn
    rcases List.mem_cons.1 hn with rfl | hn
    · obtain ⟨m, hm, hid'⟩ := hpushed
      exact absurd (hid'.trans hid.symm) (hcareful m hm)
    · exact h n hn hid
  | ltrim other stop =>
    cases hc
    cases hx
    intro n hn hid
    rw [State.feed_put] at hn
    exact h n (List.mem_of_mem_take hn) hid
  | lset other idx notif =>
    cases hc
    obtain ⟨items, old, -, -, rfl, -⟩ := hasks
    simp only [respond] at hx
    split at hx
    · cases hx
      intro n hn hid
      rw [State.feed_put] at hn
      rcases List.mem_or_eq_of_mem_set hn with hn | rfl
      · exact h n hn hid
      · rfl
    · cases hx
      exact h
  | del other =>
    cases hc
    cases hx
    intro n hn
    simp at hn
  | rpush other notifs =>
    cases hc
    cases hx
    obtain ⟨items, -, rfl⟩ := hasks
    intro n hn hid
    rw [State.feed_put] at hn
    rcases List.mem_append.1 hn with hn | hn
    · exact h n hn hid
    · obtain ⟨i, -, rfl⟩ := List.mem_map.1 hn
      rfl
  | _ => cases hc

/-- A notice that was pushed and is settled after an event stays so. -/
theorem settled_later (h : PoolRun store ⟨s₀, []⟩ tr pool) (hcareful : Throughout Careful tr)
    (heq : tr = later ++ e :: earlier) (hsettled : Settled address id e.post)
    (hpushed : WasPushed address id (e :: earlier)) : Settled address id pool.state := by
  refine Run.invariant (I := fun tr pool => Throughout Careful tr → ∀ later,
    tr = later ++ e :: earlier → Settled address id pool.state) h ?_ ?_ hcareful later heq
  · intro _ later heq
    simp at heq
  · intro tr b e' b' hrun hat hs hcareful later heq
    cases later with
    | nil =>
      cases heq
      rw [← hs.states.2]
      exact hsettled
    | cons e'' later =>
      cases heq
      have hbefore := hat hcareful.tail later rfl
      have hstep := hcareful.head
      have hm := store_move hrun hs
      generalize b.state = s at hm hbefore
      generalize b'.state = s' at hm
      cases hm with
      | ran t a c r hknown hasks hx =>
        exact hbefore.ran (hpushed.mono later) hasks hx hstep
      | started t p tags hfresh hx =>
        obtain ⟨-, -, rfl⟩ := hx
        exact hbefore
      | finished t a r hknown hends => exact hbefore
      | env hx => exact hx.elim
      | died t a hknown hx =>
        obtain rfl := hx
        exact hbefore

/-- What the runs of the theorem are like, in each of their states. -/
structure Orderly (s₀ : State) (tr : List Ev) (pool : Pool Ans Failure Outcome Call State) :
    Prop where
  run : PoolRun store ⟨s₀, []⟩ tr pool
  initial : Initial s₀
  completes : ∀ e ∈ tr, Completes e
  careful : Throughout Careful tr

theorem Orderly.inv (h : Orderly s₀ tr pool) (address : Address) : Inv address tr pool.state :=
  inv_run h.run h.initial h.completes h.careful

theorem Orderly.split (h : Orderly s₀ (later ++ e :: earlier) pool) :
    ∃ b b', Orderly s₀ earlier b ∧ Orderly s₀ (e :: earlier) b' ∧ Step store b e b' := by
  obtain ⟨b, b', hrun, hs, -⟩ := h.run.split
  refine ⟨b, b', ⟨hrun, h.initial, fun e' he' => h.completes e' (by simp [he']), ?_⟩,
    ⟨hrun.snoc hs, h.initial, fun e' he' => h.completes e' ?_, ?_⟩, hs⟩
  · intro later' e' earlier' heq
    exact h.careful (later ++ e :: later') e' earlier' (by rw [heq]; simp)
  · exact List.mem_append_right _ he'
  · intro later' e' earlier' heq
    exact h.careful (later ++ later') e' earlier' (by rw [heq]; simp)

/-- A notice in the feed was pushed. -/
theorem Orderly.pushed (h : Orderly s₀ tr pool) (hn : n ∈ pool.state.feed address) :
    WasPushed address n.id tr :=
  ⟨n.asPushed, (h.inv address).order.subset (List.mem_map_of_mem hn), rfl⟩

/-- A read notice is settled. -/
theorem Orderly.settled (h : Orderly s₀ tr pool) (hn : n ∈ pool.state.feed address)
    (hread : n.read = true) : Settled address n.id pool.state := by
  intro m hm hid
  have heq := List.inj_on_of_nodup_map (h.inv address).feed_nodup hm hn hid
  rw [heq, hread]

/-- A notice that is read in the feed after one event stays read. -/
theorem Orderly.stays (h : Orderly s₀ tr pool) (he : e ∈ tr) (hn : n ∈ e.post.feed address)
    (hread : n.read = true) : Settled address n.id pool.state := by
  obtain ⟨later, earlier, rfl⟩ := List.append_of_mem he
  obtain ⟨b, b', -, hat, hs⟩ := h.split
  rw [hs.states.2] at hn
  refine settled_later h.run h.careful rfl ?_ (hat.pushed hn)
  rw [hs.states.2]
  exact hat.settled hn hread

/-- An event of a run that answers a command. -/
theorem Orderly.answered (h : Orderly s₀ tr pool) (he : e ∈ tr) (hlabel : e.label = .ran t c r) :
    respond e.pre c = (r, e.post) := by
  obtain ⟨later, earlier, rfl⟩ := List.append_of_mem he
  obtain ⟨b, b', -, -, hs⟩ := h.split
  have hs' := hs.states
  cases hs with
  | run l₁ l₂ t' c' k r' hx =>
    cases hlabel
    exact hx
  | _ => cases hlabel

/-- A call that has started runs nothing before. -/
theorem Orderly.after_start (h : Orderly s₀ (later ++ e :: earlier) pool)
    (hstart : e.label = .started t) {e' : Ev} (he' : e' ∈ later ++ e :: earlier)
    (hlabel : e'.label = .ran t c r) : e' ∈ later := by
  rcases List.mem_append.1 he' with hlater | hrest
  · exact hlater
  rcases List.mem_cons.1 hrest with rfl | hearlier
  · rw [hstart] at hlabel
    cases hlabel
  obtain ⟨b, b', hbefore, -, hs⟩ := h.split
  have hcounted := store_numbered.run hbefore.run
  cases hs with
  | start l t' p hx =>
    cases hstart
    have hlt := hcounted.events e' hearlier t (by rw [hlabel]; rfl)
    exact absurd hx.1 (Nat.ne_of_lt hlt)
  | _ => cases hstart

/-! ## The feed when all have ended -/

/-- What the feed keeps, and what stays read. -/
structure Kept (address : Address) (tr : List Ev) (s : State) : Prop where
  /-- A notice followed by fewer than `FEED_CAP` later ones is there once. -/
  once : ∀ n ∈ (pushed address tr).take FEED_CAP,
    ((s.feed address).map Notification.asPushed).count n = 1
  order : ((s.feed address).map Notification.asPushed).Sublist (pushed address tr)
  nodup : ((s.feed address).map (·.id)).Nodup
  marked : ∀ e ∈ tr, ∀ t id, e.label = .finished t (.ok (.marked true)) →
    t.op = .markRead address id → Settled address id s
  allMarked : ∀ later e earlier t, tr = later ++ e :: earlier → e.label = .started t →
    t.op = .markAllRead address → (∃ e' ∈ later, ∃ r, e'.label = .finished t (.ok r)) →
    ∀ m ∈ e.pre.feed address, Settled address m.id s
  /-- At no time is a notice unread that was read before. -/
  stays : ∀ later e earlier, tr = later ++ e :: earlier → ∀ e' ∈ earlier,
    ∀ m ∈ e'.post.feed address, m.read = true → Settled address m.id e.post

theorem Orderly.once (h : Orderly s₀ tr pool) (hended : pool.threads = [])
    (hn : n ∈ (Notifications.pushed address tr).take FEED_CAP) :
    ((pool.state.feed address).map Notification.asPushed).count n = 1 := by
  have hI := h.inv address
  rcases hI.kept n hn with hin | ⟨t, a, items, ha, -⟩
  · exact List.count_eq_one_of_mem (hI.pushed_nodup.sublist hI.order) hin
  · obtain ⟨th, hth, -⟩ := (store_numbered.tracks h.run
      fun _ _ t _ _ hstart => hstart.2.1 ▸ told_op t).running t a ha
    rw [hended] at hth
    cases hth

/-- What a call read is what the feed was. -/
theorem Orderly.lrange (h : Orderly s₀ tr pool) (he : e ∈ tr)
    (hlabel : e.label = .ran t (.lrange address) (.ok items)) : e.post.feed address = items := by
  have hx := h.answered he hlabel
  simp only [respond, Prod.mk.injEq, Except.ok.injEq] at hx
  rw [← hx.2]
  exact hx.1

theorem Orderly.lset (h : Orderly s₀ tr pool) {idx : Nat} (he : e ∈ tr)
    (hlabel : e.label = .ran t (.lset address idx n) (.ok ())) : n ∈ e.post.feed address := by
  have hx := h.answered he hlabel
  simp only [respond] at hx
  split at hx
  · next hlt =>
    rw [← (Prod.mk.inj hx).2, State.feed_put]
    exact List.mem_set hlt n
  · cases (Prod.mk.inj hx).1

theorem Orderly.del (h : Orderly s₀ tr pool) {r : Except Failure Unit} (he : e ∈ tr)
    (hlabel : e.label = .ran t (.del address) r) : e.post.feed address = [] := by
  have hx := h.answered he hlabel
  simp only [respond, Prod.mk.injEq] at hx
  rw [← hx.2, State.feed_put]

theorem Orderly.marked (h : Orderly s₀ tr pool) (he : e ∈ tr)
    (hlabel : e.label = .finished t (.ok (.marked true))) (hop : t.op = .markRead address id) :
    Settled address id pool.state := by
  obtain ⟨later, earlier, rfl⟩ := List.append_of_mem he
  obtain ⟨b, b', hbefore, -, hs⟩ := h.split
  have hm := store_move hbefore.run hs
  generalize b.state = s at hm
  generalize b'.state = s' at hm
  cases hm with
  | finished t' a r hknown hends =>
    cases hlabel
    have hends' := hends.2
    rw [hop] at hends'
    rcases hends' with ⟨items, n, rfl, hn, rfl, hread⟩ | ⟨idx, n, rest, rfl, rfl, hread⟩
    · obtain ⟨e', he', hran⟩ := known_mem hknown List.mem_cons_self
      rw [← hbefore.lrange he' hran] at hn
      exact h.stays (by simp [he']) hn hread
    · obtain ⟨e', he', hran⟩ := known_mem hknown List.mem_cons_self
      exact h.stays (by simp [he']) (hbefore.lset he' hran) hread
  | _ => cases hlabel

/-- A notice that is in the feed as a `markAllRead` begins. -/
theorem Orderly.allMarked (h : Orderly s₀ (later ++ e :: earlier) pool)
    (hstart : e.label = .started t) (hop : t.op = .markAllRead address) {e' : Ev}
    (he' : e' ∈ later) {r : Outcome} (hlabel : e'.label = .finished t (.ok r))
    (hn : n ∈ e.pre.feed address) : Settled address n.id pool.state := by
  have hpushed : WasPushed address n.id earlier := by
    obtain ⟨b, b', hbefore, -, hs⟩ := h.split
    rw [hs.states.1] at hn
    exact hbefore.pushed hn
  -- The event that settles everything pushed before it comes after the start.
  have hsettle {c : Cmd} {r : Except Failure (Ans c)} {e₁ : Ev} (he₁ : e₁ ∈ later ++ e :: earlier)
      (hran : e₁.label = .ran t c r) (hat : Settled address n.id e₁.post) :
      Settled address n.id pool.state := by
    obtain ⟨l₂, l₁, rfl⟩ := List.append_of_mem (h.after_start hstart he₁ hran)
    have hcut : l₂ ++ e₁ :: l₁ ++ e :: earlier = l₂ ++ e₁ :: (l₁ ++ e :: earlier) := by simp
    refine settled_later h.run h.careful hcut hat ?_
    have hmono := hpushed.mono (e₁ :: (l₁ ++ [e]))
    simpa using hmono
  obtain ⟨l₂, l₁, rfl⟩ := List.append_of_mem he'
  have h' : Orderly s₀ (l₂ ++ e' :: (l₁ ++ e :: earlier)) pool := by simpa using h
  obtain ⟨b, b', hbefore, -, hs⟩ := h'.split
  have hm := store_move hbefore.run hs
  generalize b.state = s at hm
  generalize b'.state = s' at hm
  cases hm with
  | finished t' a r hknown hends =>
    cases hlabel
    have hends' := hends.2
    rw [hop] at hends'
    rcases hends' with ⟨items, rfl, hread⟩ | ⟨r', hdel⟩
    · obtain ⟨e₁, he₁, hran⟩ := known_mem hknown List.mem_cons_self
      refine hsettle (by simpa using .inr (.inr (by simpa using he₁))) hran fun m hm _ => ?_
      rw [hbefore.lrange he₁ hran] at hm
      exact hread m hm
    · obtain ⟨e₁, he₁, hran⟩ := known_mem hknown hdel
      refine hsettle (by simpa using .inr (.inr (by simpa using he₁))) hran fun m hm _ => ?_
      rw [hbefore.del he₁ hran] at hm
      cases hm
  | _ => cases hlabel

/-- In a run that meets the condition, once every call has ended, each feed has every recent
notice once and in order, and what was read or marked is read. -/
theorem reading_loses_none (h : PoolRun store ⟨s₀, []⟩ tr pool) (h0 : Initial s₀)
    (hcompletes : ∀ e ∈ tr, Completes e) (hended : pool.threads = [])
    (hcareful : Throughout Careful tr) (address : Address) : Kept address tr pool.state := by
  have horderly : Orderly s₀ tr pool := ⟨h, h0, hcompletes, hcareful⟩
  have hI := horderly.inv address
  refine ⟨fun n hn => horderly.once hended hn, hI.order, hI.feed_nodup, ?_, ?_, ?_⟩
  · intro e he t id hlabel hop
    exact horderly.marked he hlabel hop
  · rintro later e earlier t rfl hstart hop ⟨e', he', r, hlabel⟩ m hm
    exact horderly.allMarked hstart hop he' hlabel hm
  · rintro later e earlier rfl e' he' m hm hread
    obtain ⟨b, b', hbefore, hat, hs⟩ := horderly.split
    rw [hs.states.2]
    exact hat.stays (List.mem_cons_of_mem _ he') hm hread

/-! ## Runs on one feed -/

def demoInput : Input := ⟨.completed, "Payout credited", none, none⟩

abbrev Cues := List (Cue Call Unit Empty)

/-- A call alone, to its end. -/
def whole (t : Call) (commands : Nat) : List (Cue Call Unit Empty) :=
  ([.enter t] : Cues) ++ (List.replicate commands (.turn 0 ()) : Cues) ++ ([.leave 0] : Cues)

/-- A notice is pushed between the read and the delete of a `markAllRead`. -/
def pushedBetween : List (Cue Call Unit Empty) :=
  whole ⟨0, .notify 1 demoInput ⟨10, 0⟩⟩ 3 ++ ([.enter ⟨1, .markAllRead 1⟩, .turn 0 ()] : Cues) ++
    whole ⟨2, .notify 1 demoInput ⟨11, 0⟩⟩ 3 ++ (List.replicate 3 (.turn 0 ()) : Cues) ++
    ([.leave 0] : Cues)

/-- Two pushes, the second of them marked, then all of them. -/
def oneByOne : List (Cue Call Unit Empty) :=
  whole ⟨0, .notify 1 demoInput ⟨10, 0⟩⟩ 3 ++ whole ⟨1, .notify 1 demoInput ⟨11, 0⟩⟩ 3 ++
    whole ⟨2, .markRead 1 ⟨11, 0⟩⟩ 2 ++ whole ⟨3, .markAllRead 1⟩ 4

theorem pushedBetween_plays : (stage.play pushedBetween ⟨{}, []⟩).isSome = true := by decide

theorem oneByOne_plays : (stage.play oneByOne ⟨{}, []⟩).isSome = true := by decide

/-- A test of the assumptions. -/
def completes (e : Ev) : Bool :=
  match e.label with
  | .ran _ _ (.error _) | .died _ => false
  | _ => true

theorem completes_completes (h : completes e = true) : Completes e where
  answered t c f hlabel := by simp [completes, hlabel] at h
  alive t hlabel := by simp [completes, hlabel] at h

/-- A test of the condition. -/
def careful (earlier : List Ev) (e : Ev) : Bool :=
  match e.label with
  | .ran _ (.lpush address n) _ => (pushed address earlier).all fun m => m.id ≠ n.id
  | .ran _ (.lset address idx n) _ => (e.pre.feed address)[idx]?.any fun m => m.id = n.id
  | .ran t (.del address) _ =>
    match known earlier t with
    | some [⟨.lrange other, .ok items⟩] =>
      other = address && ((e.pre.feed address).map (·.id)).isPrefixOf (items.map (·.id))
    | _ => false
  | .ran _ (.rpush address notifs) _ =>
    ((e.pre.feed address ++ notifs).map Notification.asPushed).isSublist (pushed address earlier)
  | _ => true

theorem careful_careful (h : careful earlier e = true) : Careful earlier e := by
  obtain ⟨label, pre, post⟩ := e
  cases label with
  | ran t c r =>
    cases c with
    | lpush address n => simpa [careful, Careful] using h
    | lset address idx n => simpa [careful, Careful, Option.any_eq_true] using h
    | del address =>
      simp only [careful] at h
      split at h
      · next other items hknown =>
        simp only [Bool.and_eq_true, decide_eq_true_eq, List.isPrefixOf_iff_prefix] at h
        obtain ⟨rfl, hprefix⟩ := h
        exact ⟨items, hknown, hprefix⟩
      · cases h
    | rpush address notifs => simpa [careful, Careful] using h
    | _ => trivial
  | _ => trivial

/-- A recent notice is not in the feed once. -/
def losesOne (address : Address) (tr : List Ev) (s : State) : Bool :=
  ((pushed address tr).take FEED_CAP).any fun n =>
    ((s.feed address).map Notification.asPushed).count n ≠ 1

theorem losesOne_not_kept (h : losesOne address tr s = true) : ¬ Kept address tr s := by
  obtain ⟨n, hn, hcount⟩ := List.any_eq_true.1 h
  intro hkept
  simp [hkept.once n hn] at hcount

theorem pushedBetween_completes :
    ((stage.play pushedBetween ⟨{}, []⟩).get pushedBetween_plays).1.all completes = true := by
  decide

theorem pushedBetween_loses : losesOne 1
    ((stage.play pushedBetween ⟨{}, []⟩).get pushedBetween_plays).1
    ((stage.play pushedBetween ⟨{}, []⟩).get pushedBetween_plays).2.state = true := by decide

/-- The notice that was pushed while the list was being marked is gone. -/
theorem reading_loses_none_fails : ∃ tr pool, PoolRun store ⟨{}, []⟩ tr pool ∧ Initial {} ∧
    (∀ e ∈ tr, Completes e) ∧ pool.threads = [] ∧ ¬ Kept 1 tr pool.state :=
  ⟨_, _, Async.Stage.play_get pushedBetween_plays, fun _ => rfl,
    fun e he => completes_completes (List.all_eq_true.1 pushedBetween_completes e he), rfl,
    losesOne_not_kept pushedBetween_loses⟩

theorem oneByOne_completes :
    ((stage.play oneByOne ⟨{}, []⟩).get oneByOne_plays).1.all completes = true := by decide

theorem oneByOne_careful :
    everywhere careful ((stage.play oneByOne ⟨{}, []⟩).get oneByOne_plays).1 = true := by decide

theorem reading_loses_none_oneByOne : Kept 1
    ((stage.play oneByOne ⟨{}, []⟩).get oneByOne_plays).1
    ((stage.play oneByOne ⟨{}, []⟩).get oneByOne_plays).2.state :=
  reading_loses_none (Async.Stage.play_get oneByOne_plays) (fun _ => rfl)
    (fun e he => completes_completes (List.all_eq_true.1 oneByOne_completes e he)) rfl
    (throughout_of_everywhere (fun _ _ => careful_careful) oneByOne_careful) 1

end Notifications

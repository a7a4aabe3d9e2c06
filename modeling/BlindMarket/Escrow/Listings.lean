import BlindMarket.Escrow.Transactions

/-!
# Listings

The registry as a mirror of the escrow. Every task is announced once and closed
once, when it stops being funded, so the listings can be read off the escrow's
storage; a close that waits behind a native payout is accounted for until the
payee returns.
-/

namespace TaskRegistry

open BlindEscrow (Address)
open Checked

variable {R R' : State} {sender : Address} {id : Nat} {entry : TaskMeta}

/-- Slots and entries belong to each other, and the counter counts the open entries. -/
structure Indexed (R : State) : Prop where
  slot : ∀ id, R.taskExists id = true →
    ∃ listing, R.taskList[R.taskIdToIndex id]? = some listing ∧ listing.taskId = id
  entry : ∀ (i : Nat) listing, R.taskList[i]? = some listing →
    R.taskExists listing.taskId = true ∧ R.taskIdToIndex listing.taskId = i
  count : R.openTaskCount = R.taskList.countP (·.isOpen)

/-- The entry a reader finds for a task. -/
def State.listing (R : State) (id : Nat) : Option TaskMeta :=
  if R.taskExists id then R.taskList[R.taskIdToIndex id]? else none

theorem Indexed.listing_exists (h : Indexed R) : R.listing id = none ↔ R.taskExists id = false := by
  unfold State.listing
  cases hid : R.taskExists id with
  | false => simp
  | true =>
    obtain ⟨listing, hslot, -⟩ := h.slot id hid
    simp [hslot]

theorem State.listing_eq_some : R.listing id = some entry ↔
    R.taskExists id = true ∧ R.taskList[R.taskIdToIndex id]? = some entry := by
  unfold State.listing
  cases R.taskExists id <;> simp

theorem Indexed.listing_id (h : Indexed R) (hl : R.listing id = some entry) :
    entry.taskId = id := by
  obtain ⟨hid, hl⟩ := State.listing_eq_some.mp hl
  obtain ⟨listing', hslot, hsame⟩ := h.slot id hid
  rw [hl] at hslot
  cases hslot
  exact hsame

/-- A fresh task gets an open entry, and nothing else changes. -/
theorem Indexed.publish (now : Nat) (agent : Address) (category zone : String) (reward : Nat)
    (h : Indexed R) (ha : R.authorizedPublishers sender = true) (hp : R.paused = false)
    (hfresh : R.listing id = none) :
    ∃ R', publishTask sender now id agent category zone reward R = .ok R' ∧ Indexed R' ∧
      R'.listing = Function.update R.listing id
        (some ⟨id, agent, category, zone, reward, now, true⟩) ∧
      R'.paused = R.paused ∧ R'.authorizedPublishers = R.authorizedPublishers := by
  have hexists := h.listing_exists.mp hfresh
  refine ⟨{ R with
    taskIdToIndex := Function.update R.taskIdToIndex id R.taskList.length
    taskExists := Function.update R.taskExists id true
    taskList := R.taskList ++ [⟨id, agent, category, zone, reward, now, true⟩]
    openTaskCount := R.openTaskCount + 1 }, ?_, ?_, ?_, rfl, rfl⟩
  · unfold publishTask onlyAuthorized whenNotPaused
    rw [require_pos ha, ok_bind, require_pos hp, ok_bind, require_pos hexists, ok_bind]
    rfl
  · constructor
    case slot =>
      intro j hj
      by_cases hid : j = id
      · subst hid
        exact ⟨⟨j, agent, category, zone, reward, now, true⟩, by simp, rfl⟩
      · simp only [Function.update_of_ne hid] at hj ⊢
        obtain ⟨listing, hslot, hsame⟩ := h.slot j hj
        exact ⟨listing, by rw [List.getElem?_append_left (List.getElem?_eq_some_iff.mp hslot).1,
          hslot], hsame⟩
    case entry =>
      intro i listing hi
      rcases Nat.lt_trichotomy i R.taskList.length with hlt | rfl | hgt
      · rw [List.getElem?_append_left hlt] at hi
        obtain ⟨hlisted, hindex⟩ := h.entry i listing hi
        have hne : listing.taskId ≠ id := by
          rintro rfl
          exact absurd (hexists.symm.trans hlisted) Bool.false_ne_true
        simpa only [Function.update_of_ne hne] using ⟨hlisted, hindex⟩
      · simp only [List.getElem?_concat_length, Option.some.injEq] at hi
        subst hi
        simp
      · rw [List.getElem?_eq_none (by simp; omega)] at hi
        cases hi
    case count => simp [h.count]
  · funext j
    by_cases hid : j = id
    · subst hid
      simp [State.listing]
    · simp only [State.listing, Function.update_of_ne hid]
      cases hj : R.taskExists j with
      | false => rfl
      | true =>
        obtain ⟨listing, hslot, -⟩ := h.slot j hj
        have hlt := (List.getElem?_eq_some_iff.mp hslot).1
        simp [List.getElem?_append_left hlt]

/-- An open entry is closed in place. -/
theorem Indexed.close (h : Indexed R) (ha : R.authorizedPublishers sender = true)
    (hp : R.paused = false) (hl : R.listing id = some entry) (hopen : entry.isOpen = true) :
    ∃ R', closeTask sender id R = .ok R' ∧ Indexed R' ∧
      R'.listing = Function.update R.listing id (some { entry with isOpen := false }) ∧
      R'.paused = R.paused ∧ R'.authorizedPublishers = R.authorizedPublishers := by
  obtain ⟨hexists, hslot⟩ := State.listing_eq_some.mp hl
  have hid := h.listing_id hl
  obtain ⟨hlt, hget⟩ := List.getElem?_eq_some_iff.mp hslot
  have hpos : 1 ≤ R.openTaskCount := by
    rw [h.count]
    exact List.countP_pos_iff.mpr ⟨entry, List.mem_of_getElem? hslot, hopen⟩
  refine ⟨{ R with
    taskList := R.taskList.set (R.taskIdToIndex id) { entry with isOpen := false }
    openTaskCount := R.openTaskCount - 1 }, ?_, ?_, ?_, rfl, rfl⟩
  · have hcount : sub Revert.panic R.openTaskCount 1 = .ok (R.openTaskCount - 1) := if_pos hpos
    unfold closeTask onlyAuthorized whenNotPaused
    rw [require_pos ha, ok_bind, require_pos hp, ok_bind, require_pos hexists, ok_bind]
    dsimp only
    rw [hslot, orElse, ok_bind, require_pos hopen, ok_bind, hcount, ok_bind]
    rfl
  · constructor
    case slot =>
      intro j hj
      obtain ⟨listing', hslot', hsame⟩ := h.slot j hj
      by_cases hindex : R.taskIdToIndex id = R.taskIdToIndex j
      · refine ⟨{ entry with isOpen := false }, by simp [← hindex, hlt], ?_⟩
        rw [← hindex, hslot] at hslot'
        cases hslot'
        exact hsame
      · exact ⟨listing', by simp [List.getElem?_set_ne hindex, hslot'], hsame⟩
    case entry =>
      intro i listing' hi
      by_cases hindex : R.taskIdToIndex id = i
      · subst hindex
        simp only [List.getElem?_set_self hlt, Option.some.injEq] at hi
        subst hi
        exact h.entry _ entry hslot
      · rw [List.getElem?_set_ne hindex] at hi
        exact h.entry i listing' hi
    case count =>
      simp [h.count, List.countP_set, hlt, hget, hopen]
  · funext j
    by_cases hj : j = id
    · subst hj
      simp [State.listing, hexists, hlt]
    · simp only [State.listing, Function.update_of_ne hj]
      cases hexists' : R.taskExists j with
      | false => rfl
      | true =>
        have hindex : R.taskIdToIndex id ≠ R.taskIdToIndex j := by
          intro hindex
          obtain ⟨listing', hslot', hsame⟩ := h.slot j hexists'
          rw [← hindex, hslot] at hslot'
          cases hslot'
          exact hj (hsame.symm.trans hid)
        simp [List.getElem?_set_ne hindex]

theorem Indexed.distinct (h : Indexed R) : (R.taskList.map TaskMeta.taskId).Nodup := by
  rw [List.Nodup, List.pairwise_map, List.pairwise_iff_getElem]
  intro i j hi hj hij hsame
  obtain ⟨-, hindex⟩ := h.entry i _ (List.getElem?_eq_getElem hi)
  obtain ⟨-, hindex'⟩ := h.entry j _ (List.getElem?_eq_getElem hj)
  rw [hsame] at hindex
  omega

/-- The counter is the number of tasks whose listing is open. -/
theorem Indexed.count_card (h : Indexed R) {ids : Finset Nat}
    (hids : ∀ id, id ∈ ids ↔ ∃ listing, R.listing id = some listing ∧ listing.isOpen = true) :
    R.openTaskCount = ids.card := by
  have hopen : ids = ((R.taskList.filter (·.isOpen)).map TaskMeta.taskId).toFinset := by
    ext id
    rw [hids, List.mem_toFinset, List.mem_map]
    constructor
    · rintro ⟨listing, hl, hopen⟩
      obtain ⟨-, hslot⟩ := State.listing_eq_some.mp hl
      exact ⟨listing, List.mem_filter.mpr ⟨List.mem_of_getElem? hslot, hopen⟩, h.listing_id hl⟩
    · rintro ⟨listing, hmem, rfl⟩
      obtain ⟨hmem, hopen⟩ := List.mem_filter.mp hmem
      obtain ⟨i, hi⟩ := List.mem_iff_getElem?.mp hmem
      obtain ⟨hexists, hindex⟩ := h.entry i listing hi
      exact ⟨listing, State.listing_eq_some.mpr ⟨hexists, by rw [hindex, hi]⟩, hopen⟩
  rw [hopen, List.toFinset_card_of_nodup (h.distinct.sublist (List.filter_sublist.map _)),
    List.length_map, h.count, List.countP_eq_length_filter]

/-- The same listings; the settings may differ. -/
structure SameListings (R R' : State) : Prop where
  taskList : R'.taskList = R.taskList
  taskIdToIndex : R'.taskIdToIndex = R.taskIdToIndex
  taskExists : R'.taskExists = R.taskExists
  openTaskCount : R'.openTaskCount = R.openTaskCount

theorem SameListings.indexed (h : SameListings R R') (hR : Indexed R) : Indexed R' := by
  obtain ⟨hlist, hindex, hexists, hcount⟩ := h
  constructor
  case slot => rw [hlist, hindex, hexists]; exact hR.slot
  case entry => rw [hlist, hindex, hexists]; exact hR.entry
  case count => rw [hlist, hcount]; exact hR.count

theorem SameListings.listing (h : SameListings R R') : R'.listing = R.listing := by
  funext id
  simp only [State.listing, h.taskList, h.taskIdToIndex, h.taskExists]

/-- Nobody but an authorised publisher changes the listings. -/
theorem enter_same {now : Nat} {op : Op} (hs : R.authorizedPublishers sender ≠ true)
    (h : enter sender now op R = .ok R') : SameListings R R' := by
  cases op with
  | publishTask id agent category zone reward =>
    simp only [enter, publishTask, onlyAuthorized, seq_eq_ok, require_eq_ok, exists_const] at h
    exact absurd h.1 hs
  | closeTask id =>
    simp only [enter, closeTask, onlyAuthorized, seq_eq_ok, require_eq_ok, exists_const] at h
    exact absurd h.1 hs
  | proposeAdmin _ | authorizePublisher _ | pause | unpause =>
    simp only [enter, onlyAdmin, whenNotPaused, seq_eq_ok, require_eq_ok, exists_const, pure_eq,
      Except.ok.injEq] at h
    obtain ⟨-, -, rfl⟩ := h
    exact ⟨rfl, rfl, rfl, rfl⟩
  | acceptAdmin | revokePublisher _ =>
    simp only [enter, onlyAdmin, seq_eq_ok, require_eq_ok, exists_const, pure_eq,
      Except.ok.injEq] at h
    obtain ⟨-, rfl⟩ := h
    exact ⟨rfl, rfl, rfl, rfl⟩

end TaskRegistry

namespace BlindEscrow

open Checked Runs Finset

variable {D : Deployment} {c c' c₀ : Config} {e : Event} {tr : Trace} {w w' : World}
  {s s' : Escrow} {x : Ctx} {id : Nat} {op : Op} {r : Row} {m : Msg} {l todo : List Action}
  {stop : Stop} {R R' : TaskRegistry.State}

/-! ## Announcements among the interactions -/

/-- The tasks a list of interactions publishes, with their poster and amount. -/
def published : List Action → List (Nat × Address × Nat)
  | [] => []
  | .publish id agent _ _ amount :: rest => (id, agent, amount) :: published rest
  | _ :: rest => published rest

/-- The tasks whose listing a list of interactions closes. -/
def closed : List Action → List Nat
  | [] => []
  | .closeListing id :: rest => id :: closed rest
  | _ :: rest => closed rest

theorem published_append (l l' : List Action) : published (l ++ l') = published l ++ published l' := by
  induction l with
  | nil => rfl
  | cons a l ih =>
    cases a with
    | publish id agent category zone amount => exact congrArg _ ih
    | _ => exact ih

theorem closed_append (l l' : List Action) : closed (l ++ l') = closed l ++ closed l' := by
  induction l with
  | nil => rfl
  | cons a l ih =>
    cases a with
    | closeListing id => exact congrArg _ ih
    | _ => exact ih

@[simp] theorem published_guarded (l : List Action) : published (guarded l) = published l := by
  simp [guarded, published, published_append]

@[simp] theorem closed_guarded (l : List Action) : closed (guarded l) = closed l := by
  simp [guarded, closed, closed_append]

theorem announces_emits (h : ∀ a ∈ l, ∃ log, a = .emit log) : published l = [] ∧ closed l = [] := by
  induction l with
  | nil => exact ⟨rfl, rfl⟩
  | cons a l ih =>
    obtain ⟨log, rfl⟩ := h a (by simp)
    exact ih fun b hb => h b (by simp [hb])

/-- A call about a task closes its listing exactly when the task stops being funded, which it is
never again. -/
theorem Move.closes (h : Move x s id op r todo) :
    published todo = [] ∧
      ((s.tasks id).status = .funded ∧ r.task.status ≠ .funded ∧ closed todo = [id] ∨
        ((s.tasks id).status = .funded ↔ r.task.status = .funded) ∧ closed todo = []) := by
  cases h with
  | assign op worker ext hp hop ho hst => exact ⟨rfl, .inl ⟨hst, by simp, rfl⟩⟩
  | evidence hash ext hp hs hst =>
    refine ⟨rfl, .inr ⟨?_, rfl⟩⟩
    rcases hst with hst | ⟨hst, -⟩ <;> simp [hst]
  | fail op emitted disputed hl hp hop hs hw hst hem hdi =>
    obtain ⟨hpublished, hclosed⟩ := announces_emits hem
    have hdisputed : published disputed = [] ∧ closed disputed = [] := by
      rcases hdi with rfl | rfl <;> exact ⟨rfl, rfl⟩
    rw [published_guarded, closed_guarded, published_append, closed_append, hpublished, hclosed,
      hdisputed.1, hdisputed.2]
    exact ⟨rfl, .inr ⟨by simp [hst], rfl⟩⟩
  | complete op fee score before after hl hfee hle h =>
    have hst : (s.tasks id).status ≠ .funded := by rcases h.status with h | h <;> simp [h]
    cases h with
    | passed op fee' emitted hp hop hs hw hst' hfee' hem =>
      obtain ⟨hpublished, hclosed⟩ := announces_emits hem
      rw [published_guarded, closed_guarded, published_append, published_append, closed_append,
        closed_append, hpublished, hclosed]
      exact ⟨rfl, .inr ⟨by simp [hst], rfl⟩⟩
    | ruled | released => exact ⟨rfl, .inr ⟨by simp [hst], rfl⟩⟩
  | refund op after hl h =>
    cases h with
    | withdrawn hp hs hst => exact ⟨rfl, .inl ⟨hst, by simp, rfl⟩⟩
    | ghosted ext hp hs hext hd hst => exact ⟨rfl, .inr ⟨by simp [hst], rfl⟩⟩
    | failed ext hp hs hext hd hst => exact ⟨rfl, .inr ⟨by simp [hst], rfl⟩⟩
    | stale ext hp hs hext hd hst => exact ⟨rfl, .inr ⟨by simp [hst], rfl⟩⟩
    | ruled hs hst => exact ⟨rfl, .inr ⟨by simp [hst], rfl⟩⟩
  | escalate ext hl hp hs hext hd hst => exact ⟨rfl, .inr ⟨by simp [hst], rfl⟩⟩
  | dispute ext hp hs hst =>
    refine ⟨rfl, .inr ⟨?_, rfl⟩⟩
    rcases hst with hst | hst <;> simp [hst]
  | submit => exact ⟨rfl, .inr ⟨Iff.rfl, rfl⟩⟩
  | pick op winner scorecard judge fee hl h =>
    exact ⟨rfl, .inl ⟨h.open_funded.2, by simp, rfl⟩⟩
  | void op scorecard judge hl h => exact ⟨rfl, .inl ⟨h.open_funded.2, by simp, rfl⟩⟩

theorem announces_verifierEvents (i : TaskInput) (next : Nat) :
    published (verifierEvents i next) = [] ∧ closed (verifierEvents i next) = [] := by
  unfold verifierEvents
  split <;> exact ⟨rfl, rfl⟩

theorem announces_paymentOf (x : Ctx) (token : Address) (amount : Nat) :
    published (paymentOf x token amount) = [] ∧ closed (paymentOf x token amount) = [] := by
  unfold paymentOf
  split <;> exact ⟨rfl, rfl⟩

/-- What publishing the created tasks in order looks like. -/
def announced (sender : Address) : List TaskInput → Nat → List (Nat × Address × Nat)
  | [], _ => []
  | i :: tasks, next => (next, sender, i.amount) :: announced sender tasks (next + 1)

theorem mem_announced {sender : Address} {tasks : List TaskInput} {next : Nat}
    {p : Nat × Address × Nat} : p ∈ announced sender tasks next ↔
      ∃ i, inputAt next tasks p.1 = some i ∧ p.2 = (sender, i.amount) := by
  induction tasks generalizing next with
  | nil => simp [announced]
  | cons i tasks ih =>
    rw [announced, List.mem_cons, ih, inputAt_cons]
    constructor
    · rintro (rfl | ⟨j, hj, hp⟩)
      · exact ⟨i, by simp, rfl⟩
      · have hne : p.1 ≠ next := by
          have := (inputAt_eq_some hj).1
          omega
        exact ⟨j, by rw [if_neg hne, hj], hp⟩
    · rintro ⟨j, hj, hp⟩
      split at hj
      · rename_i hnext
        cases hj
        exact .inl (Prod.ext hnext hp)
      · exact .inr ⟨j, hj, hp⟩

theorem announced_nodup (sender : Address) (tasks : List TaskInput) (next : Nat) :
    ((announced sender tasks next).map Prod.fst).Nodup := by
  induction tasks generalizing next with
  | nil => exact List.nodup_nil
  | cons i tasks ih =>
    refine List.nodup_cons.mpr ⟨?_, ih (next + 1)⟩
    intro hmem
    obtain ⟨p, hp, rfl⟩ := List.mem_map.mp hmem
    obtain ⟨j, hj, -⟩ := mem_announced.mp hp
    have := (inputAt_eq_some hj).1
    omega

theorem announces_announceAll (x : Ctx) (token : Address) (tasks : List TaskInput) (next : Nat) :
    published (announceAll x token tasks next) = announced x.sender tasks next ∧
      closed (announceAll x token tasks next) = [] := by
  induction tasks generalizing next with
  | nil => exact ⟨rfl, rfl⟩
  | cons i tasks ih =>
    obtain ⟨hpublished, hclosed⟩ := announces_verifierEvents i next
    simp only [announceAll, published_append, closed_append, hpublished, hclosed, ih]
    exact ⟨rfl, rfl⟩

/-- A call that is not about a task publishes what it creates and closes nothing. -/
theorem Effect.publishes (h : Effect x s op s' todo) (hop : op.taskId = none) :
    published todo = announced x.sender op.inputs s.nextTaskId ∧ closed todo = [] := by
  cases h with
  | move id op r todo hid => rw [hop] at hid; cases hid
  | create op token i hl hp hop' =>
    have hin : op.inputs = [i] := by
      rcases hop' with ⟨rfl, hv⟩ | rfl
      · rw [Op.inputs, ← hv]
      · rfl
    obtain ⟨h₁, h₂⟩ := announces_verifierEvents i s.nextTaskId
    obtain ⟨h₃, h₄⟩ := announces_paymentOf x token i.amount
    simp only [published_guarded, closed_guarded, published_append, closed_append, h₁, h₂, h₃, h₄,
      hin]
    exact ⟨rfl, rfl⟩
  | batch token tasks =>
    obtain ⟨h₁, h₂⟩ := announces_announceAll x token tasks s.nextTaskId
    simp only [published_guarded, closed_guarded, published_append, closed_append, h₁, h₂]
    exact ⟨List.append_nil _, rfl⟩
  | createOpen token i mode window =>
    obtain ⟨h₁, h₂⟩ := announces_verifierEvents i s.nextTaskId
    obtain ⟨h₃, h₄⟩ := announces_paymentOf x token i.amount
    simp only [published_guarded, closed_guarded, published_append, closed_append, h₁, h₂, h₃, h₄]
    exact ⟨rfl, rfl⟩
  | configure op _ _ _ _ _ _ _ _ _ _ _ _ hin => rw [hin]; exact ⟨rfl, rfl⟩
  | pause | unpause | recordPauseStart => exact ⟨rfl, rfl⟩

/-! ## The mirror -/

/-- The registry lists the created tasks with their poster and amount, and those that are funded as
open, up to the announcements still to be made. -/
structure Mirror (s : Escrow) (R : TaskRegistry.State) (opens : List (Nat × Address × Nat))
    (closes : List Nat) : Prop where
  indexed : TaskRegistry.Indexed R
  opening : ∀ p ∈ opens, 0 < p.1 ∧ p.1 < s.nextTaskId ∧ (s.tasks p.1).status = .funded ∧
    p.2 = ((s.tasks p.1).agent, (s.tasks p.1).amount)
  distinct : (opens.map Prod.fst).Nodup
  closing : ∀ id ∈ closes, 0 < id ∧ id < s.nextTaskId ∧ (s.tasks id).status ≠ .funded
  once : closes.Nodup
  missing : ∀ id, R.listing id = none ↔
    ¬ (0 < id ∧ id < s.nextTaskId) ∨ id ∈ opens.map Prod.fst
  shown : ∀ id listing, R.listing id = some listing → listing.agent = (s.tasks id).agent ∧
    listing.reward = (s.tasks id).amount ∧
    (listing.isOpen = true ↔ (s.tasks id).status = .funded ∨ id ∈ closes)

variable {opens : List (Nat × Address × Nat)} {closes : List Nat}

/-- The escrow can list now. -/
structure CanList (D : Deployment) (w : World) : Prop where
  connected : registryConnected D w
  running : w.registry.paused = false
  authorized : w.registry.authorizedPublishers D.self = true

theorem Mirror.publish (now : Nat) {agent : Address} (category zone : String) {amount : Nat}
    (h : Mirror s R ((id, agent, amount) :: opens) closes) (hp : R.paused = false)
    (ha : R.authorizedPublishers D.self = true) :
    ∃ R', TaskRegistry.publishTask D.self now id agent category zone amount R = .ok R' ∧
      Mirror s R' opens closes ∧ R'.paused = R.paused ∧
      R'.authorizedPublishers = R.authorizedPublishers := by
  obtain ⟨hpos, hlt, hst, hterms⟩ := h.opening _ List.mem_cons_self
  have hdistinct := List.nodup_cons.mp h.distinct
  obtain ⟨hagent, hamount⟩ := Prod.mk.inj hterms
  obtain ⟨R', hok, hindexed, hlisting, hsame⟩ := TaskRegistry.Indexed.publish now agent category
    zone amount h.indexed ha hp ((h.missing id).mpr (.inr List.mem_cons_self))
  refine ⟨R', hok, ⟨hindexed, fun p hp => h.opening p (List.mem_cons_of_mem _ hp), hdistinct.2,
    h.closing, h.once, ?_, ?_⟩, hsame⟩
  · intro j
    rw [hlisting]
    by_cases hj : j = id
    · subst hj
      simp only [Function.update_self, reduceCtorEq, false_iff, not_or, not_not]
      exact ⟨⟨hpos, hlt⟩, hdistinct.1⟩
    · rw [Function.update_of_ne hj, h.missing]
      simp [hj]
  · intro j listing hl
    rw [hlisting] at hl
    by_cases hj : j = id
    · subst hj
      rw [Function.update_self, Option.some.injEq] at hl
      subst hl
      exact ⟨hagent, hamount, by simp [hst]⟩
    · rw [Function.update_of_ne hj] at hl
      exact h.shown j listing hl

theorem Mirror.close (h : Mirror s R opens (id :: closes)) (hp : R.paused = false)
    (ha : R.authorizedPublishers D.self = true) :
    ∃ R', TaskRegistry.closeTask D.self id R = .ok R' ∧ Mirror s R' opens closes ∧
      R'.paused = R.paused ∧ R'.authorizedPublishers = R.authorizedPublishers := by
  obtain ⟨hpos, hlt, hst⟩ := h.closing id List.mem_cons_self
  have honce := List.nodup_cons.mp h.once
  obtain ⟨listing, hl⟩ : ∃ listing, R.listing id = some listing := by
    rw [← Option.ne_none_iff_exists']
    intro hnone
    rcases (h.missing id).mp hnone with hnot | hmem
    · exact hnot ⟨hpos, hlt⟩
    · obtain ⟨p, hp, rfl⟩ := List.mem_map.mp hmem
      exact hst (h.opening p hp).2.2.1
  obtain ⟨hagent, hamount, hopen⟩ := h.shown id listing hl
  obtain ⟨R', hok, hindexed, hlisting, hsame⟩ :=
    h.indexed.close ha hp hl (hopen.mpr (.inr List.mem_cons_self))
  refine ⟨R', hok, ⟨hindexed, h.opening, h.distinct,
    fun j hj => h.closing j (List.mem_cons_of_mem _ hj), honce.2, ?_, ?_⟩, hsame⟩
  · intro j
    rw [hlisting, ← h.missing]
    by_cases hj : j = id
    · subst hj
      simp [hl]
    · rw [Function.update_of_ne hj]
  · intro j listing' hl'
    rw [hlisting] at hl'
    by_cases hj : j = id
    · subst hj
      rw [Function.update_self, Option.some.injEq] at hl'
      subst hl'
      exact ⟨hagent, hamount, by simp [hst, honce.1]⟩
    · rw [Function.update_of_ne hj] at hl'
      simpa [hj] using h.shown j listing' hl'

theorem published_cons (a : Action) (l : List Action) :
    published (a :: l) = published [a] ++ published l := published_append [a] l

theorem closed_cons (a : Action) (l : List Action) : closed (a :: l) = closed [a] ++ closed l :=
  closed_append [a] l

/-- What an interaction does to the registry. -/
theorem act_registry {a : Action} {paid : List Payment} {yields : Bool}
    (h : act D a w = .ok (w', paid, yields)) :
    w'.registry = w.registry ∧
        (¬ registryConnected D w ∨ published [a] = [] ∧ closed [a] = []) ∨
      (∃ id agent category zone amount, a = .publish id agent category zone amount ∧
        w'.registry = attempt (TaskRegistry.publishTask D.self w.timestamp id agent category zone
          amount) w.registry) ∨
      ∃ id, a = .closeListing id ∧
        w'.registry = attempt (TaskRegistry.closeTask D.self id) w.registry := by
  cases a with
  | publish id agent category zone amount =>
    simp only [act] at h
    split at h
    all_goals
      simp only [pure_eq, Except.ok.injEq, Prod.mk.injEq] at h
      obtain ⟨rfl, -⟩ := h
    · exact .inr (.inl ⟨id, agent, category, zone, amount, rfl, rfl⟩)
    · rename_i hconnected
      exact .inl ⟨rfl, .inl hconnected⟩
  | closeListing id =>
    simp only [act] at h
    split at h
    all_goals
      simp only [pure_eq, Except.ok.injEq, Prod.mk.injEq] at h
      obtain ⟨rfl, -⟩ := h
    · exact .inr (.inr ⟨id, rfl, rfl⟩)
    · rename_i hconnected
      exact .inl ⟨rfl, .inl hconnected⟩
  | transferPayout task party amount =>
    simp only [act, transferPayout] at h
    split at h
    · simp only [pure_eq, Except.ok.injEq, Prod.mk.injEq] at h
      obtain ⟨rfl, -⟩ := h
      exact .inl ⟨rfl, .inr ⟨rfl, rfl⟩⟩
    · simp only [seq_eq_ok, require_eq_ok, exists_const, orElse_eq_ok, pure_eq, Except.ok.injEq,
        Prod.mk.injEq] at h
      obtain ⟨-, ledger, -, rfl, -⟩ := h
      exact .inl ⟨rfl, .inr ⟨rfl, rfl⟩⟩
  | pull token payer amount =>
    simp only [act, seq_eq_ok, orElse_eq_ok, pure_eq, Except.ok.injEq, Prod.mk.injEq] at h
    obtain ⟨ledger, -, rfl, -⟩ := h
    exact .inl ⟨rfl, .inr ⟨rfl, rfl⟩⟩
  | lock | unlock | emit _ =>
    simp only [act, pure_eq, Except.ok.injEq, Prod.mk.injEq] at h
    obtain ⟨rfl, -⟩ := h
    exact .inl ⟨rfl, .inr ⟨rfl, rfl⟩⟩
  | rate _ _ | recordDispute _ =>
    simp only [act] at h
    split at h
    all_goals
      simp only [pure_eq, Except.ok.injEq, Prod.mk.injEq] at h
      obtain ⟨rfl, -⟩ := h
      exact .inl ⟨rfl, .inr ⟨rfl, rfl⟩⟩

/-- An interaction makes the announcement it carries. -/
theorem Mirror.act {a : Action} {paid : List Payment} {yields : Bool}
    (h : Mirror w.escrow w.registry (published (a :: l)) (closed (a :: l) ++ closes))
    (hcan : published [a] ≠ [] ∨ closed [a] ≠ [] → CanList D w)
    (ha : act D a w = .ok (w', paid, yields)) :
    Mirror w'.escrow w'.registry (published l) (closed l ++ closes) ∧
      w'.registry.paused = w.registry.paused ∧
      w'.registry.authorizedPublishers = w.registry.authorizedPublishers := by
  rw [(act_escrow ha).1]
  rcases act_registry ha with ⟨hsame, hquiet⟩ | ⟨id, agent, category, zone, amount, rfl, hnew⟩ |
    ⟨id, rfl, hnew⟩
  · have hnone : published [a] = [] ∧ closed [a] = [] := by
      by_contra hne
      rcases hquiet with hconnected | hquiet
      · exact hconnected (hcan (not_and_or.mp hne)).connected
      · exact hne hquiet
    rw [published_cons, closed_cons, hnone.1, hnone.2] at h
    rw [hsame]
    exact ⟨h, rfl, rfl⟩
  · obtain ⟨-, hrunning, hauthorized⟩ := hcan (.inl (by simp [published]))
    obtain ⟨R', hok, hmirror, hsame⟩ := Mirror.publish (D := D) w.timestamp category zone h
      hrunning hauthorized
    rw [hnew, attempt, hok]
    exact ⟨hmirror, hsame⟩
  · obtain ⟨-, hrunning, hauthorized⟩ := hcan (.inr (by simp [closed]))
    obtain ⟨R', hok, hmirror, hsame⟩ := Mirror.close (D := D) h hrunning hauthorized
    rw [hnew, attempt, hok]
    exact ⟨hmirror, hsame⟩

theorem CanList.frame (h : CanList D w) (hescrow : w'.escrow = w.escrow)
    (hsame : w'.registry.paused = w.registry.paused ∧
      w'.registry.authorizedPublishers = w.registry.authorizedPublishers) : CanList D w' := by
  refine ⟨?_, hsame.1.trans h.running, hsame.2 ▸ h.authorized⟩
  unfold registryConnected
  rw [hescrow]
  exact h.connected

/-- A call that goes on makes its announcements in order, the rest when the payee returns. -/
theorem Mirror.drive (h : Mirror w.escrow w.registry (published l) (closed l ++ closes))
    (hcan : published l ≠ [] ∨ closed l ≠ [] → CanList D w) (hd : drive D l w = .ok stop) :
    Mirror stop.world.escrow stop.world.registry (published (stop.rest.getD []))
      (closed (stop.rest.getD []) ++ closes) := by
  induction l generalizing w stop with
  | nil =>
    rw [drive_nil hd]
    exact h
  | cons a l ih =>
    have hhead : published [a] ≠ [] ∨ closed [a] ≠ [] → CanList D w := by
      intro hne
      refine hcan (hne.imp (fun hne => ?_) fun hne => ?_)
      · rw [published_cons]
        exact List.append_ne_nil_of_left_ne_nil hne _
      · rw [closed_cons]
        exact List.append_ne_nil_of_left_ne_nil hne _
    obtain ⟨w₁, paid, yields, ha, hcase⟩ := drive_cons hd
    obtain ⟨hmirror, hsame⟩ := h.act hhead ha
    rcases hcase with ⟨-, rfl⟩ | ⟨-, stop', hd', rfl⟩
    · exact hmirror
    · have htail : published l ≠ [] ∨ closed l ≠ [] → CanList D w₁ := by
        intro hne
        refine CanList.frame (hcan ?_) (act_escrow ha).1 hsame
        refine hne.imp (fun hne => ?_) fun hne => ?_
        · rw [published_cons]
          exact List.append_ne_nil_of_right_ne_nil _ hne
        · rw [closed_cons]
          exact List.append_ne_nil_of_right_ne_nil _ hne
      have hrest := ih hmirror htail hd'
      exact hrest

/-- A call about a task announces what its move changes. -/
theorem Mirror.moved (h : Mirror w.escrow w.registry [] closes) (hw : Sound D w)
    (hs : Sender D m.sender) (heff : Effect (w.ctx m) w.escrow m.op s' todo)
    (hop : m.op.taskId = some id) :
    Mirror s' w.registry (published todo) (closed todo ++ closes) := by
  obtain ⟨hmove, hpos, hlt, hr⟩ := hw.target hs heff hop
  have hkeep : s'.nextTaskId = w.escrow.nextTaskId := (heff.task_settings hop).2.2
  have hother : ∀ j, j ≠ id → s'.row j = w.escrow.row j := by
    intro j hj
    rcases heff.row j with ⟨-, -, hrow⟩ | ⟨hj', -⟩ | ⟨_, _, _, hnone, -⟩
    · exact hrow
    · exact absurd (Option.some.inj (hop.symm.trans hj')) (Ne.symm hj)
    · rw [hop] at hnone
      cases hnone
  have hterms : ∀ j, (s'.tasks j).agent = (w.escrow.tasks j).agent ∧
      (s'.tasks j).amount = (w.escrow.tasks j).amount := by
    intro j
    by_cases hj : j = id
    · subst hj
      exact ⟨hmove.sameTerms.agent, hmove.sameTerms.amount⟩
    · exact ⟨congrArg (fun r => r.task.agent) (hother j hj),
        congrArg (fun r => r.task.amount) (hother j hj)⟩
  have hstatus : ∀ j, j ≠ id → (s'.tasks j).status = (w.escrow.tasks j).status :=
    fun j hj => congrArg (fun r => r.task.status) (hother j hj)
  have hshown : ∀ j listing, w.registry.listing j = some listing →
      listing.agent = (s'.tasks j).agent ∧ listing.reward = (s'.tasks j).amount ∧
      (listing.isOpen = true ↔ (w.escrow.tasks j).status = .funded ∨ j ∈ closes) := by
    intro j listing hl
    rw [(hterms j).1, (hterms j).2]
    exact h.shown j listing hl
  have hmissing : ∀ j, w.registry.listing j = none ↔
      ¬ (0 < j ∧ j < s'.nextTaskId) ∨ j ∈ ([] : List (Nat × Address × Nat)).map Prod.fst := by
    intro j
    rw [hkeep]
    exact h.missing j
  obtain ⟨hpublished, ⟨hst, hst', hclosed⟩ | ⟨hiff, hclosed⟩⟩ := hmove.closes
  · -- the task stops being funded and its listing is closed
    have hfresh : id ∉ closes := fun hmem => (h.closing id hmem).2.2 hst
    rw [hpublished, hclosed]
    refine ⟨h.indexed, by simp, by simp, ?_, List.nodup_cons.mpr ⟨hfresh, h.once⟩, hmissing, ?_⟩
    · intro j hj
      rw [hkeep]
      rcases List.mem_cons.mp hj with rfl | hj
      · exact ⟨hpos, hlt, hst'⟩
      · have hne : j ≠ id := fun h => hfresh (h ▸ hj)
        rw [hstatus j hne]
        exact h.closing j hj
    · intro j listing hl
      obtain ⟨hagent, hamount, hopen⟩ := hshown j listing hl
      refine ⟨hagent, hamount, hopen.trans ?_⟩
      by_cases hj : j = id
      · subst hj
        simp [hst]
      · rw [hstatus j hj]
        simp [hj]
  · -- the task was and stays funded, or was not and is not
    have hiff' : ∀ j, (w.escrow.tasks j).status = .funded ↔ (s'.tasks j).status = .funded := by
      intro j
      by_cases hj : j = id
      · subst hj
        exact hiff
      · rw [hstatus j hj]
    rw [hpublished, hclosed]
    refine ⟨h.indexed, by simp, by simp, ?_, h.once, hmissing, ?_⟩
    · intro j hj
      rw [hkeep]
      obtain ⟨hpos, hlt, hst⟩ := h.closing j hj
      exact ⟨hpos, hlt, fun hst' => hst ((hiff' j).mpr hst')⟩
    · intro j listing hl
      obtain ⟨hagent, hamount, hopen⟩ := hshown j listing hl
      exact ⟨hagent, hamount, by rw [hopen, hiff' j]; rfl⟩

/-- Any other call announces the tasks it creates. -/
theorem Mirror.created (h : Mirror w.escrow w.registry [] closes) (hw : Sound D w)
    (heff : Effect (w.ctx m) w.escrow m.op s' todo) (hop : m.op.taskId = none) :
    Mirror s' w.registry (published todo) (closed todo ++ closes) := by
  have hnext := heff.nextTaskId
  obtain ⟨hpublished, hclosed⟩ := heff.publishes hop
  have hold : ∀ j, j < w.escrow.nextTaskId → s'.row j = w.escrow.row j := by
    intro j hj
    rcases heff.row j with ⟨-, -, hrow⟩ | ⟨hj', -⟩ | ⟨_, i, _, -, hin, -⟩
    · exact hrow
    · rw [hop] at hj'
      cases hj'
    · have := (inputAt_eq_some hin).1
      omega
  have hnew : ∀ j, j ∈ (published todo).map Prod.fst ↔
      w.escrow.nextTaskId ≤ j ∧ j < s'.nextTaskId := by
    intro j
    rw [hpublished, List.mem_map]
    constructor
    · rintro ⟨p, hp, rfl⟩
      obtain ⟨i, hi, -⟩ := mem_announced.mp hp
      have := inputAt_eq_some hi
      omega
    · intro hj
      cases hi : inputAt w.escrow.nextTaskId m.op.inputs j with
      | none =>
        have := inputAt_eq_none.mp hi
        omega
      | some i => exact ⟨(j, _, i.amount), mem_announced.mpr ⟨i, hi, rfl⟩, rfl⟩
  have hpos := hw.next
  rw [hclosed]
  constructor
  case indexed => exact h.indexed
  case opening =>
    intro p hp
    have hmem := (hnew p.1).mp (List.mem_map.mpr ⟨p, hp, rfl⟩)
    rw [hpublished] at hp
    obtain ⟨i, hi, hterms⟩ := mem_announced.mp hp
    refine ⟨by omega, hmem.2, ?_⟩
    rcases heff.row p.1 with ⟨-, hnone, -⟩ | ⟨hid, -⟩ | ⟨token, i', o, -, hi', -, -, -, -, hrow⟩
    · rw [hi] at hnone
      cases hnone
    · rw [hop] at hid
      cases hid
    · rw [hi] at hi'
      cases hi'
      have htask : s'.tasks p.1 = newTask (w.ctx m) token i := congrArg Row.task hrow
      rw [htask, hterms]
      exact ⟨rfl, rfl⟩
  case distinct =>
    rw [hpublished]
    exact announced_nodup _ _ _
  case closing =>
    intro j hj
    obtain ⟨hpos, hlt, hst⟩ := h.closing j hj
    refine ⟨hpos, by omega, ?_⟩
    rwa [show (s'.tasks j).status = (w.escrow.tasks j).status from
      congrArg (fun r => r.task.status) (hold j hlt)]
  case once => exact h.once
  case missing =>
    intro j
    rw [h.missing, hnew]
    simp only [List.map_nil, List.not_mem_nil, or_false]
    omega
  case shown =>
    intro j listing hl
    have hlt : j < w.escrow.nextTaskId := by
      by_contra hle
      have hnone := (h.missing j).mpr (.inl fun hj => hle hj.2)
      rw [hl] at hnone
      cases hnone
    rw [show s'.tasks j = w.escrow.tasks j from congrArg Row.task (hold j hlt)]
    exact h.shown j listing hl

/-- The announcements of a call bring the mirror up to date with what it stored. -/
theorem Mirror.enter (h : Mirror w.escrow w.registry [] closes) (hw : Sound D w)
    (hs : Sender D m.sender) (heff : Effect (w.ctx m) w.escrow m.op s' todo) :
    Mirror s' w.registry (published todo) (closed todo ++ closes) := by
  cases hop : m.op.taskId with
  | some id => exact h.moved hw hs heff hop
  | none => exact h.created hw heff hop

theorem Mirror.frame (h : Mirror s R opens closes) (hsame : TaskRegistry.SameListings R R') :
    Mirror s R' opens closes where
  indexed := hsame.indexed h.indexed
  opening := h.opening
  distinct := h.distinct
  closing := h.closing
  once := h.once
  missing := by rw [hsame.listing]; exact h.missing
  shown := by rw [hsame.listing]; exact h.shown

/-! ## Along a run -/

/-- In this step the escrow is the only authorised publisher, and as soon as there are tasks the
registry is connected and not paused. -/
structure ListedBy (D : Deployment) (e : Event) : Prop where
  only : ∀ a, e.pre.registry.authorizedPublishers a = true → a = D.self
  ready : 1 < e.post.escrow.nextTaskId → CanList D e.pre

def pendingCloses (stack : List Frame) : List Nat := stack.flatMap fun f => closed f.rest

/-- The mirror between two steps: only closes wait, with the calls they belong to. -/
def Mirrored (c : Config) : Prop :=
  Mirror c.world.escrow c.world.registry [] (pendingCloses c.stack) ∧
    ∀ f ∈ c.stack, published f.rest = []

theorem drive_unpublished (hl : published l = []) (h : drive D l w = .ok stop) :
    published (stop.rest.getD []) = [] := by
  induction l generalizing w stop with
  | nil => rw [drive_nil h]; rfl
  | cons a l ih =>
    rw [published_cons, List.append_eq_nil_iff] at hl
    obtain ⟨w₁, paid, yields, ha, ⟨-, rfl⟩ | ⟨-, stop', hd, rfl⟩⟩ := drive_cons h
    · exact hl.2
    · exact (ih hl.2 hd :)

/-- A call that announces something leaves the registry connected as it is. -/
theorem Effect.announces_registry (h : Effect x s op s' todo)
    (hne : published todo ≠ [] ∨ closed todo ≠ []) : s'.taskRegistry = s.taskRegistry := by
  cases h with
  | batch => exact (recordedAll_same _ _ _ _).1.taskRegistry
  | configure => rcases hne with h | h <;> exact absurd rfl h
  | move | create | createOpen | pause | unpause | recordPauseStart => rfl

/-- Where something is announced there are tasks. -/
theorem Mirror.announces_next (h : Mirror s R opens closes) (hne : opens ≠ [] ∨ closes ≠ []) :
    1 < s.nextTaskId := by
  rcases hne with hne | hne
  · obtain ⟨p, hp⟩ := List.exists_mem_of_ne_nil _ hne
    have := h.opening p hp
    omega
  · obtain ⟨id, hid⟩ := List.exists_mem_of_ne_nil _ hne
    have := h.closing id hid
    omega

/-- What remains of a call after it stopped keeps the mirror. -/
theorem Mirrored.suspend {stack : List Frame} {rest : Option (List Action)} (cid calls : Nat)
    (h : Mirror w.escrow w.registry (published (rest.getD []))
      (closed (rest.getD []) ++ pendingCloses stack))
    (hrest : published (rest.getD []) = []) (hstack : ∀ f ∈ stack, published f.rest = []) :
    Mirrored ⟨w, BlindEscrow.suspend cid rest stack, calls⟩ := by
  rw [hrest] at h
  cases rest with
  | none => exact ⟨h, hstack⟩
  | some rest =>
    refine ⟨h, ?_⟩
    intro f hf
    rcases List.mem_cons.mp hf with rfl | hf
    · exact hrest
    · exact hstack f hf

theorem Mirrored.step (hw : Sound D c.world) (hlisted : ListedBy D e) (h : Step D c e c')
    (hm : Mirrored c) : Mirrored c' := by
  obtain ⟨hmirror, hstack⟩ := hm
  cases h with
  | call m stop hs hbegin =>
    obtain ⟨ledger, s', todo, -, -, -, heff, hdrive, hescrow, -⟩ := begin_ok hbegin
    have henter := hmirror.enter hw hs heff
    have hcan : published todo ≠ [] ∨ closed todo ≠ [] →
        CanList D { c.world with ledger, escrow := s' } := by
      intro hne
      have hnext := henter.announces_next (hne.imp_right fun hne =>
        List.append_ne_nil_of_left_ne_nil hne _)
      obtain ⟨hconnected, hrunning, hauthorized⟩ := hlisted.ready (hescrow ▸ hnext)
      refine ⟨?_, hrunning, hauthorized⟩
      have hregistry := heff.announces_registry hne
      exact ⟨hregistry ▸ hconnected.1, hregistry ▸ hconnected.2⟩
    refine Mirrored.suspend c.calls (c.calls + 1) (Mirror.drive henter hcan hdrive) ?_ hstack
    cases hop : m.op.taskId with
    | some id =>
      exact drive_unpublished (hw.target hs heff hop).1.closes.1 hdrive
    | none =>
      obtain ⟨hdues, hpaid, -⟩ := drive_books hdrive
      rw [heff.dues_none hop] at hdues
      simp only [List.nil_eq, List.append_eq_nil_iff, List.map_eq_nil_iff] at hdues
      rw [by_contra fun hr => hpaid hr hdues.1]
      rfl
  | @ret w calls f stack stop hdrive =>
    have hf : published f.rest = [] := hstack f List.mem_cons_self
    have hrest : ∀ g ∈ stack, published g.rest = [] := fun g hg =>
      hstack g (List.mem_cons_of_mem _ hg)
    have hpending : Mirror w.escrow w.registry (published f.rest)
        (closed f.rest ++ pendingCloses stack) := by
      rw [hf]
      exact hmirror
    have hcan : published f.rest ≠ [] ∨ closed f.rest ≠ [] → CanList D w := by
      intro hne
      refine hlisted.ready ?_
      rw [(drive_escrow hdrive).1]
      exact hpending.announces_next (hne.imp_right fun hne =>
        List.append_ne_nil_of_left_ne_nil hne _)
    exact Mirrored.suspend f.cid calls (Mirror.drive hpending hcan hdrive)
      (drive_unpublished hf hdrive) hrest
  | tick | funds | reputation => exact ⟨hmirror, hstack⟩
  | registry sender op registry hs h =>
    exact ⟨hmirror.frame (TaskRegistry.enter_same (fun hauth => hs.2 (hlisted.only sender hauth)) h),
      hstack⟩

/-- The registry right after its deployment: whoever may publish, nothing is listed. -/
structure FreshRegistry (R : TaskRegistry.State) : Prop where
  taskList : R.taskList = []
  taskExists : ∀ id, R.taskExists id = false
  openTaskCount : R.openTaskCount = 0

theorem FreshRegistry.mirror (h : FreshRegistry R) (hnext : s.nextTaskId = 1) :
    Mirror s R [] [] := by
  have hlisting : ∀ id, R.listing id = none := by
    intro id
    simp [TaskRegistry.State.listing, h.taskExists]
  constructor
  case indexed =>
    refine ⟨fun id hid => ?_, fun i listing hi => ?_, ?_⟩
    · rw [h.taskExists] at hid
      cases hid
    · simp [h.taskList] at hi
    · simp [h.taskList, h.openTaskCount]
  case opening => simp
  case distinct => simp
  case closing => simp
  case once => simp
  case missing =>
    intro id
    rw [hlisting]
    simp only [List.map_nil, List.not_mem_nil, or_false, true_iff]
    omega
  case shown =>
    intro id listing hl
    rw [hlisting] at hl
    cases hl

theorem Initial.mirrored (h0 : Initial D c₀) (hrun : EscrowRun D c₀ tr c)
    (hfresh : FreshRegistry c₀.world.registry) (hlisted : ∀ e ∈ tr, ListedBy D e) : Mirrored c := by
  induction hrun with
  | nil =>
    obtain ⟨sender, treasury, verifier, -, -, -, hs⟩ := h0.storage
    refine ⟨?_, by simp [h0.stack]⟩
    rw [h0.stack]
    exact hfresh.mirror (by rw [hs])
  | @snoc tr b c e hrun hs ih =>
    exact (ih fun e he => hlisted e (List.mem_cons_of_mem _ he)).step (h0.sound_run hrun)
      (hlisted e List.mem_cons_self) hs

/-! ## The guarantee -/

/-- The registry mirrors the escrow. Between any two transactions exactly the created tasks are
listed, each once and in its slot, with their poster and amount; the open listings are the funded
tasks, and the counter is their number. -/
theorem registry_mirrors (h0 : Initial D c₀) (hrun : EscrowRun D c₀ tr c)
    (hfresh : FreshRegistry c₀.world.registry) (hlisted : ∀ e ∈ tr, ListedBy D e)
    (hstack : c.stack = []) :
    (∀ id, c.world.registry.taskExists id = true ↔
      1 ≤ id ∧ id < c.world.escrow.nextTaskId) ∧
    (∀ id, 1 ≤ id → id < c.world.escrow.nextTaskId → ∃ listing,
      c.world.registry.taskList[c.world.registry.taskIdToIndex id]? = some listing ∧
      listing.taskId = id ∧ listing.agent = (c.world.escrow.tasks id).agent ∧
      listing.reward = (c.world.escrow.tasks id).amount ∧
      (listing.isOpen = true ↔ (c.world.escrow.tasks id).status = .funded)) ∧
    (∀ (i : Nat) listing, c.world.registry.taskList[i]? = some listing →
      1 ≤ listing.taskId ∧ listing.taskId < c.world.escrow.nextTaskId ∧
      c.world.registry.taskIdToIndex listing.taskId = i) ∧
    c.world.registry.openTaskCount =
      ((Icc 1 (c.world.escrow.nextTaskId - 1)).filter
        fun id => (c.world.escrow.tasks id).status = .funded).card := by
  obtain ⟨hmirror, -⟩ := h0.mirrored hrun hfresh hlisted
  rw [hstack] at hmirror
  have hexists : ∀ id, c.world.registry.taskExists id = true ↔
      1 ≤ id ∧ id < c.world.escrow.nextTaskId := by
    intro id
    have hmissing := hmirror.missing id
    rw [hmirror.indexed.listing_exists, ← Bool.not_eq_true] at hmissing
    simp only [List.map_nil, List.not_mem_nil, or_false, not_iff_not] at hmissing
    exact hmissing
  have hshown : ∀ id listing, c.world.registry.listing id = some listing →
      listing.agent = (c.world.escrow.tasks id).agent ∧
      listing.reward = (c.world.escrow.tasks id).amount ∧
      (listing.isOpen = true ↔ (c.world.escrow.tasks id).status = .funded) := by
    intro id listing hl
    simpa [pendingCloses] using hmirror.shown id listing hl
  have hslot : ∀ id, 1 ≤ id → id < c.world.escrow.nextTaskId → ∃ listing,
      c.world.registry.listing id = some listing ∧
      c.world.registry.taskList[c.world.registry.taskIdToIndex id]? = some listing ∧
      listing.taskId = id := by
    intro id hpos hlt
    have hid := (hexists id).mpr ⟨hpos, hlt⟩
    obtain ⟨listing, hslot, hsame⟩ := hmirror.indexed.slot id hid
    exact ⟨listing, TaskRegistry.State.listing_eq_some.mpr ⟨hid, hslot⟩, hslot, hsame⟩
  refine ⟨hexists, ?_, ?_, ?_⟩
  · intro id hpos hlt
    obtain ⟨listing, hl, hslot, hsame⟩ := hslot id hpos hlt
    exact ⟨listing, hslot, hsame, hshown id listing hl⟩
  · intro i listing hi
    obtain ⟨hid, hindex⟩ := hmirror.indexed.entry i listing hi
    obtain ⟨hpos, hlt⟩ := (hexists _).mp hid
    exact ⟨hpos, hlt, hindex⟩
  · refine hmirror.indexed.count_card fun id => ?_
    rw [mem_filter, mem_Icc]
    constructor
    · rintro ⟨⟨hpos, hle⟩, hst⟩
      obtain ⟨listing, hl, -⟩ := hslot id hpos (by have := (h0.sound_run hrun).next; omega)
      exact ⟨listing, hl, (hshown id listing hl).2.2.mpr hst⟩
    · rintro ⟨listing, hl, hopen⟩
      obtain ⟨hpos, hlt⟩ := (hexists id).mp (TaskRegistry.State.listing_eq_some.mp hl).1
      exact ⟨⟨hpos, by omega⟩, (hshown id listing hl).2.2.mp hopen⟩

theorem attempt_publishers {f : TaskRegistry.State → TaskRegistry.Outcome}
    (hf : (∃ now agent category zone amount,
        f = TaskRegistry.publishTask D.self now id agent category zone amount) ∨
      f = TaskRegistry.closeTask D.self id) (R : TaskRegistry.State) :
    (attempt f R).authorizedPublishers = R.authorizedPublishers := by
  unfold attempt
  split
  · rename_i R' h
    rcases hf with ⟨now, agent, category, zone, amount, rfl⟩ | rfl
    · simp only [TaskRegistry.publishTask, seq_eq_ok, pure_eq, Except.ok.injEq] at h
      obtain ⟨-, -, -, -, -, -, rfl⟩ := h
      rfl
    · simp only [TaskRegistry.closeTask, seq_eq_ok, pure_eq, Except.ok.injEq] at h
      obtain ⟨-, -, -, -, -, -, -, -, -, -, -, -, rfl⟩ := h
      rfl
  · rfl

/-- No interaction changes who may publish. -/
theorem act_publishers {a : Action} {paid : List Payment} {yields : Bool}
    (h : act D a w = .ok (w', paid, yields)) :
    w'.registry.authorizedPublishers = w.registry.authorizedPublishers := by
  rcases act_registry h with ⟨hsame, -⟩ | ⟨id, agent, category, zone, amount, -, hnew⟩ |
    ⟨id, -, hnew⟩
  · rw [hsame]
  · rw [hnew]
    exact attempt_publishers (.inl ⟨_, _, _, _, _, rfl⟩) _
  · rw [hnew]
    exact attempt_publishers (.inr rfl) _

theorem drive_publishers (h : drive D l w = .ok stop) :
    stop.world.registry.authorizedPublishers = w.registry.authorizedPublishers := by
  induction l generalizing w stop with
  | nil => rw [drive_nil h]
  | cons a l ih =>
    obtain ⟨w₁, paid, yields, ha, ⟨-, rfl⟩ | ⟨-, stop', hd, rfl⟩⟩ := drive_cons h
    · exact act_publishers ha
    · exact (ih hd).trans (act_publishers ha)

/-- A step of the escrow itself leaves the publishers as they are. -/
theorem Step.publishers (h : Step D c e c') (hk : e.kind ≠ .outside) :
    c'.world.registry.authorizedPublishers = c.world.registry.authorizedPublishers := by
  cases h with
  | call m stop hs hbegin =>
    obtain ⟨ledger, s', todo, -, -, -, -, hdrive, -⟩ := begin_ok hbegin
    exact (drive_publishers hdrive :)
  | ret f stack stop hdrive => exact drive_publishers hdrive
  | tick dt => rfl
  | funds | reputation | registry => exact absurd rfl hk

theorem publishers_run (h : EscrowRun D c tr c') (hk : ∀ e ∈ tr, e.kind ≠ .outside) :
    c'.world.registry.authorizedPublishers = c.world.registry.authorizedPublishers ∧
      ∀ e ∈ tr, e.pre.registry.authorizedPublishers = c.world.registry.authorizedPublishers := by
  induction h with
  | nil => exact ⟨rfl, by simp⟩
  | @snoc tr b c' e hrun hs ih =>
    obtain ⟨hb, hall⟩ := ih fun e he => hk e (List.mem_cons_of_mem _ he)
    refine ⟨(hs.publishers (hk e List.mem_cons_self)).trans hb, ?_⟩
    intro g hg
    rcases List.mem_cons.mp hg with rfl | hg
    · rw [hs.worlds.1, hb]
    · exact hall g hg

/-- Three tasks of 10: one assigned, one cancelled, whose refund calls back, and one left open. -/
def threeTasks : List Cue :=
  [.send ⟨1, 0, .allowToken 0⟩, .send ⟨1, 0, .setTaskRegistry 102⟩,
    .send ⟨10, 500, .createTask 7 0 500 "delivery" "north" 7200⟩,
    .send ⟨10, 600, .createTask 7 0 600 "delivery" "north" 7200⟩, .send ⟨10, 0, .cancelTask 2⟩,
    .send ⟨10, 0, .assignWorker 1 20⟩, .resume,
    .send ⟨10, 700, .createTask 7 0 700 "delivery" "north" 7200⟩]

theorem registry_mirrors_threeTasks :
    (demoPlay threeTasks).1.world.registry.openTaskCount = 1 ∧
      ∃ listing, (demoPlay threeTasks).1.world.registry.taskList[2]? = some listing ∧
        listing.taskId = 3 ∧ listing.reward = 700 ∧ listing.isOpen = true := by
  have hlisted : ∀ e ∈ (demoPlay threeTasks).2, ListedBy demo e := by
    intro e he
    have hpublishers := (publishers_run (demoPlay_run threeTasks) (by decide)).2 e he
    have hready : ∀ e ∈ (demoPlay threeTasks).2, 1 < e.post.escrow.nextTaskId →
        registryConnected demo e.pre ∧ e.pre.registry.paused = false := by decide
    refine ⟨fun a ha => ?_, fun hnext => ⟨(hready e he hnext).1, (hready e he hnext).2, ?_⟩⟩
    · rw [hpublishers] at ha
      exact of_decide_eq_true ha
    · rw [hpublishers]
      rfl
  obtain ⟨-, hslots, -, hcount⟩ := registry_mirrors (demoStart_initial (by decide))
    (demoPlay_run threeTasks) ⟨rfl, fun _ => rfl, rfl⟩ hlisted (by decide)
  refine ⟨hcount.trans (by decide), ?_⟩
  obtain ⟨listing, hslot, hid, -, hreward, hopen⟩ := hslots 3 (by decide) (by decide)
  have hindex : (demoPlay threeTasks).1.world.registry.taskIdToIndex 3 = 2 := by decide
  exact ⟨listing, hindex ▸ hslot, hid, hreward.trans (by decide), hopen.mpr (by decide)⟩

end BlindEscrow

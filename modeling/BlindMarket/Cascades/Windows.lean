import BlindMarket.Cascades.Programs

/-!
# Offers and their windows

Read off a run: the offers in their order, and which windows are over. The
condition on a run is that an advance finds the ranking at its own position, and
finds it unmoved when it writes.
-/
namespace Cascades

open Async Prog Runs

variable {cfg : Config} {s s' : State} {t t' : Call} {a : Answers Ans Code} {tr tr' : List Ev}
  {e : Ev} {c : Cmd} {r : Except Code (Ans c)} {x : Reply} {now now' position : Nat}
  {offer : TaskOffer}

/-- The offers of a run, oldest first. -/
def offered : List Ev → List TaskOffer
  | [] => []
  | e :: tr =>
    match e.label with
    | .ran _ (.setOffer offer) _ => offered tr ++ [offer]
    | _ => offered tr

/-- The agent handed its offer back. -/
def Declined (tr : List Ev) (address : Address) : Prop :=
  ∃ e ∈ tr, ∃ t, e.label = .ran t .clearOffer (.ok ()) ∧ t.op = .decline address

/-- The window of an offer is over. -/
def Over (tr : List Ev) (now : Nat) (offer : TaskOffer) : Prop :=
  offer.expiresAt ≤ now ∨ Declined tr offer.address

/-- A position was offered, and its window is over. -/
def Passed (tr : List Ev) (now position : Nat) : Prop :=
  ∃ offer, (offered tr)[position]? = some offer ∧ Over tr now offer

/-- The cascade stands at the position of the timer, or at the declining agent. -/
def OwnPosition (t : Call) (cascade : TaskCascade) : Prop :=
  match t.op with
  | .timer position => cascade.position = position
  | .decline address => ∃ entry, cascade.ranked[cascade.position]? = some entry ∧
      entry.address = address
  | _ => False

/-- An advance finds the ranking at its own position and moves it on from there; it finds no
ranking only when an advance has gone past the end of it. -/
structure Careful (earlier : List Ev) (e : Ev) : Prop where
  own : ∀ t cascade, e.label = .ran t .readCascade (.ok (some cascade)) → OwnPosition t cascade
  unmoved : ∀ t cascade r, e.label = .ran t (.moveCascade cascade) r →
    ∃ stored, e.pre.cascade = some stored ∧ stored.1.position + 1 = cascade.position
  ended : ∀ t, e.label = .ran t .readCascade (.ok none) →
    ∃ e' ∈ earlier, ∃ t' r, e'.label = .ran t' .endCascade r

/-! ## Rules -/

theorem offered_setOffer {r : Except Code (Ans (.setOffer offer))} :
    offered (⟨.ran t (.setOffer offer) r, s, s'⟩ :: tr) = offered tr ++ [offer] := rfl

theorem offered_other (h : ∀ t offer r, e.label ≠ .ran t (.setOffer offer) r) :
    offered (e :: tr) = offered tr := by
  simp only [offered]

theorem offered_cons (e : Ev) (tr : List Ev) : offered tr <+: offered (e :: tr) := by
  by_cases h : ∃ t offer r, e.label = .ran t (.setOffer offer) r
  · obtain ⟨label, s, s'⟩ := e
    obtain ⟨t, offer, r, rfl⟩ := h
    exact List.prefix_append _ _
  · push Not at h
    rw [offered_other h]

theorem Declined.cons {address : Address} (h : Declined tr address) :
    Declined (e :: tr) address := by
  obtain ⟨e', he', hd⟩ := h
  exact ⟨e', List.mem_cons_of_mem _ he', hd⟩

theorem Over.cons (h : Over tr now offer) (hnow : now ≤ now') : Over (e :: tr) now' offer :=
  h.imp (le_trans · hnow) Declined.cons

theorem getElem?_of_prefix {α : Type} {l l' : List α} {i : Nat} {v : α} (h : l <+: l')
    (hv : l[i]? = some v) : l'[i]? = some v := by
  obtain ⟨hlt, rfl⟩ := List.getElem?_eq_some_iff.mp hv
  exact List.prefix_iff_getElem?.mp h i hlt

theorem Passed.cons (h : Passed tr now position) (hnow : now ≤ now') :
    Passed (e :: tr) now' position := by
  obtain ⟨offer, hoffer, hover⟩ := h
  exact ⟨offer, getElem?_of_prefix (offered_cons e tr) hoffer, hover.cons hnow⟩

theorem Passed.lt (h : Passed tr now position) : position < (offered tr).length := by
  obtain ⟨offer, hoffer, -⟩ := h
  exact (List.getElem?_eq_some_iff.mp hoffer).1

theorem withExplorationHead_nodup {pick : CascadeEntry} {ranked : List CascadeEntry}
    (h : (ranked.map (·.address)).Nodup) :
    ((withExplorationHead pick ranked).map (·.address)).Nodup := by
  rw [withExplorationHead, List.map_cons, List.nodup_cons]
  refine ⟨fun hmem => ?_, h.sublist (List.filter_sublist.map _)⟩
  obtain ⟨entry, hentry, haddress⟩ := List.mem_map.mp hmem
  have hkept := (List.mem_filter.mp hentry).2
  simp [haddress] at hkept

theorem Config.queue_nodup (h : (cfg.ranked.map (·.address)).Nodup) :
    (cfg.queue.map (·.address)).Nodup := by
  unfold Config.queue
  split
  · exact withExplorationHead_nodup h
  · exact h

/-- In a ranking of distinct agents the agent tells the position. -/
theorem position_of_address {queue : List CascadeEntry} {offers : List TaskOffer} {i : Nat}
    {entry : CascadeEntry} (hnodup : (queue.map (·.address)).Nodup)
    (horder : offers.map (·.address) <+: queue.map (·.address)) (hoffer : offer ∈ offers)
    (hentry : queue[i]? = some entry) (haddress : entry.address = offer.address) :
    offers[i]? = some offer := by
  obtain ⟨j, hj, rfl⟩ := List.getElem_of_mem hoffer
  have hat : (queue.map (·.address))[j]? = some offers[j].address :=
    getElem?_of_prefix horder (by simp [hj])
  have hat' : (queue.map (·.address))[i]? = some offers[j].address := by simp [hentry, haddress]
  obtain ⟨hjlt, hjv⟩ := List.getElem?_eq_some_iff.mp hat
  obtain ⟨hilt, hiv⟩ := List.getElem?_eq_some_iff.mp hat'
  have hij : (⟨j, hjlt⟩ : Fin _) = ⟨i, hilt⟩ := (List.nodup_iff_injective_get.mp hnodup)
    (by simpa using hjv.trans hiv.symm)
  obtain rfl := Fin.mk.inj hij
  simp [hj]

/-! ## Answers -/

theorem respond_cascade (h : respond cfg x s c = (r, s')) :
    s'.cascade = s.cascade ∨ s'.cascade = none ∨ ∃ cascade,
      (c = .setCascade cascade ∨ c = .moveCascade cascade) ∧
        s'.cascade = some (cascade, s.now + CASCADE_TTL_MS) := by
  obtain rfl | rfl := respond_state h
  · exact .inl rfl
  cases c with
  | setCascade cascade => exact .inr (.inr ⟨cascade, .inl rfl, rfl⟩)
  | moveCascade cascade => exact .inr (.inr ⟨cascade, .inr rfl, rfl⟩)
  | endCascade | clearCascade => exact .inr (.inl rfl)
  | casAccept address =>
    simp only [effect]
    split <;> exact .inl rfl
  | _ => exact .inl rfl

theorem respond_timers (h : respond cfg x s c = (r, s')) :
    s'.timers = s.timers ∨ ∃ position delay, c = .setTimeout position delay ∧
      s'.timers = ⟨position, s.now + delay⟩ :: s.timers := by
  obtain rfl | rfl := respond_state h
  · exact .inl rfl
  cases c with
  | setTimeout position delay => exact .inr ⟨position, delay, rfl, rfl⟩
  | casAccept address =>
    simp only [effect]
    split <;> exact .inl rfl
  | _ => exact .inl rfl

theorem respond_offer (h : respond cfg x s c = (r, s')) :
    s'.offer = s.offer ∨ s'.offer = none ∨ ∃ offer expires, c = .setOffer offer ∧
      s'.offer = some (offer, expires) := by
  obtain rfl | rfl := respond_state h
  · exact .inl rfl
  cases c with
  | setOffer offer => exact .inr (.inr ⟨offer, _, rfl, rfl⟩)
  | dropOffer | clearOffer => exact .inr (.inl rfl)
  | casAccept address =>
    simp only [effect]
    split <;> exact .inl rfl
  | _ => exact .inl rfl

theorem respond_local {code : Code} (h : respond cfg x s c = (.error code, s')) :
    c.local = false := by
  unfold respond at h
  split at h
  · cases (Prod.mk.injEq .. ▸ h).1
  · next hlocal => simpa using hlocal

theorem live_eq_some {α : Type} {key : Option (α × Nat)} {v : α} (h : s.live key = some v) :
    ∃ expires, key = some (v, expires) := by
  unfold State.live at h
  obtain ⟨⟨v', expires⟩, hfilter, rfl⟩ := Option.map_eq_some_iff.mp h
  exact ⟨expires, (Option.filter_eq_some_iff.mp hfilter).1⟩

end Cascades

import BlindMarket.Cascades.Windows

/-!
# Every agent in its turn

At any moment the stored position is that of the last offer, or one further
while a single advance is about to make its offer. So an advance that finds the
cascade at its own position offers the task to the next agent of the ranking.
-/
namespace Cascades

open Async Prog Runs

variable {cfg : Config} {s s' s₀ : State} {t t' : Call} {a : Answers Ans Code} {tr tr' : List Ev}
  {e : Ev} {c : Cmd} {r : Except Code (Ans c)} {x : Reply} {now now' position : Nat}
  {offer : TaskOffer} {pool : Pool Ans Code Unit Call State} {c' : TaskCascade}

/-! ## What the programs under way know -/

/-- What an answer says is so. -/
def Fact (cfg : Config) (tr : List Ev) (now : Nat) (t : Call) :
    (c : Cmd) × Except Code (Ans c) → Prop
  | ⟨.now, .ok m⟩ => m ≤ now
  | ⟨.rankedEntries, .ok ranked⟩ => ranked = cfg.ranked
  | ⟨.getOffer, .ok (some offer)⟩ => offer ∈ offered tr
  | ⟨.readCascade, .ok (some cascade)⟩ =>
    cascade.ranked = cfg.queue ∧ Passed tr now cascade.position
  | ⟨.setOffer offer, _⟩ => t.op = .start → (offered tr)[0]? = some offer
  | _ => True

theorem Fact.cons {v : (c : Cmd) × Except Code (Ans c)} (h : Fact cfg tr now t v)
    (hnow : now ≤ now') : Fact cfg (e :: tr) now' t v := by
  unfold Fact at h ⊢
  split
  · exact le_trans h hnow
  · exact h
  · exact (offered_cons e tr).subset h
  · exact ⟨h.1, h.2.cons hnow⟩
  · exact fun hop => getElem?_of_prefix (offered_cons e tr) (h hop)
  · trivial

/-- What a program knows is so: its answers, the offer its timer is for, the offer it made. -/
structure Facts (cfg : Config) (tr : List Ev) (now : Nat) (t : Call) (a : Answers Ans Code) :
    Prop where
  answers : ∀ v ∈ a, Fact cfg tr now t v
  heard : ¬ LocalError a
  fired : ∀ position, t.op = .timer position →
    ∃ offer, (offered tr)[position]? = some offer ∧ offer.expiresAt ≤ now
  made : ∀ offer r b position, ⟨.setOffer offer, r⟩ :: b <:+ a → Advanced b offer position →
    (offered tr)[position]? = some offer

theorem Facts.cons (h : Facts cfg tr now t a) (hnow : now ≤ now') :
    Facts cfg (e :: tr) now' t a where
  answers v hv := (h.answers v hv).cons hnow
  heard := h.heard
  fired position hop := by
    obtain ⟨offer, hoffer, hexpires⟩ := h.fired position hop
    exact ⟨offer, getElem?_of_prefix (offered_cons e tr) hoffer, hexpires.trans hnow⟩
  made offer r b position hsuffix hadvanced :=
    getElem?_of_prefix (offered_cons e tr) (h.made offer r b position hsuffix hadvanced)

theorem Facts.answered (h : Facts cfg tr now t a) (hfact : Fact cfg tr now t ⟨c, r⟩)
    (hlocal : ∀ code, r = .error code → c.local = false)
    (hmade : ∀ offer, c = .setOffer offer → ∀ position, Advanced a offer position →
      (offered tr)[position]? = some offer) : Facts cfg tr now t (⟨c, r⟩ :: a) where
  answers v hv := by
    obtain rfl | hv := List.mem_cons.mp hv
    · exact hfact
    · exact h.answers v hv
  heard := by
    rintro ⟨c₁, code, hc₁, hmem⟩
    obtain heq | hmem := List.mem_cons.mp hmem
    · cases heq
      rw [hlocal code rfl] at hc₁
      cases hc₁
    · exact h.heard ⟨c₁, code, hc₁, hmem⟩
  fired := h.fired
  made offer' r' b position hsuffix hadvanced := by
    obtain heq | hsuffix := List.suffix_cons_iff.mp hsuffix
    · obtain ⟨hhead, rfl⟩ := List.cons.inj heq
      cases hhead
      exact hmade offer' rfl position hadvanced
    · exact h.made offer' r' b position hsuffix hadvanced

/-- The program has moved the cascade, and its offer is not out. -/
def Moving (a : Answers Ans Code) (c' : TaskCascade) : Prop :=
  ∃ read rest, c' = { read with position := read.position + 1 } ∧
    (a = ⟨.moveCascade c', .ok ()⟩ :: ⟨.readCascade, .ok (some read)⟩ :: rest ∨
      ∃ m, a = ⟨.now, .ok m⟩ :: ⟨.moveCascade c', .ok ()⟩ ::
        ⟨.readCascade, .ok (some read)⟩ :: rest)

theorem Moving.read (h : Moving a c') : ∃ read, ⟨.readCascade, .ok (some read)⟩ ∈ a ∧
    c' = { read with position := read.position + 1 } := by
  obtain ⟨read, rest, heq, rfl | ⟨m, rfl⟩⟩ := h <;> exact ⟨read, by simp, heq⟩

/-- One more answer: the cascade was moved just now, or before. -/
theorem Moving.of_cons (h : Moving (⟨c, r⟩ :: a) c') :
    (⟨c, r⟩ : (c : Cmd) × Except Code (Ans c)) = ⟨.moveCascade c', .ok ()⟩ ∨
      c = .now ∧ Moving a c' := by
  obtain ⟨read, rest, heq, h | ⟨m, h⟩⟩ := h
  · exact .inl (List.cons.inj h).1
  · obtain ⟨hhead, rfl⟩ := List.cons.inj h
    cases hhead
    exact .inr ⟨rfl, read, rest, heq, .inl rfl⟩

theorem Moving.not_nil : ¬ Moving [] c' := by
  rintro ⟨read, rest, -, h | ⟨m, h⟩⟩ <;> cases h

theorem Advanced.moving (h : Advanced a offer position) :
    ∃ c' next, Moving a c' ∧ c'.position = position ∧ c'.ranked[position]? = some next ∧
      offer.address = next.address := by
  obtain ⟨read, c', next, m, rest, rfl, rfl, hnext, haddress, -, rfl⟩ := h
  exact ⟨_, next, ⟨read, rest, rfl, .inr ⟨m, rfl⟩⟩, rfl, hnext, haddress⟩

/-! ## The invariant -/

structure Inv (cfg : Config) (tr : List Ev) (s : State) : Prop where
  order : (offered tr).map (·.address) <+: cfg.queue.map (·.address)
  holder : ∀ offer expires, s.offer = some (offer, expires) → offer ∈ offered tr
  stored : ∀ cascade expires, s.cascade = some (cascade, expires) → cascade.ranked = cfg.queue ∧
    (cascade.position + 1 = (offered tr).length ∨ cascade.position = (offered tr).length)
  timers : ∀ x ∈ s.timers, ∃ offer, (offered tr)[x.position]? = some offer ∧ offer.expiresAt ≤ x.due
  facts : ∀ t a, known tr t = some a → Facts cfg tr s.now t a
  moving : ∀ t a c', known tr t = some a → Moving a c' →
    c'.position = (offered tr).length ∧
      ∀ cascade expires, s.cascade = some (cascade, expires) → cascade.position = c'.position
  sole : ∀ t t' a a' c₁ c₂, known tr t = some a → known tr t' = some a' → Moving a c₁ →
    Moving a' c₂ → t' = t
  opens : offered tr ≠ [] → ∃ e ∈ tr, ∃ t offer r, t.op = .start ∧
    e.label = .ran t (.setOffer offer) r
  unstored : (∀ e ∈ tr, ∀ t cascade r, e.label ≠ .ran t (.setCascade cascade) r) →
    s.cascade = none ∧ (offered tr).length ≤ 1 ∧
      ∀ t a, known tr t = some a → ∀ cascade, ⟨.readCascade, .ok (some cascade)⟩ ∉ a
  ended : (∃ e ∈ tr, ∃ t r, e.label = .ran t .endCascade r) →
    (offered tr).length = cfg.queue.length ∧ Passed tr s.now (cfg.queue.length - 1)
  starts : ∀ e ∈ tr, ∀ t, e.label.tag? = some t → t.op = .start →
    s.started = true ∧ ∀ e' ∈ tr, ∀ t', e'.label.tag? = some t' → t'.op = .start → t' = t

/-- Before the run: nothing is offered, stored or armed. -/
structure Initial (s : State) : Prop where
  offer : s.offer = none
  cascade : s.cascade = none
  timers : s.timers = []

theorem Initial.inv (h : Initial s) : Inv cfg [] s where
  order := List.nil_prefix
  holder offer expires heq := by rw [h.offer] at heq; cases heq
  stored cascade expires heq := by rw [h.cascade] at heq; cases heq
  timers x hx := by rw [h.timers] at hx; cases hx
  facts t a hknown := by cases hknown
  moving t a c' hknown := by cases hknown
  sole t t' a a' c₁ c₂ hknown := by cases hknown
  opens hne := absurd rfl hne
  unstored _ := ⟨h.cascade, by simp [offered], fun t a hknown => by cases hknown⟩
  ended := by rintro ⟨e, he, -⟩; cases he
  starts e he := by cases he

/-! ## One command -/

theorem Head.queue {best : CascadeEntry} (h : Head cfg a best)
    (hfacts : ∀ ranked, ⟨.rankedEntries, .ok ranked⟩ ∈ a → ranked = cfg.ranked) :
    cfg.queue[0]? = some best := by
  obtain hpick | ⟨hpick, rest, hmem⟩ := h
  · simp [Config.queue, hpick, withExplorationHead]
  · simp [Config.queue, hpick, ← hfacts _ hmem]

theorem Ranking.queue {ranked : List CascadeEntry} (h : Ranking cfg a ranked)
    (hfacts : ∀ ranked, ⟨.rankedEntries, .ok ranked⟩ ∈ a → ranked = cfg.ranked) :
    ranked = cfg.queue := by
  obtain ⟨hpick, hmem, -⟩ | ⟨pick, entries, hpick, hmem, rfl, -⟩ := h
  · simp [Config.queue, hpick, hfacts _ hmem]
  · simp [Config.queue, hpick, hfacts _ hmem]

theorem prefix_snoc {α : Type} {l l' : List α} {v : α} (h : l <+: l')
    (hv : l'[l.length]? = some v) : l ++ [v] <+: l' := by
  obtain ⟨k, rfl⟩ := h
  rw [List.getElem?_append_right (le_refl _), Nat.sub_self] at hv
  cases k with
  | nil => cases hv
  | cons w k =>
    cases hv
    exact ⟨k, by simp⟩

theorem Inv.length_le (h : Inv cfg tr s) : (offered tr).length ≤ cfg.queue.length := by
  simpa using h.order.length_le

theorem head_mem {v : (c : Cmd) × Except Code (Ans c)} {rest : Answers Ans Code}
    (ha : a = v :: rest) : v ∈ a := ha ▸ List.mem_cons_self

section Ran

variable (hI : Inv cfg tr s) (hknown : known tr t = some a) (hasks : Asks cfg t a c)
  (hx : respond cfg x s c = (r, s')) (hcareful : Careful tr ⟨.ran t c r, s, s'⟩)
  (hall : ∀ e ∈ tr, ∀ c r, e.label = .ran t c r → ⟨c, r⟩ ∈ a)
  (hev : ∃ e ∈ tr, e.label.tag? = some t)

include hI hknown

theorem Inv.ranked {ranked : List CascadeEntry} (hmem : ⟨.rankedEntries, .ok ranked⟩ ∈ a) :
    ranked = cfg.ranked := (hI.facts t a hknown).answers _ hmem

theorem Inv.read_of (hmem : ⟨.readCascade, .ok (some c')⟩ ∈ a) :
    c'.ranked = cfg.queue ∧ Passed tr s.now c'.position := (hI.facts t a hknown).answers _ hmem

/-- An advance about to make its offer offers the next position. -/
theorem Inv.advanced (h : Advanced a offer position) :
    position = (offered tr).length ∧ 0 < position ∧ Passed tr s.now (position - 1) ∧
      ∃ next, cfg.queue[position]? = some next ∧ offer.address = next.address := by
  obtain ⟨c', next, hmoving, hposition, hnext, haddress⟩ := h.moving
  obtain ⟨read, hmem, rfl⟩ := hmoving.read
  obtain ⟨hranked, hpassed⟩ := hI.read_of hknown hmem
  simp only at hposition hnext
  subst hposition
  exact ⟨(hI.moving t a _ hknown hmoving).1, Nat.succ_pos _, hpassed, next, hranked ▸ hnext, haddress⟩

include hall hev

/-- A start that has made no offer is the first to make one. -/
theorem Inv.first (hop : t.op = .start) (hnone : ∀ offer r, ⟨.setOffer offer, r⟩ ∉ a) :
    offered tr = [] := by
  by_contra hne
  obtain ⟨e, he, t', offer, r, hop', hlabel⟩ := hI.opens hne
  obtain ⟨e₀, he₀, htag⟩ := hev
  obtain rfl := (hI.starts e₀ he₀ t htag hop).2 e he t' (by rw [hlabel]; rfl) hop'
  exact hnone offer r (hall e he _ r hlabel)

omit hall hev

/-- A write of the ranking by an advance moves it to the next position, and no other advance is
about to make an offer. -/
theorem Inv.moves {read : TaskCascade} {rest : Answers Ans Code}
    (ha : a = ⟨.readCascade, .ok (some read)⟩ :: rest)
    (hunmoved : ∃ stored, s.cascade = some stored ∧ stored.1.position + 1 = read.position + 1) :
    read.position + 1 = (offered tr).length ∧
      ∀ t' a' c', known tr t' = some a' → ¬ Moving a' c' := by
  obtain ⟨⟨cascade, expires⟩, hstored, hposition⟩ := hunmoved
  have hlt := (hI.read_of hknown (head_mem ha)).2.lt
  have hat : read.position + 1 = (offered tr).length := by
    have := (hI.stored cascade expires hstored).2
    simp only at hposition
    omega
  refine ⟨hat, fun t' a' c' hknown' hmoving => ?_⟩
  obtain ⟨hlast, hsame⟩ := hI.moving t' a' c' hknown' hmoving
  have := hsame cascade expires hstored
  simp only at hposition
  omega

/-- The offer of a program is the next one. -/
theorem Inv.offers (hasks : Asks cfg t a (.setOffer offer))
    (hall : ∀ e ∈ tr, ∀ c r, e.label = .ran t c r → ⟨c, r⟩ ∈ a)
    (hev : ∃ e ∈ tr, e.label.tag? = some t) :
    (∃ next, cfg.queue[(offered tr).length]? = some next ∧ offer.address = next.address) ∧
      ((t.op = .start ∧ offered tr = []) ∨
        ∃ c', Moving a c' ∧ 0 < (offered tr).length ∧
          Passed tr s.now ((offered tr).length - 1)) := by
  obtain ⟨hop, hnone, best, hhead, haddress⟩ | ⟨-, position, hadvanced⟩ := hasks
  · have hfirst := hI.first hknown hall hev hop hnone
    refine ⟨⟨best, ?_, haddress⟩, .inl ⟨hop, hfirst⟩⟩
    rw [hfirst]
    exact hhead.queue fun ranked hmem => hI.ranked hknown hmem
  · obtain ⟨hposition, hpos, hpassed, next, hnext, haddress⟩ := hI.advanced hknown hadvanced
    obtain ⟨c', -, hmoving, -⟩ := hadvanced.moving
    rw [← hposition]
    exact ⟨⟨next, hnext, haddress⟩, .inr ⟨c', hmoving, hpos, hpassed⟩⟩

theorem Inv.order_ran (r : Except Code (Ans c)) (s' : State) (hasks : Asks cfg t a c)
    (hall : ∀ e ∈ tr, ∀ c r, e.label = .ran t c r → ⟨c, r⟩ ∈ a)
    (hev : ∃ e ∈ tr, e.label.tag? = some t) :
    (offered (⟨.ran t c r, s, s'⟩ :: tr)).map (·.address) <+: cfg.queue.map (·.address) := by
  by_cases hoffer : ∃ offer, c = .setOffer offer
  · obtain ⟨offer, rfl⟩ := hoffer
    obtain ⟨⟨next, hnext, haddress⟩, -⟩ := hI.offers hknown hasks hall hev
    rw [offered_setOffer, List.map_append]
    exact prefix_snoc hI.order (by simp [hnext, haddress])
  · rw [offered_other fun t' offer r' hlabel => hoffer ⟨offer, by cases hlabel; rfl⟩]
    exact hI.order

include hx

omit hknown in
theorem Inv.holder_ran (expires : Nat) (h : s'.offer = some (offer, expires)) :
    offer ∈ offered (⟨.ran t c r, s, s'⟩ :: tr) := by
  obtain hsame | hnone | ⟨offer', expires', rfl, hset⟩ := respond_offer hx
  · rw [hsame] at h
    exact (offered_cons _ tr).subset (hI.holder offer expires h)
  · rw [hnone] at h
    cases h
  · rw [hset] at h
    cases h
    simp [offered_setOffer]

theorem Inv.stored_ran (hasks : Asks cfg t a c)
    (hcareful : Careful tr ⟨.ran t c r, s, s'⟩)
    (hall : ∀ e ∈ tr, ∀ c r, e.label = .ran t c r → ⟨c, r⟩ ∈ a)
    (hev : ∃ e ∈ tr, e.label.tag? = some t)
    (hfresh : ∀ cascade, c = .setCascade cascade →
      ∀ e ∈ tr, ∀ t cascade r, e.label ≠ .ran t (.setCascade cascade) r)
    (cascade : TaskCascade) (expires : Nat) (h : s'.cascade = some (cascade, expires)) :
    cascade.ranked = cfg.queue ∧
      (cascade.position + 1 = (offered (⟨.ran t c r, s, s'⟩ :: tr)).length ∨
        cascade.position = (offered (⟨.ran t c r, s, s'⟩ :: tr)).length) := by
  by_cases hoffer : ∃ offer, c = .setOffer offer
  · obtain ⟨offer, rfl⟩ := hoffer
    obtain hsame | hnone | ⟨cascade', hc | hc, -⟩ := respond_cascade hx
    · rw [hsame] at h
      obtain ⟨hranked, hposition⟩ := hI.stored cascade expires h
      rw [offered_setOffer, List.length_append, List.length_singleton]
      refine ⟨hranked, .inl ?_⟩
      obtain ⟨-, ⟨-, hfirst⟩ | ⟨c', hmoving, -, -⟩⟩ := hI.offers hknown hasks hall hev
      · simp only [hfirst, List.length_nil] at hposition ⊢
        omega
      · obtain ⟨hlast, hsame'⟩ := hI.moving t a c' hknown hmoving
        rw [hsame' cascade expires h, hlast]
    · rw [hnone] at h
      cases h
    · cases hc
    · cases hc
  · rw [offered_other fun t' offer r' hlabel => hoffer ⟨offer, by cases hlabel; rfl⟩]
    obtain hsame | hnone | ⟨cascade', rfl | rfl, hset⟩ := respond_cascade hx
    · rw [hsame] at h
      exact hI.stored cascade expires h
    · rw [hnone] at h
      cases h
    · rw [hset] at h
      cases h
      obtain ⟨hop, -, hposition, hranking⟩ := hasks
      refine ⟨hranking.queue fun ranked hmem => hI.ranked hknown hmem, ?_⟩
      obtain ⟨-, -, -, hnone⟩ | ⟨pick, entries, -, -, -, offer, r', hmade⟩ := hranking
      · rw [hI.first hknown hall hev hop hnone, hposition]
        exact .inr rfl
      · have hone := (hI.unstored (hfresh _ rfl)).2.1
        have hmade : (offered tr)[0]? = some offer := (hI.facts t a hknown).answers _ hmade hop
        obtain ⟨hlt, -⟩ := List.getElem?_eq_some_iff.mp hmade
        exact .inl (by omega)
    · rw [hset] at h
      cases h
      obtain ⟨read, next, rest, ha, rfl, -⟩ := hasks
      obtain ⟨hat, -⟩ := hI.moves hknown ha (hcareful.unmoved t _ r rfl)
      exact ⟨(hI.read_of hknown (head_mem ha)).1, .inr hat⟩

theorem Inv.timers_ran (hasks : Asks cfg t a c) (y : Timer) (hy : y ∈ s'.timers) :
    ∃ offer, (offered (⟨.ran t c r, s, s'⟩ :: tr))[y.position]? = some offer ∧
      offer.expiresAt ≤ y.due := by
  suffices hold : ∃ offer, (offered tr)[y.position]? = some offer ∧ offer.expiresAt ≤ y.due by
    obtain ⟨offer, hoffer, hexpires⟩ := hold
    exact ⟨offer, getElem?_of_prefix (offered_cons _ tr) hoffer, hexpires⟩
  have hfacts := hI.facts t a hknown
  obtain hsame | ⟨position, delay, rfl, hset⟩ := respond_timers hx
  · exact hI.timers y (hsame ▸ hy)
  · rw [hset] at hy
    obtain rfl | hy := List.mem_cons.mp hy
    · obtain ⟨hop, rfl, offer, r', m, hmade, hm, hle⟩ | ⟨offer, r', b, hsuffix, hadvanced, rfl⟩ := hasks
      · have hclock : m ≤ s.now := hfacts.answers _ hm
        exact ⟨offer, hfacts.answers _ hmade hop, hle.trans (Nat.add_le_add_right hclock _)⟩
      · refine ⟨offer, hfacts.made offer r' b position hsuffix hadvanced, ?_⟩
        obtain ⟨read, c', next, m, rest, rfl, -, -, -, hexpires, -⟩ := hadvanced
        have hclock : m ≤ s.now :=
          hfacts.answers ⟨.now, .ok m⟩ (hsuffix.subset (by simp))
        rw [hexpires]
        exact Nat.add_le_add_right hclock _
    · exact hI.timers y hy

/-- What the answer says is so. -/
theorem Inv.fact_ran (hnodup : (cfg.ranked.map (·.address)).Nodup) (hasks : Asks cfg t a c)
    (hcareful : Careful tr ⟨.ran t c r, s, s'⟩)
    (hall : ∀ e ∈ tr, ∀ c r, e.label = .ran t c r → ⟨c, r⟩ ∈ a)
    (hev : ∃ e ∈ tr, e.label.tag? = some t) :
    Fact cfg (⟨.ran t c r, s, s'⟩ :: tr) s.now t ⟨c, r⟩ := by
  have hfacts := hI.facts t a hknown
  cases c with
  | setOffer offer =>
    intro hop
    obtain ⟨-, hnone, -⟩ | ⟨hne, -⟩ := hasks
    · simp [offered_setOffer, hI.first hknown hall hev hop hnone]
    · exact absurd hop hne
  | now =>
    cases r with
    | error code => trivial
    | ok m =>
      have heffect := respond_ok hx
      exact (Prod.mk.inj heffect).1.ge
  | rankedEntries =>
    cases r with
    | error code => trivial
    | ok ranked =>
      have heffect := respond_ok hx
      exact (Prod.mk.inj heffect).1.symm
  | getOffer =>
    cases r with
    | error code => trivial
    | ok found =>
      cases found with
      | none => trivial
      | some offer =>
        have heffect := (Prod.mk.inj (respond_ok hx)).1
        obtain ⟨expires, hoffer⟩ := live_eq_some heffect
        exact (offered_cons _ tr).subset (hI.holder offer expires hoffer)
  | readCascade =>
    cases r with
    | error code => trivial
    | ok found =>
      cases found with
      | none => trivial
      | some cascade =>
        have heffect := (Prod.mk.inj (respond_ok hx)).1
        obtain ⟨expires, hstored⟩ := live_eq_some heffect
        obtain ⟨hranked, hposition⟩ := hI.stored cascade expires hstored
        refine ⟨hranked, ?_⟩
        have hown := hcareful.own t cascade rfl
        refine Passed.cons ?_ (le_refl _)
        obtain ⟨position, hop⟩ | ⟨offer, hop, hread, hcleared⟩ := hasks
        · simp only [OwnPosition, hop] at hown
          obtain ⟨offer, hoffer, hexpires⟩ := hfacts.fired position hop
          exact ⟨offer, hown ▸ hoffer, .inl hexpires⟩
        · simp only [OwnPosition, hop] at hown
          obtain ⟨entry, hentry, haddress⟩ := hown
          have hheld : offer ∈ offered tr := hfacts.answers _ hread
          obtain ⟨e, he, hlabel⟩ := known_mem hknown hcleared
          exact ⟨offer, position_of_address (Config.queue_nodup hnodup) hI.order hheld
            (hranked ▸ hentry) haddress, .inr ⟨e, he, t, hlabel, hop⟩⟩
  | _ => trivial

theorem Inv.facts_ran (hnodup : (cfg.ranked.map (·.address)).Nodup) (hasks : Asks cfg t a c)
    (hcareful : Careful tr ⟨.ran t c r, s, s'⟩)
    (hall : ∀ e ∈ tr, ∀ c r, e.label = .ran t c r → ⟨c, r⟩ ∈ a)
    (hev : ∃ e ∈ tr, e.label.tag? = some t) {a' : Answers Ans Code}
    (hknown' : known (⟨.ran t c r, s, s'⟩ :: tr) t' = some a') :
    Facts cfg (⟨.ran t c r, s, s'⟩ :: tr) s'.now t' a' := by
  rw [(respond_fixed hx).1]
  obtain ⟨rfl, rfl⟩ | ⟨-, hold⟩ := known_answered hknown hknown'
  · refine ((hI.facts t' a hknown).cons (le_refl _)).answered
      (hI.fact_ran hknown hx hnodup hasks hcareful hall hev) ?_ ?_
    · rintro code rfl
      exact respond_local hx
    · rintro offer rfl position hadvanced
      rw [offered_setOffer, (hI.advanced hknown hadvanced).1]
      simp
  · exact (hI.facts t' a' hold).cons (le_refl _)

omit hI hx in
/-- A program that is about to make an offer was, unless it moved the cascade just now. -/
theorem moving_old {a' : Answers Ans Code} {c₁ : TaskCascade}
    (hknown' : known (⟨.ran t c r, s, s'⟩ :: tr) t' = some a') (hmoving : Moving a' c₁) :
    (t' = t ∧ (⟨c, r⟩ : (c : Cmd) × Except Code (Ans c)) = ⟨.moveCascade c₁, .ok ()⟩) ∨
      ∃ a₀, known tr t' = some a₀ ∧ Moving a₀ c₁ ∧ (t' = t → c = .now) := by
  obtain ⟨rfl, rfl⟩ | ⟨hne, hold⟩ := known_answered hknown hknown'
  · obtain heq | ⟨rfl, hold⟩ := hmoving.of_cons
    · exact .inl ⟨rfl, heq⟩
    · exact .inr ⟨a, hknown, hold, fun _ => rfl⟩
  · exact .inr ⟨a', hold, hmoving, fun heq => absurd heq hne⟩

theorem Inv.moving_ran (hasks : Asks cfg t a c) (hcareful : Careful tr ⟨.ran t c r, s, s'⟩)
    (hall : ∀ e ∈ tr, ∀ c r, e.label = .ran t c r → ⟨c, r⟩ ∈ a)
    (hev : ∃ e ∈ tr, e.label.tag? = some t)
    (hfresh : ∀ cascade, c = .setCascade cascade →
      ∀ e ∈ tr, ∀ t cascade r, e.label ≠ .ran t (.setCascade cascade) r)
    {a' : Answers Ans Code} {c₁ : TaskCascade}
    (hknown' : known (⟨.ran t c r, s, s'⟩ :: tr) t' = some a') (hmoving : Moving a' c₁) :
    c₁.position = (offered (⟨.ran t c r, s, s'⟩ :: tr)).length ∧
      ∀ cascade expires, s'.cascade = some (cascade, expires) → cascade.position = c₁.position := by
  obtain ⟨rfl, heq⟩ | ⟨a₀, hold, hmoving, hsame⟩ := moving_old hknown hknown' hmoving
  · -- The program has just moved the cascade.
    cases heq
    obtain ⟨read, next, rest, ha, rfl, -⟩ := hasks
    obtain ⟨hat, -⟩ := hI.moves hknown ha (hcareful.unmoved t' _ _ rfl)
    refine ⟨hat, fun cascade expires h => ?_⟩
    have hset := (Prod.mk.inj (respond_ok hx)).2
    rw [← hset] at h
    cases h
    rfl
  · obtain ⟨hlast, hstore⟩ := hI.moving t' a₀ c₁ hold hmoving
    have hread : ∃ read, ⟨.readCascade, .ok (some read)⟩ ∈ a₀ ∧ 0 < c₁.position := by
      obtain ⟨read, hmem, rfl⟩ := hmoving.read
      exact ⟨read, hmem, Nat.succ_pos _⟩
    obtain ⟨read, hmem, hpos⟩ := hread
    have hoffer : ∀ offer, c ≠ .setOffer offer := by
      rintro offer rfl
      obtain ⟨-, ⟨-, hfirst⟩ | ⟨c₂, hmoving₂, -⟩⟩ := hI.offers hknown hasks hall hev
      · rw [hlast, hfirst] at hpos
        exact absurd hpos (lt_irrefl _)
      · cases hsame (hI.sole t t' a a₀ c₂ c₁ hknown hold hmoving₂ hmoving)
    rw [offered_other fun t' offer r' hlabel => hoffer offer (by cases hlabel; rfl)]
    refine ⟨hlast, fun cascade expires h => ?_⟩
    obtain hsame | hnone | ⟨cascade', rfl | rfl, -⟩ := respond_cascade hx
    · exact hstore cascade expires (hsame ▸ h)
    · rw [hnone] at h
      cases h
    · exact absurd hmem ((hI.unstored (hfresh _ rfl)).2.2 t' a₀ hold read)
    · obtain ⟨read', next, rest, ha, heq, -⟩ := hasks
      subst heq
      exact absurd hmoving ((hI.moves hknown ha (hcareful.unmoved t _ r rfl)).2 t' a₀ c₁ hold)

omit hx in
theorem Inv.sole_ran (hasks : Asks cfg t a c) (hcareful : Careful tr ⟨.ran t c r, s, s'⟩)
    {t₁ t₂ : Call} {a₁ a₂ : Answers Ans Code} {c₁ c₂ : TaskCascade}
    (h₁ : known (⟨.ran t c r, s, s'⟩ :: tr) t₁ = some a₁)
    (h₂ : known (⟨.ran t c r, s, s'⟩ :: tr) t₂ = some a₂) (hm₁ : Moving a₁ c₁)
    (hm₂ : Moving a₂ c₂) : t₂ = t₁ := by
  have hnone : ∀ {c'}, c = .moveCascade c' → ∀ t' a' c', known tr t' = some a' →
      ¬ Moving a' c' := by
    rintro c' rfl
    obtain ⟨read, next, rest, ha, heq, -⟩ := hasks
    subst heq
    exact (hI.moves hknown ha (hcareful.unmoved t _ r rfl)).2
  obtain ⟨rfl, heq⟩ | ⟨a₁', hold₁, hm₁, -⟩ := moving_old hknown h₁ hm₁ <;>
    obtain ⟨rfl, heq'⟩ | ⟨a₂', hold₂, hm₂, -⟩ := moving_old hknown h₂ hm₂
  · rfl
  · cases heq
    exact absurd hm₂ (hnone rfl _ _ _ hold₂)
  · cases heq'
    exact absurd hm₁ (hnone rfl _ _ _ hold₁)
  · exact hI.sole _ _ _ _ _ _ hold₁ hold₂ hm₁ hm₂

omit hx in
theorem Inv.opens_ran (hasks : Asks cfg t a c)
    (hall : ∀ e ∈ tr, ∀ c r, e.label = .ran t c r → ⟨c, r⟩ ∈ a)
    (hev : ∃ e ∈ tr, e.label.tag? = some t)
    (hne : offered (⟨.ran t c r, s, s'⟩ :: tr) ≠ []) :
    ∃ e ∈ ⟨.ran t c r, s, s'⟩ :: tr, ∃ t offer r, t.op = .start ∧
      e.label = .ran t (.setOffer offer) r := by
  by_cases hold : offered tr = []
  · by_cases hoffer : ∃ offer, c = .setOffer offer
    · obtain ⟨offer, rfl⟩ := hoffer
      obtain ⟨-, ⟨hop, -⟩ | ⟨c', -, hpos, -⟩⟩ := hI.offers hknown hasks hall hev
      · exact ⟨_, List.mem_cons_self, t, offer, r, hop, rfl⟩
      · rw [hold] at hpos
        cases hpos
    · rw [offered_other fun t' offer r' hlabel => hoffer ⟨offer, by cases hlabel; rfl⟩] at hne
      exact absurd hold hne
  · obtain ⟨e, he, hopens⟩ := hI.opens hold
    exact ⟨e, List.mem_cons_of_mem _ he, hopens⟩

theorem Inv.unstored_ran (hasks : Asks cfg t a c)
    (hall : ∀ e ∈ tr, ∀ c r, e.label = .ran t c r → ⟨c, r⟩ ∈ a)
    (hev : ∃ e ∈ tr, e.label.tag? = some t)
    (hnone : ∀ e ∈ (⟨.ran t c r, s, s'⟩ : Ev) :: tr, ∀ t cascade r,
      e.label ≠ .ran t (.setCascade cascade) r) :
    s'.cascade = none ∧ (offered (⟨.ran t c r, s, s'⟩ :: tr)).length ≤ 1 ∧
      ∀ t' a', known (⟨.ran t c r, s, s'⟩ :: tr) t' = some a' →
        ∀ cascade, ⟨.readCascade, .ok (some cascade)⟩ ∉ a' := by
  obtain ⟨hempty, hone, hunread⟩ := hI.unstored fun e he => hnone e (List.mem_cons_of_mem _ he)
  refine ⟨?_, ?_, fun t' a' hknown' cascade hmem => ?_⟩
  · obtain hsame | hgone | ⟨cascade, rfl | rfl, -⟩ := respond_cascade hx
    · rw [hsame, hempty]
    · exact hgone
    · exact absurd rfl (hnone _ List.mem_cons_self t cascade r)
    · obtain ⟨read, next, rest, ha, -⟩ := hasks
      exact absurd (by simp [ha]) (hunread t a hknown read)
  · by_cases hoffer : ∃ offer, c = .setOffer offer
    · obtain ⟨offer, rfl⟩ := hoffer
      obtain ⟨-, ⟨-, hfirst⟩ | ⟨c', hmoving, -⟩⟩ := hI.offers hknown hasks hall hev
      · simp [offered_setOffer, hfirst]
      · obtain ⟨read, hmem, -⟩ := hmoving.read
        exact absurd hmem (hunread t a hknown read)
    · rwa [offered_other fun t' offer r' hlabel => hoffer ⟨offer, by cases hlabel; rfl⟩]
  · obtain ⟨rfl, rfl⟩ | ⟨-, hold⟩ := known_answered hknown hknown'
    · obtain heq | hmem := List.mem_cons.mp hmem
      · cases heq
        obtain ⟨expires, hstored⟩ := live_eq_some (Prod.mk.inj (respond_ok hx)).1
        rw [hempty] at hstored
        cases hstored
      · exact hunread t' a hknown cascade hmem
    · exact hunread t' a' hold cascade hmem

omit hx in
theorem Inv.ended_ran (hasks : Asks cfg t a c)
    (hall : ∀ e ∈ tr, ∀ c r, e.label = .ran t c r → ⟨c, r⟩ ∈ a)
    (hev : ∃ e ∈ tr, e.label.tag? = some t)
    (hend : ∃ e ∈ (⟨.ran t c r, s, s'⟩ : Ev) :: tr, ∃ t r, e.label = .ran t .endCascade r) :
    (offered (⟨.ran t c r, s, s'⟩ :: tr)).length = cfg.queue.length ∧
      Passed (⟨.ran t c r, s, s'⟩ :: tr) s.now (cfg.queue.length - 1) := by
  suffices hat : (offered tr).length = cfg.queue.length ∧
      Passed tr s.now (cfg.queue.length - 1) by
    refine ⟨?_, hat.2.cons (le_refl _)⟩
    have hle := (hI.order_ran hknown r s' hasks hall hev).length_le
    have hge := (offered_cons ⟨.ran t c r, s, s'⟩ tr).length_le
    simp only [List.length_map] at hle
    omega
  obtain ⟨e, he, t', r', hlabel⟩ := hend
  obtain rfl | he := List.mem_cons.mp he
  · cases hlabel
    obtain ⟨read, rest, ha, hlast⟩ := hasks
    obtain ⟨hranked, hpassed⟩ := hI.read_of hknown (head_mem ha)
    have hlt := hpassed.lt
    have hle := hI.length_le
    rw [hranked] at hlast
    have hat : read.position = cfg.queue.length - 1 := by omega
    exact ⟨by omega, hat ▸ hpassed⟩
  · exact hI.ended ⟨e, he, t', r', hlabel⟩

/-- A command of a program keeps the invariant. -/
theorem Inv.ran (hnodup : (cfg.ranked.map (·.address)).Nodup) (hasks : Asks cfg t a c)
    (hcareful : Careful tr ⟨.ran t c r, s, s'⟩)
    (hall : ∀ e ∈ tr, ∀ c r, e.label = .ran t c r → ⟨c, r⟩ ∈ a)
    (hev : ∃ e ∈ tr, e.label.tag? = some t)
    (hfresh : ∀ cascade, c = .setCascade cascade →
      ∀ e ∈ tr, ∀ t cascade r, e.label ≠ .ran t (.setCascade cascade) r) :
    Inv cfg (⟨.ran t c r, s, s'⟩ :: tr) s' where
  order := hI.order_ran hknown r s' hasks hall hev
  holder _ := hI.holder_ran hx
  stored := hI.stored_ran hknown hx hasks hcareful hall hev hfresh
  timers := hI.timers_ran hknown hx hasks
  facts t' a' := hI.facts_ran hknown hx hnodup hasks hcareful hall hev
  moving t' a' c₁ := hI.moving_ran hknown hx hasks hcareful hall hev hfresh
  sole t₁ t₂ a₁ a₂ c₁ c₂ := hI.sole_ran hknown hasks hcareful
  opens := hI.opens_ran hknown hasks hall hev
  unstored := hI.unstored_ran hknown hx hasks hall hev
  ended := by
    rw [(respond_fixed hx).1]
    exact hI.ended_ran hknown hasks hall hev
  starts := by
    rw [(respond_fixed hx).2.1]
    have htag : ∀ e ∈ (⟨.ran t c r, s, s'⟩ : Ev) :: tr, ∀ t', e.label.tag? = some t' →
        ∃ e ∈ tr, e.label.tag? = some t' := by
      intro e he t' htag
      obtain rfl | he := List.mem_cons.mp he
      · cases htag
        exact hev
      · exact ⟨e, he, htag⟩
    intro e he t' ht' hop
    obtain ⟨e₀, he₀, ht₀⟩ := htag e he t' ht'
    refine ⟨(hI.starts e₀ he₀ t' ht₀ hop).1, fun e' he' t'' ht'' hop'' => ?_⟩
    obtain ⟨e₁, he₁, ht₁⟩ := htag e' he' t'' ht''
    exact (hI.starts e₀ he₀ t' ht₀ hop).2 e₁ he₁ t'' ht₁ hop''

end Ran

/-! ## One step -/

/-- A step that answers nothing starts a program with nothing, or leaves it what it knew. -/
theorem known_before (hne : ∀ (t : Call) (c : Cmd) (r : Except Code (Ans c)),
    e.label ≠ .ran t c r) (ha : known (e :: tr) t = some a) :
    known tr t = some a ∨ a = [] ∧ e.label = .started t := by
  by_cases htag : e.label.tag? = some t
  · obtain ⟨label, pre, post⟩ := e
    cases label with
    | ran t' c r => exact absurd rfl (hne t' c r)
    | started t' =>
      cases htag
      rw [known_started, if_pos rfl] at ha
      cases ha
      exact .inr ⟨rfl, rfl⟩
    | finished t' r =>
      cases htag
      simp at ha
    | env => cases htag
    | died t' =>
      cases htag
      simp at ha
  · exact .inl (known_other htag ▸ ha)

/-- What a step does that runs no command. -/
structure Quiet (tr : List Ev) (s : State) (e : Ev) (s' : State) : Prop where
  label : ∀ (t : Call) (c : Cmd) (r : Except Code (Ans c)), e.label ≠ .ran t c r
  now : s.now ≤ s'.now
  offer : s'.offer = s.offer
  cascade : s'.cascade = s.cascade
  timers : ∀ x ∈ s'.timers, x ∈ s.timers
  started : s.started = true → s'.started = true
  fired : ∀ t position, e.label = .started t → t.op = .timer position →
    ∃ x ∈ s.timers, x.position = position ∧ x.due ≤ s'.now
  starts : ∀ t, e.label.tag? = some t → t.op = .start →
    (∃ e' ∈ tr, e'.label.tag? = some t) ∨ s.started = false ∧ s'.started = true

theorem Quiet.of_silent (hran : ∀ (t : Call) (c : Cmd) (r : Except Code (Ans c)),
    e.label ≠ .ran t c r) (hstarted : ∀ t, e.label ≠ .started t)
    (htag : ∀ t, e.label.tag? = some t → ∃ e' ∈ tr, e'.label.tag? = some t)
    (hnow : s.now ≤ s'.now) (hoffer : s'.offer = s.offer) (hcascade : s'.cascade = s.cascade)
    (htimers : ∀ x ∈ s'.timers, x ∈ s.timers) (hsame : s'.started = s.started) :
    Quiet tr s e s' where
  label := hran
  now := hnow
  offer := hoffer
  cascade := hcascade
  timers := htimers
  started := hsame.trans
  fired t _ hlabel := absurd hlabel (hstarted t)
  starts t ht _ := .inl (htag t ht)

theorem Inv.quiet (hI : Inv cfg tr s) (h : Quiet tr s e s') : Inv cfg (e :: tr) s' := by
  have hoffered : offered (e :: tr) = offered tr := offered_other fun t offer r => h.label t _ r
  have hold : ∀ {t a c'}, known (e :: tr) t = some a → Moving a c' → known tr t = some a := by
    intro t a c' hknown hmoving
    obtain hknown | ⟨rfl, -⟩ := known_before h.label hknown
    · exact hknown
    · exact absurd hmoving Moving.not_nil
  refine ⟨?_, ?_, ?_, ?_, ?_, ?_, ?_, ?_, ?_, ?_, ?_⟩
  · rw [hoffered]
    exact hI.order
  · rw [hoffered, h.offer]
    exact hI.holder
  · rw [hoffered, h.cascade]
    exact hI.stored
  · rw [hoffered]
    exact fun x hx => hI.timers x (h.timers x hx)
  · intro t a hknown
    obtain hknown | ⟨rfl, hlabel⟩ := known_before h.label hknown
    · exact (hI.facts t a hknown).cons h.now
    · refine ⟨by simp, fun ⟨_, _, _, hmem⟩ => (by cases hmem), fun position hop => ?_,
        fun offer r b position hsuffix => (by simp at hsuffix)⟩
      obtain ⟨x, hx, rfl, hdue⟩ := h.fired t position hlabel hop
      obtain ⟨offer, hoffer, hexpires⟩ := hI.timers x hx
      exact ⟨offer, by rwa [hoffered], hexpires.trans hdue⟩
  · intro t a c' hknown hmoving
    rw [hoffered, h.cascade]
    exact hI.moving t a c' (hold hknown hmoving) hmoving
  · exact fun t t' a a' c₁ c₂ hk hk' hm hm' =>
      hI.sole t t' a a' c₁ c₂ (hold hk hm) (hold hk' hm') hm hm'
  · rw [hoffered]
    intro hne
    obtain ⟨e', he', hopens⟩ := hI.opens hne
    exact ⟨e', List.mem_cons_of_mem _ he', hopens⟩
  · intro hnone
    obtain ⟨hempty, hone, hunread⟩ := hI.unstored fun e' he' => hnone e' (List.mem_cons_of_mem _ he')
    rw [hoffered, h.cascade]
    refine ⟨hempty, hone, fun t a hknown cascade => ?_⟩
    obtain hknown | ⟨rfl, -⟩ := known_before h.label hknown
    · exact hunread t a hknown cascade
    · simp
  · rintro ⟨e', he', t, r, hlabel⟩
    obtain rfl | he' := List.mem_cons.mp he'
    · exact absurd hlabel (h.label t _ r)
    · obtain ⟨hlength, hpassed⟩ := hI.ended ⟨e', he', t, r, hlabel⟩
      exact ⟨hoffered ▸ hlength, hpassed.cons h.now⟩
  · intro e₁ he₁ t₁ ht₁ hop₁
    -- A new start comes before any other.
    have hcase : ∀ e₁ ∈ e :: tr, ∀ t₁, e₁.label.tag? = some t₁ → t₁.op = .start →
        (∃ e' ∈ tr, e'.label.tag? = some t₁) ∨
          e.label.tag? = some t₁ ∧ s.started = false ∧ s'.started = true := by
      intro e₁ he₁ t₁ ht₁ hop₁
      obtain rfl | he₁ := List.mem_cons.mp he₁
      · exact (h.starts t₁ ht₁ hop₁).imp id fun hnew => ⟨ht₁, hnew⟩
      · exact .inl ⟨e₁, he₁, ht₁⟩
    obtain ⟨e₂, he₂, ht₂⟩ | ⟨ht₂, hnew, hstarted⟩ := hcase e₁ he₁ t₁ ht₁ hop₁
    · obtain ⟨hs, hall⟩ := hI.starts e₂ he₂ t₁ ht₂ hop₁
      refine ⟨h.started hs, fun e₃ he₃ t₃ ht₃ hop₃ => ?_⟩
      obtain ⟨e₄, he₄, ht₄⟩ | ⟨-, hnew, -⟩ := hcase e₃ he₃ t₃ ht₃ hop₃
      · exact hall e₄ he₄ t₃ ht₄ hop₃
      · rw [hs] at hnew
        cases hnew
    · refine ⟨hstarted, fun e₃ he₃ t₃ ht₃ hop₃ => ?_⟩
      obtain ⟨e₄, he₄, ht₄⟩ | ⟨ht₄, -⟩ := hcase e₃ he₃ t₃ ht₃ hop₃
      · rw [(hI.starts e₄ he₄ t₃ ht₄ hop₃).1] at hnew
        cases hnew
      · exact Option.some.inj (ht₄.symm.trans ht₂)

theorem enter_quiet (h : enter s t = some s') : s.now = s'.now ∧ s'.offer = s.offer ∧
    s'.cascade = s.cascade ∧ (∀ x ∈ s'.timers, x ∈ s.timers) ∧
    (s.started = true → s'.started = true) ∧
    (∀ position, t.op = .timer position → ∃ x ∈ s.timers, x.position = position ∧ x.due ≤ s'.now) ∧
    (t.op = .start → s.started = false ∧ s'.started = true) := by
  unfold enter at h
  split at h
  · next hop =>
    split at h
    · cases h
    · next hs =>
      cases h
      exact ⟨rfl, rfl, rfl, fun _ hx => hx, fun _ => rfl, fun position hop' => by simp [hop] at hop',
        fun _ => ⟨by simpa using hs, rfl⟩⟩
  · next position hop =>
    split at h
    · next x hfind =>
      cases h
      refine ⟨rfl, rfl, rfl, fun _ hx => List.mem_of_mem_erase hx, id, fun position' hop' => ?_,
        fun hop' => by simp [hop] at hop'⟩
      obtain rfl : position = position' := by simpa [hop] using hop'
      have htest := List.find?_some hfind
      simp only [decide_eq_true_eq] at htest
      exact ⟨x, List.mem_of_find?_eq_some hfind, htest.1, htest.2⟩
    · cases h
  all_goals
    next hop =>
      cases h
      exact ⟨rfl, rfl, rfl, fun _ hx => hx, id, fun position hop' => by simp [hop] at hop',
        fun hop' => by simp [hop] at hop'⟩

/-! ## Runs -/

theorem known_event (h : known tr t = some a) : ∃ e ∈ tr, e.label.tag? = some t := by
  by_contra hnone
  push Not at hnone
  rw [known_fresh hnone] at h
  cases h

theorem backend_move {b b' : Pool Ans Code Unit Call State}
    (hrun : PoolRun (backend cfg) ⟨s₀, []⟩ tr b) (hs : Step (backend cfg) b e b') :
    Move (backend cfg) (Asks cfg) (fun _ _ _ => True) tr b.state e b'.state :=
  backend_numbered.move hrun hs fun _ _ _ _ _ hx => hx.2.1 ▸ told_prog

/-- Only the start stores the ranking. -/
theorem setCascade_start (h : PoolRun (backend cfg) ⟨s₀, []⟩ tr pool) (he : e ∈ tr)
    {r : Except Code (Ans (.setCascade c'))} (hlabel : e.label = .ran t (.setCascade c') r) :
    t.op = .start := by
  obtain ⟨later, earlier, b, b', rfl, hrun, hs, -⟩ := Run.split_mem h he
  have hm := backend_move hrun hs
  generalize b.state = s at hm
  generalize b'.state = s' at hm
  cases hm with
  | ran t' a c r' hknown hasks hx =>
    cases hlabel
    exact hasks.1
  | _ => cases hlabel

theorem inv_run (h : PoolRun (backend cfg) ⟨s₀, []⟩ tr pool) (h0 : Initial s₀)
    (hnodup : (cfg.ranked.map (·.address)).Nodup) (hcareful : Throughout Careful tr) :
    Inv cfg tr pool.state := by
  revert hcareful
  refine Run.invariant (I := fun tr pool => Throughout Careful tr → Inv cfg tr pool.state) h
    (fun _ => h0.inv) ?_
  intro tr b e b' hrun hat hs hcareful
  have hI := hat hcareful.tail
  have hnow := hcareful.head
  have hm := backend_move hrun hs
  generalize hb : b.state = s at hm hI
  generalize b'.state = s' at hm
  cases hm with
  | ran t a c r hknown hasks hx =>
    obtain ⟨x, hx⟩ := hx
    have hall : ∀ e ∈ tr, ∀ c r, e.label = .ran t c r → ⟨c, r⟩ ∈ a :=
      fun e he c r hlabel => backend_numbered.known_all hrun hknown he hlabel
    refine hI.ran hknown hx hnodup hasks hnow hall (known_event hknown) ?_
    rintro cascade rfl e he t' cascade' r' hlabel
    obtain ⟨e₀, he₀, htag⟩ := known_event hknown
    obtain rfl := (hI.starts e₀ he₀ t htag hasks.1).2 e he t' (by rw [hlabel]; rfl)
      (setCascade_start hrun he hlabel)
    exact hasks.2.1 _ _ (hall e he _ _ hlabel)
  | started t p tags hfresh hx =>
    obtain ⟨-, -, henter⟩ := hx
    obtain ⟨hnow, hoffer, hcascade, htimers, hstarted, hfired, hstart⟩ := enter_quiet henter
    refine hI.quiet ⟨by simp, hnow.le, hoffer, hcascade, htimers, hstarted,
      fun t' position hlabel hop => ?_, fun t' htag hop => ?_⟩
    · cases hlabel
      exact hfired position hop
    · cases htag
      exact .inr (hstart hop)
  | finished t a r hknown hends =>
    refine hI.quiet (.of_silent (by simp) (by simp) (fun t' htag => ?_) (le_refl _) rfl rfl
      (fun _ hx => hx) rfl)
    cases htag
    exact known_event hknown
  | env hx =>
    cases hx with
    | wait ms =>
      exact hI.quiet (.of_silent (by simp) (by simp) (fun t' htag => by cases htag)
        (Nat.le_add_right _ _) rfl rfl (fun _ hx => hx) rfl)
    | restart =>
      exact hI.quiet (.of_silent (by simp) (by simp) (fun t' htag => by cases htag)
        (le_refl _) rfl rfl (fun _ hx => (by cases hx)) rfl)
  | died t a hknown hx =>
    subst hx
    refine hI.quiet (.of_silent (by simp) (by simp) (fun t' htag => ?_) (le_refl _) rfl rfl
      (fun _ hx => hx) rfl)
    cases htag
    exact known_event hknown

/-- The offers of a run go down the ranking one by one. -/
structure InTurn (cfg : Config) (tr : List Ev) : Prop where
  order : (offered tr).map (·.address) <+: cfg.queue.map (·.address)
  distinct : ((offered tr).map (·.address)).Nodup
  /-- An offer is replaced when its window has ended or its holder has declined. -/
  replaced : ∀ later e earlier t offer r last, tr = later ++ e :: earlier →
    e.label = .ran t (.setOffer offer) r → (offered earlier).getLast? = some last →
    Over earlier e.pre.now last
  /-- The task is broadcast before any offer, or after the window of the last position. -/
  broadcast : ∀ later e earlier t r, tr = later ++ e :: earlier →
    e.label = .ran t .emitTaskAvailable r → offered earlier = [] ∨
      (offered earlier).length = cfg.queue.length ∧
        ∀ last, (offered earlier).getLast? = some last → Over earlier e.pre.now last

theorem Passed.last {last : TaskOffer} (h : Passed tr now ((offered tr).length - 1))
    (hlast : (offered tr).getLast? = some last) : Over tr now last := by
  obtain ⟨offer, hoffer, hover⟩ := h
  rw [List.getLast?_eq_getElem?, hoffer] at hlast
  exact Option.some.inj hlast ▸ hover

/-- In a run whose advances find the ranking at their own position and move it on from there, and
miss it only when it is used up, every ranked agent is offered the task in its turn. -/
theorem offers_in_turn (h : PoolRun (backend cfg) ⟨s₀, []⟩ tr pool) (h0 : Initial s₀)
    (hnodup : (cfg.ranked.map (·.address)).Nodup) (hcareful : Throughout Careful tr) :
    InTurn cfg tr := by
  have hwhole := inv_run h h0 hnodup hcareful
  refine ⟨hwhole.order, (Config.queue_nodup hnodup).sublist hwhole.order.sublist, ?_, ?_⟩
  · rintro later e earlier t offer r last rfl hlabel hlast
    clear hwhole
    obtain ⟨b, b', hrun, hs, -⟩ := h.split
    have hI := inv_run hrun h0 hnodup fun later' e' earlier' heq =>
      hcareful (later ++ e :: later') e' earlier' (by rw [heq]; simp)
    have hm := backend_move hrun hs
    generalize b.state = s at hm hI
    generalize b'.state = s' at hm
    cases hm with
    | ran t' a c r' hknown hasks hx =>
      cases hlabel
      obtain ⟨-, ⟨-, hfirst⟩ | ⟨c', -, -, hpassed⟩⟩ := hI.offers hknown hasks
        (fun e he c r hlabel => backend_numbered.known_all hrun hknown he hlabel)
        (known_event hknown)
      · rw [hfirst] at hlast
        cases hlast
      · exact hpassed.last hlast
    | _ => cases hlabel
  · rintro later e earlier t r rfl hlabel
    clear hwhole
    obtain ⟨b, b', hrun, hs, -⟩ := h.split
    have hearlier : Throughout Careful earlier := fun later' e' earlier' heq =>
      hcareful (later ++ e :: later') e' earlier' (by rw [heq]; simp)
    have hI := inv_run hrun h0 hnodup hearlier
    have hm := backend_move hrun hs
    generalize b.state = s at hm hI
    generalize b'.state = s' at hm
    cases hm with
    | ran t' a c r' hknown hasks hx =>
      cases hlabel
      have hended : (∃ e ∈ earlier, ∃ t r, e.label = .ran t .endCascade r) →
          (offered earlier).length = cfg.queue.length ∧
            ∀ last, (offered earlier).getLast? = some last → Over earlier s.now last := fun hend => by
        obtain ⟨hlength, hpassed⟩ := hI.ended hend
        exact ⟨hlength, fun last hlast => Passed.last (hlength ▸ hpassed) hlast⟩
      obtain ⟨hop, hnone⟩ | ⟨rest, rfl | rfl⟩ | hlocal := hasks
      · exact .inl (hI.first hknown (fun e he c r hlabel =>
          backend_numbered.known_all hrun hknown he hlabel) (known_event hknown) hop hnone)
      · obtain ⟨e₁, he₁, hlabel₁⟩ := known_mem hknown List.mem_cons_self
        obtain ⟨mid, first, rfl⟩ := List.append_of_mem he₁
        obtain ⟨e₂, he₂, hend⟩ := (hearlier mid e₁ first rfl).ended t hlabel₁
        exact .inr (hended ⟨e₂, by simp [he₂], hend⟩)
      · obtain ⟨e₁, he₁, hlabel₁⟩ := known_mem hknown List.mem_cons_self
        exact .inr (hended ⟨e₁, he₁, t, _, hlabel₁⟩)
      · exact absurd hlocal (hI.facts t a hknown).heard
    | _ => cases hlabel

/-! ## Runs of three agents -/

abbrev Cues := List (Cue Call Reply Env)

/-- Ten milliseconds before the first window ends its holder declines; the timer fires when the
decline is past its checks, and both advance the cascade. -/
def declineMeetsTimer : List (Cue Call Reply Env) :=
  ([.enter ⟨0, .start⟩] : Cues) ++ (List.replicate 6 (.turn 0 .answered) : Cues) ++
  ([.leave 0, .move (.wait 11990), .enter ⟨1, .decline 11⟩] : Cues) ++
    (List.replicate 4 (.turn 0 .answered) : Cues) ++
  ([.move (.wait 10), .enter ⟨2, .timer 0⟩] : Cues) ++
    (List.replicate 2 (.turn 0 .answered) : Cues) ++
    (List.replicate 7 (.turn 1 .answered) : Cues) ++ (List.replicate 4 (.turn 0 .answered) : Cues)

theorem declineMeetsTimer_plays :
    ((stage demoConfig).play declineMeetsTimer ⟨{}, []⟩).isSome = true := by decide

/-- The last step of a run replaces an offer whose window is open and that nobody declined. -/
def cutsShort : List Ev → Bool
  | e :: earlier =>
    match e.label with
    | .ran _ (.setOffer _) _ =>
      (offered earlier).getLast?.any fun last => e.pre.now < last.expiresAt &&
        earlier.all fun e' =>
          match e'.label with
          | .ran t .clearOffer _ => t.op ≠ .decline last.address
          | _ => true
    | _ => false
  | [] => false

theorem cutsShort_not_inTurn (h : cutsShort tr = true) : ¬ InTurn cfg tr := by
  unfold cutsShort at h
  split at h
  · next e earlier =>
    split at h
    · next t offer r hlabel =>
      obtain ⟨last, hlast, htest⟩ := (Option.any_eq_true _ _).mp h
      simp only [Bool.and_eq_true, decide_eq_true_eq] at htest
      intro hturn
      obtain hover | ⟨e', he', t', hlabel', hop⟩ :=
        hturn.replaced [] e earlier t offer r last rfl hlabel hlast
      · exact absurd hover (not_le.mpr htest.1)
      · have hall := List.all_eq_true.mp htest.2 e' he'
        rw [hlabel'] at hall
        simp [hop] at hall
    · cases h
  · cases h

theorem declineMeetsTimer_cutsShort : cutsShort (((stage demoConfig).play declineMeetsTimer
    ⟨{}, []⟩).get declineMeetsTimer_plays).1 = true := by decide

/-- The second agent loses its window as it opens. -/
theorem offers_in_turn_fails : ∃ tr pool,
    PoolRun (backend demoConfig) ⟨{}, []⟩ tr pool ∧ Initial {} ∧
      (demoConfig.ranked.map (·.address)).Nodup ∧ ¬ InTurn demoConfig tr :=
  ⟨_, _, Async.Stage.play_get declineMeetsTimer_plays, ⟨rfl, rfl, rfl⟩, by decide,
    cutsShort_not_inTurn declineMeetsTimer_cutsShort⟩

/-- The first window ends, the second agent declines, the third window ends. -/
def uncontended : List (Cue Call Reply Env) :=
  ([.enter ⟨0, .start⟩] : Cues) ++ (List.replicate 6 (.turn 0 .answered) : Cues) ++
  ([.leave 0, .move (.wait 12000), .enter ⟨1, .timer 0⟩] : Cues) ++
    (List.replicate 8 (.turn 0 .answered) : Cues) ++
  ([.leave 0, .move (.wait 5), .enter ⟨2, .decline 12⟩] : Cues) ++
    (List.replicate 11 (.turn 0 .answered) : Cues) ++
  ([.leave 0, .move (.wait 12001), .enter ⟨3, .timer 2⟩] : Cues) ++
    (List.replicate 5 (.turn 0 .answered) : Cues)

theorem uncontended_plays :
    ((stage demoConfig).play uncontended ⟨{}, []⟩).isSome = true := by decide

/-- A test of the condition. -/
def careful (earlier : List Ev) (e : Ev) : Bool :=
  match e.label with
  | .ran t .readCascade (.ok (some cascade)) =>
    match t.op with
    | .timer position => cascade.position = position
    | .decline address => cascade.ranked[cascade.position]?.any (·.address = address)
    | _ => false
  | .ran _ (.moveCascade cascade) _ =>
    e.pre.cascade.any fun stored => stored.1.position + 1 = cascade.position
  | .ran _ .readCascade (.ok none) =>
    earlier.any fun e' =>
      match e'.label with
      | .ran _ .endCascade _ => true
      | _ => false
  | _ => true

theorem careful_careful {earlier : List Ev} (h : careful earlier e = true) :
    Careful earlier e := by
  refine ⟨fun t cascade hlabel => ?_, fun t cascade r hlabel => ?_, fun t hlabel => ?_⟩
  · simp only [careful, hlabel] at h
    unfold OwnPosition
    split at h
    · next hop => simpa [hop] using h
    · next hop => simpa [hop, Option.any_eq_true] using h
    · cases h
  · simpa [careful, hlabel, Option.any_eq_true] using h
  · simp only [careful, hlabel] at h
    obtain ⟨e', he', htest⟩ := List.any_eq_true.mp h
    split at htest
    · next t' r hended => exact ⟨e', he', t', r, hended⟩
    · cases htest

theorem uncontended_careful : everywhere careful (((stage demoConfig).play uncontended
    ⟨{}, []⟩).get uncontended_plays).1 = true := by decide

/-- Three windows, one after the other, and the broadcast. -/
theorem offers_in_turn_uncontended : InTurn demoConfig (((stage demoConfig).play uncontended
    ⟨{}, []⟩).get uncontended_plays).1 :=
  offers_in_turn (Async.Stage.play_get uncontended_plays) ⟨rfl, rfl, rfl⟩ (by decide)
    (throughout_of_everywhere (fun _ _ => careful_careful) uncontended_careful)

end Cascades

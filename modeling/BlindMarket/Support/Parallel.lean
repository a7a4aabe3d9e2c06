import BlindMarket.Support.History

/-!
# Programs side by side in one

A program that waits for several things at once goes on with whichever is
answered first. Which one that is is the answer of a command of its own, so
every order of the parts is a run of one program.
-/
namespace Async

variable {C : Type} {Ans : C → Type} {ε α β ι : Type}

/-- The command that says which of two parts goes on. -/
structure Choice (Ans : C → Type) (ε : Type) where
  pick : C
  first : Except ε (Ans pick) → Bool

namespace Prog

variable (ch : Choice Ans ε)

/-- A waiting part beside another one. -/
def parAwait (c : C) (k : Except ε (Ans c) → Prog Ans ε α)
    (rest : Except ε (Ans c) → Prog Ans ε β → Prog Ans ε (Except ε α × Except ε β)) :
    Prog Ans ε β → Prog Ans ε (Except ε α × Except ε β)
  | .done r => (await c k).andThen fun l => .done (.ok (l, r))
  | .await c' k' => .await ch.pick fun x =>
    if ch.first x then .await c fun r => rest r (.await c' k')
    else .await c' fun r => parAwait c k rest (k' r)

/-- Two programs at once. -/
def par : Prog Ans ε α → Prog Ans ε β → Prog Ans ε (Except ε α × Except ε β)
  | .done r => fun q => q.andThen fun r' => .done (.ok (r, r'))
  | .await c k => parAwait ch c k fun r => par (k r)

def gather : Except ε α × Except ε (List (Except ε α)) → Prog Ans ε (List (Except ε α))
  | (r, .ok rs) => pure (r :: rs)
  | (_, .error e) => throw e

/-- Any number of programs at once; none stops the others. -/
def allSettled : List (Prog Ans ε α) → Prog Ans ε (List (Except ε α))
  | [] => pure []
  | p :: ps => par ch p (allSettled ps) >>= gather

variable {ch} {p : Prog Ans ε α} {q : Prog Ans ε β} {P : C → Prop}

/-- The rule for two programs at once: one of them goes on, or the choice is made. -/
theorem par_cases {M : Prog Ans ε α → Prog Ans ε β →
      Prog Ans ε (Except ε α × Except ε β) → Prop}
    (hleft : ∀ r q, M (.done r) q (q.andThen fun r' => .done (.ok (r, r'))))
    (hright : ∀ c k r, M (.await c k) (.done r) ((await c k).andThen fun l => .done (.ok (l, r))))
    (hboth : ∀ c k c' k', (∀ r, M (k r) (.await c' k') (par ch (k r) (.await c' k'))) →
      (∀ r, M (.await c k) (k' r) (par ch (.await c k) (k' r))) →
      M (.await c k) (.await c' k') (.await ch.pick fun x =>
        if ch.first x then .await c fun r => par ch (k r) (.await c' k')
        else .await c' fun r => par ch (.await c k) (k' r))) :
    M p q (par ch p q) := by
  induction p generalizing q with
  | done r => exact hleft r q
  | await c k ih =>
    induction q with
    | done r => exact hright c k r
    | await c' k' ih' => exact hboth c k c' k' (fun r => ih r) ih'

theorem issues_gather (v : Except ε α × Except ε (List (Except ε α))) : (gather v :
    Prog Ans ε (List (Except ε α))).Issues P := by
  obtain ⟨r, e | rs⟩ := v <;> trivial

theorem Once.bind {f : α → Prog Ans ε β} (hp : p.Once P) (hf : ∀ a, (f a).Issues fun c => ¬ P c) :
    (p >>= f).Once P := by
  refine hp.andThen fun r => ?_
  cases r with
  | ok a => exact hf a
  | error e => trivial

theorem Issues.bind_once {f : α → Prog Ans ε β} (hp : p.Issues fun c => ¬ P c)
    (hf : ∀ a, (f a).Once P) : (p >>= f).Once P := by
  refine hp.andThen_once fun r => ?_
  cases r with
  | ok a => exact hf a
  | error e => trivial

theorem Issues.par (hp : p.Issues P) (hq : q.Issues P) (hpick : P ch.pick) :
    (par ch p q).Issues P := by
  refine par_cases (M := fun p q pq => p.Issues P → q.Issues P → pq.Issues P) ?_ ?_ ?_ hp hq
  · exact fun r q _ hq => hq.andThen fun _ => trivial
  · exact fun c k r hp _ => hp.andThen fun _ => trivial
  · intro c k c' k' hk hk' hp hq
    refine ⟨hpick, fun x => ?_⟩
    dsimp only
    split
    · exact ⟨hp.1, fun r => hk r (hp.2 r) hq⟩
    · exact ⟨hq.1, fun r => hk' r hp (hq.2 r)⟩

theorem Once.par_left (hp : p.Once P) (hq : q.Issues fun c => ¬ P c) (hpick : ¬ P ch.pick) :
    (par ch p q).Once P := by
  refine par_cases (M := fun p q pq => p.Once P → q.Issues (fun c => ¬ P c) → pq.Once P)
    ?_ ?_ ?_ hp hq
  · exact fun r q _ hq => (hq.andThen fun _ => issues_done _).once
  · exact fun c k r hp _ => hp.andThen fun _ => issues_done _
  · intro c k c' k' hk hk' hp hq
    refine fun x => ⟨?_, fun h => absurd h hpick⟩
    dsimp only
    split
    · refine fun r => ⟨hk r (hp r).1 hq, fun hc => ?_⟩
      exact ((hp r).2 hc).par hq hpick
    · exact fun r => ⟨hk' r hp (hq.2 r), fun hc => absurd hc hq.1⟩

theorem Once.par_right (hp : p.Issues fun c => ¬ P c) (hq : q.Once P) (hpick : ¬ P ch.pick) :
    (par ch p q).Once P := by
  refine par_cases (M := fun p q pq => p.Issues (fun c => ¬ P c) → q.Once P → pq.Once P)
    ?_ ?_ ?_ hp hq
  · exact fun r q _ hq => hq.andThen fun _ => trivial
  · exact fun c k r hp _ => (hp.andThen fun _ => issues_done _).once
  · intro c k c' k' hk hk' hp hq
    refine fun x => ⟨?_, fun h => absurd h hpick⟩
    dsimp only
    split
    · exact fun r => ⟨hk r (hp.2 r) hq, fun hc => absurd hc hp.1⟩
    · refine fun r => ⟨hk' r hp (hq r).1, fun hc => ?_⟩
      exact hp.par ((hq r).2 hc) hpick

theorem ends_par {R : Except ε β → Prop} (hq : q.Ends R) :
    (par ch p q).Ends fun r => ∃ v, r = .ok v ∧ R v.2 := by
  refine par_cases (M := fun _ q pq => q.Ends R → pq.Ends fun r => ∃ v, r = .ok v ∧ R v.2)
    ?_ ?_ ?_ hq
  · exact fun r q hq => hq.andThen fun r' hr' => ⟨(r, r'), rfl, hr'⟩
  · exact fun c k r hr => (ends_true (await c k)).andThen fun l _ => ⟨(l, r), rfl, hr⟩
  · intro c k c' k' hk hk' hq x
    dsimp only
    split
    · exact fun r => hk r hq
    · exact fun r => hk' r (hq r)

/-! ### What the parts have been told -/

section Told

variable {T : Answers Ans ε → C → Prop} {a a₁ a₂ : Answers Ans ε}
  {Q : Answers Ans ε → Except ε α → Prop} {R : Answers Ans ε → Except ε β → Prop}

/-- More answers do no harm. -/
def Lasting (T : Answers Ans ε → C → Prop) : Prop := ∀ a a' c, a ⊆ a' → T a c → T a' c

theorem Told.widen (hT : Lasting T) (hp : p.Told T Q a₁) (h₁ : a₁ ⊆ a) :
    p.Told T (fun a' r => ∃ b, a₁ ⊆ b ∧ b ⊆ a' ∧ (∀ x ∈ a', x ∈ a ∨ x ∈ b) ∧ Q b r) a := by
  induction p generalizing a a₁ with
  | done r => exact ⟨a₁, List.Subset.refl _, h₁, fun x hx => .inl hx, hp⟩
  | await c k ih =>
    refine ⟨hT _ _ c h₁ hp.1, fun r => ?_⟩
    refine (ih r (hp.2 r) (List.cons_subset_cons _ h₁)).mono (fun _ _ => id) ?_
    rintro a' r' ⟨b, hb, hb', hcover, hq⟩
    refine ⟨b, List.Subset.trans (List.subset_cons_self _ _) hb, hb', fun x hx => ?_, hq⟩
    obtain hx | hx := hcover x hx
    · obtain rfl | hx := List.mem_cons.mp hx
      · exact .inr (hb List.mem_cons_self)
      · exact .inl hx
    · exact .inr hx

/-- How the answers of two parts make up those of the whole. -/
structure Mix (ch : Choice Ans ε) (a b₁ b₂ : Answers Ans ε) : Prop where
  left : b₁ ⊆ a
  right : b₂ ⊆ a
  cover : ∀ x ∈ a, x ∈ b₁ ∨ x ∈ b₂ ∨ x.1 = ch.pick

theorem Mix.left_cons {x : (c : C) × Except ε (Ans c)} (h : Mix ch a a₁ a₂) :
    Mix ch (x :: a) (x :: a₁) a₂ where
  left := List.cons_subset_cons _ h.left
  right := List.Subset.trans h.right (List.subset_cons_self _ _)
  cover y hy := by
    obtain rfl | hy := List.mem_cons.mp hy
    · exact .inl List.mem_cons_self
    · exact (h.cover y hy).imp (List.mem_cons_of_mem _) id

theorem Mix.right_cons {x : (c : C) × Except ε (Ans c)} (h : Mix ch a a₁ a₂) :
    Mix ch (x :: a) a₁ (x :: a₂) where
  left := List.Subset.trans h.left (List.subset_cons_self _ _)
  right := List.cons_subset_cons _ h.right
  cover y hy := by
    obtain rfl | hy := List.mem_cons.mp hy
    · exact .inr (.inl List.mem_cons_self)
    · exact (h.cover y hy).imp id (Or.imp (List.mem_cons_of_mem _) id)

theorem Mix.pick {r : Except ε (Ans ch.pick)} (h : Mix ch a a₁ a₂) :
    Mix ch (⟨ch.pick, r⟩ :: a) a₁ a₂ where
  left := List.Subset.trans h.left (List.subset_cons_self _ _)
  right := List.Subset.trans h.right (List.subset_cons_self _ _)
  cover y hy := by
    obtain rfl | hy := List.mem_cons.mp hy
    · exact .inr (.inr rfl)
    · exact h.cover y hy

/-- Each part is told what it would be told alone, and the whole nothing else. -/
theorem Told.par (hT : Lasting T) (hpick : ∀ a, T a ch.pick) (hp : p.Told T Q a₁)
    (hq : q.Told T R a₂) (hmix : Mix ch a a₁ a₂) :
    (par ch p q).Told T (fun a r => ∃ l r' b₁ b₂, r = .ok (l, r') ∧ Mix ch a b₁ b₂ ∧ Q b₁ l ∧
      R b₂ r') a := by
  refine par_cases (M := fun p q pq => ∀ a a₁ a₂, p.Told T Q a₁ → q.Told T R a₂ → Mix ch a a₁ a₂ →
    pq.Told T (fun a r => ∃ l r' b₁ b₂, r = .ok (l, r') ∧ Mix ch a b₁ b₂ ∧ Q b₁ l ∧ R b₂ r') a)
    ?_ ?_ ?_ a a₁ a₂ hp hq hmix
  · intro r q a a₁ a₂ hp hq hmix
    refine (hq.widen hT hmix.right).andThen fun a' r' hsuffix hr' => ?_
    obtain ⟨b, hb, hb', hcover, hr'⟩ := hr'
    refine ⟨r, r', a₁, b, rfl, ⟨List.Subset.trans hmix.left hsuffix.subset, hb', fun x hx => ?_⟩,
      hp, hr'⟩
    obtain hx | hx := hcover x hx
    · exact (hmix.cover x hx).imp id (Or.imp (fun h => hb h) id)
    · exact .inr (.inl hx)
  · intro c k r a a₁ a₂ hp hq hmix
    refine (hp.widen hT hmix.left).andThen fun a' l hsuffix hl => ?_
    obtain ⟨b, hb, hb', hcover, hl⟩ := hl
    refine ⟨l, r, b, a₂, rfl, ⟨hb', List.Subset.trans hmix.right hsuffix.subset, fun x hx => ?_⟩,
      hl, hq⟩
    obtain hx | hx := hcover x hx
    · exact (hmix.cover x hx).imp (fun h => hb h) id
    · exact .inl hx
  · intro c k c' k' hk hk' a a₁ a₂ hp hq hmix
    refine ⟨hpick a, fun x => ?_⟩
    have hmix : Mix ch (⟨ch.pick, x⟩ :: a) a₁ a₂ := hmix.pick
    dsimp only
    split
    · exact ⟨hT _ _ c hmix.left hp.1, fun r => hk r _ _ a₂ (hp.2 r) hq hmix.left_cons⟩
    · exact ⟨hT _ _ c' hmix.right hq.1, fun r => hk' r _ a₁ _ hp (hq.2 r) hmix.right_cons⟩

end Told

/-! ### Lists of programs -/

section AllSettled

variable {f : ι → Prog Ans ε α} {l : List ι} {i : ι} {T : Answers Ans ε → C → Prop}
  {a : Answers Ans ε}

theorem issues_allSettled {ps : List (Prog Ans ε α)} (h : ∀ p ∈ ps, p.Issues P)
    (hpick : P ch.pick) : (allSettled ch ps).Issues P := by
  induction ps with
  | nil => trivial
  | cons p ps ih =>
    exact ((h p List.mem_cons_self).par (ih fun p hp => h p (List.mem_cons_of_mem _ hp))
      hpick).bind issues_gather

/-- One part may ask for it, once, and so may the whole. -/
theorem once_allSettled (hnodup : l.Nodup) (hother : ∀ j ∈ l, j ≠ i → (f j).Issues fun c => ¬ P c)
    (hone : (f i).Once P) (hpick : ¬ P ch.pick) : (allSettled ch (l.map f)).Once P := by
  induction l with
  | nil => trivial
  | cons j l ih =>
    obtain ⟨hnew, hnodup⟩ := List.nodup_cons.mp hnodup
    by_cases heq : j = i
    · subst heq
      refine (Once.par_left hone (issues_allSettled (fun p hp => ?_) hpick) hpick).bind issues_gather
      obtain ⟨j', hj', rfl⟩ := List.mem_map.mp hp
      exact hother j' (List.mem_cons_of_mem _ hj') fun h => hnew (h ▸ hj')
    · refine (Once.par_right (hother j List.mem_cons_self heq) ?_ hpick).bind issues_gather
      exact ih hnodup fun j' hj' => hother j' (List.mem_cons_of_mem _ hj')

theorem ends_allSettled {ps : List (Prog Ans ε α)} :
    (allSettled ch ps).Ends fun r => ∃ v, r = .ok v := by
  induction ps with
  | nil => exact ⟨[], rfl⟩
  | cons p ps ih =>
    refine (ends_par ih).bind ?_ ?_
    · rintro ⟨r, rs⟩ ⟨v, heq, v', hv'⟩
      cases heq
      obtain rfl : rs = .ok v' := hv'
      exact ⟨r :: v', rfl⟩
    · rintro e ⟨v, heq, -⟩
      cases heq

/-- What the parts were told, given what came before them. -/
structure Settled (ch : Choice Ans ε) (Q : ι → Answers Ans ε → Except ε α → Prop) (l : List ι)
    (rs : List (Except ε α)) (before a : Answers Ans ε) : Prop where
  length : rs.length = l.length
  parts : ∀ i r, (i, r) ∈ l.zip rs → ∃ b, b ⊆ a ∧ Q i b r
  cover : ∀ x ∈ a, x ∈ before ∨ x.1 = ch.pick ∨
    ∃ i r b, (i, r) ∈ l.zip rs ∧ b ⊆ a ∧ x ∈ b ∧ Q i b r

theorem told_allSettled {Q : ι → Answers Ans ε → Except ε α → Prop} (hT : Lasting T)
    (hpick : ∀ a, T a ch.pick) (h : ∀ i ∈ l, (f i).Told T (Q i) a) :
    (allSettled ch (l.map f)).Told T (fun a' r => ∃ rs, r = .ok rs ∧ Settled ch Q l rs a a') a := by
  induction l with
  | nil => exact ⟨[], rfl, rfl, by simp, fun x hx => .inl hx⟩
  | cons i l ih =>
    have hmix : Mix ch a a a := ⟨List.Subset.refl a, List.Subset.refl a, fun x hx => .inl hx⟩
    refine Told.bind (Told.par hT hpick (h i List.mem_cons_self)
      (ih fun j hj => h j (List.mem_cons_of_mem _ hj)) hmix) ?_ ?_
    · rintro a' ⟨r, rs⟩ hsuffix ⟨l', r', b₁, b₂, heq, hmix, hl, rs', hrs, hsettled⟩
      cases heq
      subst hrs
      refine ⟨r :: rs', rfl, by simp [hsettled.length], fun j r' hj => ?_, fun x hx => ?_⟩
      · obtain heq | hj := List.mem_cons.mp hj
        · cases heq
          exact ⟨b₁, hmix.left, hl⟩
        · obtain ⟨b, hb, hq⟩ := hsettled.parts j r' hj
          exact ⟨b, List.Subset.trans hb hmix.right, hq⟩
      · obtain hx | hx | hx := hmix.cover x hx
        · exact .inr (.inr ⟨i, r, b₁, List.mem_cons_self, hmix.left, hx, hl⟩)
        · obtain hx | hx | ⟨j, r', b, hj, hb, hx, hq⟩ := hsettled.cover x hx
          · exact .inl hx
          · exact .inr (.inl hx)
          · exact .inr (.inr ⟨j, r', b, List.mem_cons_of_mem _ hj,
              List.Subset.trans hb hmix.right, hx, hq⟩)
        · exact .inr (.inl hx)
    · rintro a' e hsuffix ⟨l', r', b₁, b₂, heq, -⟩
      cases heq

end AllSettled

end Prog

end Async

import BlindMarket.Support.Runs

/-!
# Programs that interleave where they wait

A program is a tree: it is done, with a result or a failure, or it waits for
the answer to a command and goes on with it. Any number of programs run over
one shared state, one command at a time, in any order. What one of them needs
of the others is its rely, what it owes them its guarantee.
-/
namespace Async

open Runs

variable {C : Type} {Ans : C → Type} {ε α β γ σ τ : Type}

inductive Prog (Ans : C → Type) (ε α : Type) : Type where
  | done (r : Except ε α)
  | await (c : C) (k : Except ε (Ans c) → Prog Ans ε α)

/-- Answers a program has had, newest first. -/
abbrev Answers (Ans : C → Type) (ε : Type) := List ((c : C) × Except ε (Ans c))

namespace Prog

/-- Go on with whatever the program ended with. -/
def andThen : Prog Ans ε α → (Except ε α → Prog Ans ε β) → Prog Ans ε β
  | .done r, f => f r
  | .await c k, f => .await c fun r => (k r).andThen f

def bind (p : Prog Ans ε α) (f : α → Prog Ans ε β) : Prog Ans ε β :=
  p.andThen fun
    | .ok a => f a
    | .error e => .done (.error e)

instance : Monad (Prog Ans ε) where
  pure a := .done (.ok a)
  bind := bind

def throw (e : ε) : Prog Ans ε α := .done (.error e)

/-- One command; a rejected one fails. -/
def call (c : C) : Prog Ans ε (Ans c) := .await c .done

/-- The outcome of a program as a value: the way into every handler. -/
def attempt (p : Prog Ans ε α) : Prog Ans ε (Except ε α) := p.andThen fun r => .done (.ok r)

@[simp] theorem done_andThen (r : Except ε α) (f : Except ε α → Prog Ans ε β) :
    (done r : Prog Ans ε α).andThen f = f r := rfl

@[simp] theorem await_andThen (c : C) (k : Except ε (Ans c) → Prog Ans ε α)
    (f : Except ε α → Prog Ans ε β) :
    (await c k).andThen f = .await c fun r => (k r).andThen f := rfl

@[simp] theorem pure_eq_done (a : α) : (pure a : Prog Ans ε α) = .done (.ok a) := rfl

theorem bind_eq (p : Prog Ans ε α) (f : α → Prog Ans ε β) :
    (p >>= f) = p.andThen fun
      | .ok a => f a
      | .error e => .done (.error e) := rfl

theorem bind_assoc (p : Prog Ans ε α) (f : α → Prog Ans ε β) (g : β → Prog Ans ε γ) :
    (p >>= f) >>= g = p >>= fun a => f a >>= g := by
  induction p with
  | done r => cases r <;> rfl
  | await c k ih => exact congrArg (await c) (funext ih)

/-- The program alone, its commands answered by `respond`. -/
def run (respond : σ → (c : C) → Except ε (Ans c) × σ) : Prog Ans ε α → σ → Except ε α × σ
  | .done r, s => (r, s)
  | .await c k, s => (k (respond s c).1).run respond (respond s c).2

variable {respond : σ → (c : C) → Except ε (Ans c) × σ}

@[simp] theorem run_done (r : Except ε α) (s : σ) :
    (done r : Prog Ans ε α).run respond s = (r, s) := rfl

@[simp] theorem run_await (c : C) (k : Except ε (Ans c) → Prog Ans ε α) (s : σ) :
    (await c k).run respond s = (k (respond s c).1).run respond (respond s c).2 := rfl

theorem run_andThen (p : Prog Ans ε α) (f : Except ε α → Prog Ans ε β) (s : σ) :
    (p.andThen f).run respond s = (f (p.run respond s).1).run respond (p.run respond s).2 := by
  induction p generalizing s with
  | done r => rfl
  | await c k ih => exact ih _ _

theorem run_bind_ok {p : Prog Ans ε α} {f : α → Prog Ans ε β} {s s' : σ} {a : α}
    (h : p.run respond s = (.ok a, s')) : (p >>= f).run respond s = (f a).run respond s' := by
  rw [bind_eq, run_andThen, h]

theorem run_bind_error {p : Prog Ans ε α} {f : α → Prog Ans ε β} {s s' : σ} {e : ε}
    (h : p.run respond s = (.error e, s')) : (p >>= f).run respond s = (.error e, s') := by
  rw [bind_eq, run_andThen, h]
  rfl

/-! ### What a program may ask for -/

/-- Every command the program can come to satisfies `P`. -/
def Issues (P : C → Prop) : Prog Ans ε α → Prop
  | .done _ => True
  | .await c k => P c ∧ ∀ r, (k r).Issues P

variable {P : C → Prop} {p : Prog Ans ε α}

@[simp] theorem issues_done (r : Except ε α) : (done r : Prog Ans ε α).Issues P := trivial

theorem Issues.andThen {f : Except ε α → Prog Ans ε β} (h : p.Issues P)
    (hf : ∀ r, (f r).Issues P) : (p.andThen f).Issues P := by
  induction p with
  | done r => exact hf r
  | await c k ih => exact ⟨h.1, fun r => ih r (h.2 r)⟩

theorem Issues.bind {f : α → Prog Ans ε β} (h : p.Issues P) (hf : ∀ a, (f a).Issues P) :
    (p >>= f).Issues P := by
  refine h.andThen fun r => ?_
  cases r with
  | ok a => exact hf a
  | error e => trivial

theorem Issues.attempt (h : p.Issues P) : p.attempt.Issues P := h.andThen fun _ => trivial

theorem issues_call {c : C} (h : P c) : (call c : Prog Ans ε (Ans c)).Issues P :=
  ⟨h, fun _ => trivial⟩

/-- Unless an answer `P` comes first, the program ends in `Q`; only answers in `A` are given. -/
def Until (A P : (c : C) → Except ε (Ans c) → Prop) (Q : Except ε α → Prop) :
    Prog Ans ε α → Prop
  | .done r => Q r
  | .await c k => ∀ r, A c r → P c r ∨ (k r).Until A P Q

theorem Until.andThen {A P : (c : C) → Except ε (Ans c) → Prop} {Q : Except ε α → Prop}
    {Q' : Except ε β → Prop} {f : Except ε α → Prog Ans ε β} (h : p.Until A P Q)
    (hf : ∀ r, Q r → (f r).Until A P Q') : (p.andThen f).Until A P Q' := by
  induction p with
  | done r => exact hf r h
  | await c k ih => exact fun r ha => (h r ha).imp id (ih r)

theorem until_true {A P : (c : C) → Except ε (Ans c) → Prop} (p : Prog Ans ε α) :
    p.Until A P fun _ => True := by
  induction p with
  | done r => trivial
  | await c k ih => exact fun r _ => .inr (ih r)

/-- The program asks for what `P` describes at most once. -/
def Once (P : C → Prop) : Prog Ans ε α → Prop
  | .done _ => True
  | .await c k => ∀ r, (k r).Once P ∧ (P c → (k r).Issues fun c => ¬ P c)

theorem Issues.once (h : p.Issues fun c => ¬ P c) : p.Once P := by
  induction p with
  | done r => trivial
  | await c k ih => exact fun r => ⟨ih r (h.2 r), fun hp => absurd hp h.1⟩

theorem Once.andThen {f : Except ε α → Prog Ans ε β} (h : p.Once P)
    (hf : ∀ r, (f r).Issues fun c => ¬ P c) : (p.andThen f).Once P := by
  induction p with
  | done r => exact (hf r).once
  | await c k ih => exact fun r => ⟨ih r (h r).1, fun hp => ((h r).2 hp).andThen hf⟩

theorem Issues.andThen_once {f : Except ε α → Prog Ans ε β} (h : p.Issues fun c => ¬ P c)
    (hf : ∀ r, (f r).Once P) : (p.andThen f).Once P := by
  induction p with
  | done r => exact hf r
  | await c k ih => exact fun r => ⟨ih r (h.2 r), fun hp => absurd hp h.1⟩

/-! ### What a program has been told -/

/-- Every command satisfies `P` with the answers before it, and the end `Q` with all of them. -/
def Told (P : Answers Ans ε → C → Prop) (Q : Answers Ans ε → Except ε α → Prop) :
    Answers Ans ε → Prog Ans ε α → Prop
  | h, .done r => Q h r
  | h, .await c k => P h c ∧ ∀ r, (k r).Told P Q (⟨c, r⟩ :: h)

variable {T : Answers Ans ε → C → Prop} {h : Answers Ans ε}

theorem told_true (p : Prog Ans ε α) : p.Told (fun _ _ => True) (fun _ _ => True) h := by
  induction p generalizing h with
  | done r => trivial
  | await c k ih => exact ⟨trivial, fun r => ih r⟩

theorem Told.mono {T' : Answers Ans ε → C → Prop} {Q Q' : Answers Ans ε → Except ε α → Prop}
    (hp : p.Told T Q h) (hc : ∀ h c, T h c → T' h c) (hq : ∀ h r, Q h r → Q' h r) :
    p.Told T' Q' h := by
  induction p generalizing h with
  | done r => exact hq h r hp
  | await c k ih => exact ⟨hc h c hp.1, fun r => ih r (hp.2 r)⟩

theorem Told.and {U : Answers Ans ε → C → Prop} {Q R : Answers Ans ε → Except ε α → Prop}
    (hp : p.Told T Q h) (hp' : p.Told U R h) :
    p.Told (fun h c => T h c ∧ U h c) (fun h r => Q h r ∧ R h r) h := by
  induction p generalizing h with
  | done r => exact ⟨hp, hp'⟩
  | await c k ih => exact ⟨⟨hp.1, hp'.1⟩, fun r => ih r (hp.2 r) (hp'.2 r)⟩

theorem Told.andThen {Q : Answers Ans ε → Except ε α → Prop} {Q' : Answers Ans ε → Except ε β → Prop}
    {f : Except ε α → Prog Ans ε β} (hp : p.Told T Q h)
    (hf : ∀ h' r, h <:+ h' → Q h' r → (f r).Told T Q' h') : (p.andThen f).Told T Q' h := by
  induction p generalizing h with
  | done r => exact hf h r List.suffix_rfl hp
  | await c k ih =>
    refine ⟨hp.1, fun r => ih r (hp.2 r) fun h' r' hsuffix hq => ?_⟩
    exact hf h' r' ((List.suffix_cons _ _).trans hsuffix) hq

theorem Told.bind {Q : Answers Ans ε → Except ε α → Prop} {Q' : Answers Ans ε → Except ε β → Prop}
    {f : α → Prog Ans ε β} (hp : p.Told T Q h)
    (hf : ∀ h' a, h <:+ h' → Q h' (.ok a) → (f a).Told T Q' h')
    (he : ∀ h' e, h <:+ h' → Q h' (.error e) → Q' h' (.error e)) : (p >>= f).Told T Q' h := by
  refine hp.andThen fun h' r hsuffix hr => ?_
  cases r with
  | ok a => exact hf h' a hsuffix hr
  | error e => exact he h' e hsuffix hr

/-- Answers only come on top. -/
theorem Told.suffix {Q : Answers Ans ε → Except ε α → Prop} (hp : p.Told T Q h) :
    p.Told T (fun h' r => h <:+ h' ∧ Q h' r) h := by
  induction p generalizing h with
  | done r => exact ⟨List.suffix_rfl, hp⟩
  | await c k ih =>
    refine ⟨hp.1, fun r => (ih r (hp.2 r)).mono (fun _ _ => id) fun h' r' hq => ?_⟩
    exact ⟨(List.suffix_cons _ _).trans hq.1, hq.2⟩

theorem Told.attempt {Q : Answers Ans ε → Except ε α → Prop}
    {R : Answers Ans ε → Except ε (Except ε α) → Prop} (hp : p.Told T Q h)
    (hq : ∀ h' r, h <:+ h' → Q h' r → R h' (.ok r)) : p.attempt.Told T R h :=
  hp.andThen hq

/-- What the commands of a program keep true of the answers. -/
theorem Issues.told {I : Answers Ans ε → Prop} (hp : p.Issues P) (hi : I h)
    (hstep : ∀ h c r, I h → P c → I (⟨c, r⟩ :: h)) (hc : ∀ h c, I h → P c → T h c) :
    p.Told T (fun h _ => I h) h := by
  induction p generalizing h with
  | done r => exact hi
  | await c k ih => exact ⟨hc h c hi hp.1, fun r => ih r (hp.2 r) (hstep h c r hi hp.1)⟩

/-! ### Whatever it has been told -/

/-- Every command satisfies `T`, whatever the program has been told before. -/
def Heeds (T : Answers Ans ε → C → Prop) (p : Prog Ans ε α) : Prop :=
  ∀ h, p.Told T (fun _ _ => True) h

theorem heeds_done (r : Except ε α) : Heeds T (.done r : Prog Ans ε α) := fun _ => trivial

theorem heeds_one {c : C} (hc : ∀ h, T h c) : Heeds T (call c : Prog Ans ε (Ans c)) :=
  fun h => ⟨hc h, fun _ => trivial⟩

theorem heeds_call {c : C} {k : Ans c → Prog Ans ε α} (hc : ∀ h, T h c)
    (hk : ∀ v, Heeds T (k v)) : Heeds T (call c >>= k) := by
  refine fun h => ⟨hc h, fun r => ?_⟩
  cases r with
  | ok v => exact hk v _
  | error e => exact (trivial : True)

theorem Heeds.bind {k : α → Prog Ans ε β} (hp : Heeds T p) (hk : ∀ v, Heeds T (k v)) :
    Heeds T (p >>= k) := fun h => Told.bind (hp h) (fun h' v _ _ => hk v h') fun _ _ _ _ => trivial

theorem heeds_attempt {k : Except ε α → Prog Ans ε β} (hp : Heeds T p) (hk : ∀ r, Heeds T (k r)) :
    Heeds T (p.attempt >>= k) := fun h =>
  Told.bind (Told.attempt (R := fun _ _ => True) (hp h) fun _ _ _ _ => trivial)
    (fun h' r _ _ => hk r h') fun _ _ _ _ => trivial

theorem Issues.heeds (hp : p.Issues P) (hc : ∀ h c, P c → T h c) : Heeds T p := fun _ =>
  (hp.told (I := fun _ => True) (T := T) trivial (fun _ _ _ _ _ => trivial)
    fun h c _ hpc => hc h c hpc).mono (fun _ _ hh => hh) fun _ _ _ => trivial

/-! ### What a result shows -/

/-- Every command satisfies `T`, and a result that is no failure `R`. -/
def Yields (T : Answers Ans ε → C → Prop) (R : α → Answers Ans ε → Prop) (p : Prog Ans ε α)
    (h : Answers Ans ε) : Prop := p.Told T (fun a r => ∀ v, r = .ok v → R v a) h

section Yields

variable {R S : α → Answers Ans ε → Prop} {R' : β → Answers Ans ε → Prop} {k : α → Prog Ans ε β}

theorem yields_pure {v : α} (hv : R v h) : Yields T R (pure v) h := by
  intro v' heq
  cases heq
  exact hv

theorem yields_throw {e : ε} : Yields T R (throw e) h := by
  intro v' heq
  cases heq

theorem Yields.mono (hp : Yields T R p h) (hr : ∀ v a, h <:+ a → R v a → S v a) :
    Yields T S p h :=
  Told.mono (Told.suffix hp) (fun _ _ => id) fun a _ hq v heq => hr v a hq.1 (hq.2 v heq)

theorem yields_call {c : C} {k : Ans c → Prog Ans ε β} (hc : T h c)
    (hk : ∀ v, Yields T R' (k v) (⟨c, .ok v⟩ :: h)) : Yields T R' (call c >>= k) h := by
  refine ⟨hc, fun r => ?_⟩
  cases r with
  | ok v => exact hk v
  | error e =>
    intro v heq
    cases heq

theorem yields_one {c : C} {R : Ans c → Answers Ans ε → Prop} (hc : T h c)
    (hr : ∀ v, R v (⟨c, .ok v⟩ :: h)) : Yields T R (call c : Prog Ans ε (Ans c)) h := by
  refine ⟨hc, fun r v heq => ?_⟩
  cases heq
  exact hr v

theorem Yields.bind (hp : Yields T S p h)
    (hk : ∀ v a, h <:+ a → S v a → Yields T R' (k v) a) : Yields T R' (p >>= k) h := by
  refine Told.bind hp (fun a v hsuffix hv => hk v a hsuffix (hv v rfl)) fun a e _ _ v heq => ?_
  cases heq

/-- Whatever a guarded program ends with, the rest goes on. -/
theorem Yields.attempt {k : Except ε α → Prog Ans ε β} (hp : Yields T S p h)
    (hk : ∀ r a, h <:+ a → (∀ v, r = .ok v → S v a) → Yields T R' (k r) a) :
    Yields T R' (attempt p >>= k) h :=
  Told.bind (Told.attempt (R := fun a r => ∃ r', r = .ok r' ∧ h <:+ a ∧
      ∀ v, r' = .ok v → S v a) hp fun a r hsuffix hr => ⟨r, rfl, hsuffix, hr⟩)
    (fun a r _ hr => by
      obtain ⟨r', heq, hsuffix, hv⟩ := hr
      cases heq
      exact hk r a hsuffix hv)
    fun a e _ hr => by
      obtain ⟨r', heq, -⟩ := hr
      cases heq

/-- Commands that may always be asked for. -/
theorem Issues.yields (hp : p.Issues P) (hc : ∀ a c, P c → T a c) :
    Yields T (fun _ a => h <:+ a) p h :=
  Told.mono (Told.suffix (hp.heeds hc h)) (fun _ _ => id) fun _ _ hq _ _ => hq.1

end Yields

/-! ### How a program may end -/

/-- Whatever it is answered, the program ends in `Q`. -/
def Ends (Q : Except ε α → Prop) : Prog Ans ε α → Prop
  | .done r => Q r
  | .await _ k => ∀ r, (k r).Ends Q

section Ends

variable {Q : Except ε α → Prop} {Q' : Except ε β → Prop} {f : α → Prog Ans ε β}

theorem Ends.andThen {f : Except ε α → Prog Ans ε β} (hp : p.Ends Q)
    (hf : ∀ r, Q r → (f r).Ends Q') : (p.andThen f).Ends Q' := by
  induction p with
  | done r => exact hf r hp
  | await c k ih => exact fun r => ih r (hp r)

theorem Ends.bind (hp : p.Ends Q) (hf : ∀ a, Q (.ok a) → (f a).Ends Q')
    (he : ∀ e, Q (.error e) → Q' (.error e)) : (p >>= f).Ends Q' := by
  refine hp.andThen fun r hr => ?_
  cases r with
  | ok a => exact hf a hr
  | error e => exact he e hr

theorem Ends.mono {Q' : Except ε α → Prop} (hp : p.Ends Q) (hq : ∀ r, Q r → Q' r) :
    p.Ends Q' := by
  induction p with
  | done r => exact hq r hp
  | await c k ih => exact fun r => ih r (hp r)

theorem ends_true (p : Prog Ans ε α) : p.Ends fun _ => True := by
  induction p with
  | done r => trivial
  | await c k ih => exact ih

theorem Told.ends {Q₀ : Answers Ans ε → Except ε α → Prop} (hp : p.Told T Q₀ h) (he : p.Ends Q) :
    p.Told T (fun h r => Q₀ h r ∧ Q r) h := by
  induction p generalizing h with
  | done r => exact ⟨hp, he⟩
  | await c k ih => exact ⟨hp.1, fun r => ih r (hp.2 r) (he r)⟩

end Ends

/-! ### Rely and guarantee -/

/-- Started in `s`, with others moving the state within `R`, every command of the program keeps
`I` and moves the state within `G`, and the program ends in `Q`. -/
def Safe (exec : σ → (c : C) → Except ε (Ans c) → σ → Prop) (I : σ → Prop) (R G : σ → σ → Prop) :
    Prog Ans ε α → (Except ε α → σ → Prop) → σ → Prop
  | .done r, Q, s => Q r s
  | .await c k, Q, s => ∀ s₁, R s s₁ → I s₁ → ∀ r s₂, exec s₁ c r s₂ →
      G s₁ s₂ ∧ I s₂ ∧ (k r).Safe exec I R G Q s₂

variable {exec : σ → (c : C) → Except ε (Ans c) → σ → Prop} {I : σ → Prop} {R G : σ → σ → Prop}
  {s s' : σ} {Q Q' : Except ε α → σ → Prop}

theorem Safe.andThen {f : Except ε α → Prog Ans ε β} {Q' : Except ε β → σ → Prop}
    (h : p.Safe exec I R G Q s) (hf : ∀ r s, Q r s → (f r).Safe exec I R G Q' s) :
    (p.andThen f).Safe exec I R G Q' s := by
  induction p generalizing s with
  | done r => exact hf r s h
  | await c k ih =>
    intro s₁ hr hi r s₂ hx
    obtain ⟨hg, hi', hk⟩ := h s₁ hr hi r s₂ hx
    exact ⟨hg, hi', ih r hk⟩

theorem Safe.mono (h : p.Safe exec I R G Q s) (hq : ∀ r s, Q r s → Q' r s) :
    p.Safe exec I R G Q' s := by
  induction p generalizing s with
  | done r => exact hq r s h
  | await c k ih =>
    intro s₁ hr hi r s₂ hx
    obtain ⟨hg, hi', hk⟩ := h s₁ hr hi r s₂ hx
    exact ⟨hg, hi', ih r hk⟩

/-- Others may move before the program starts. -/
theorem Safe.stable (h : p.Safe exec I R G Q s) (htrans : ∀ a b c, R a b → R b c → R a c)
    (hq : ∀ r a b, Q r a → R a b → Q r b) (hr : R s s') : p.Safe exec I R G Q s' := by
  cases p with
  | done r => exact hq r s s' h hr
  | await c k => exact fun s₁ hr' => h s₁ (htrans _ _ _ hr hr')

theorem Safe.bind {f : α → Prog Ans ε β} {Q : α → σ → Prop} {E : ε → σ → Prop}
    {Q' : Except ε β → σ → Prop}
    (h : p.Safe exec I R G (fun r s => match r with | .ok a => Q a s | .error e => E e s) s)
    (hf : ∀ a s, Q a s → (f a).Safe exec I R G Q' s) (he : ∀ e s, E e s → Q' (.error e) s) :
    (p >>= f).Safe exec I R G Q' s := by
  refine h.andThen fun r s hr => ?_
  cases r with
  | ok a => exact hf a s hr
  | error e => exact he e s hr

theorem Safe.attempt {Q' : Except ε (Except ε α) → σ → Prop} (h : p.Safe exec I R G Q s)
    (hq : ∀ r s, Q r s → Q' (.ok r) s) : p.attempt.Safe exec I R G Q' s := h.andThen hq

end Prog

/-! ## Many programs at once -/

structure Thread (Ans : C → Type) (ε α τ : Type) where
  tag : τ
  prog : Prog Ans ε α

/-- The shared state and the programs under way. -/
structure Pool (Ans : C → Type) (ε α τ σ : Type) where
  state : σ
  threads : List (Thread Ans ε α τ)

/-- How commands act, which programs may start beside which, what moves by itself, and what the
death of a program leaves of the state. A process that crashes is its programs dying one after the
other. -/
structure System (Ans : C → Type) (ε α τ σ : Type) where
  exec : τ → σ → (c : C) → Except ε (Ans c) → σ → Prop
  start : List τ → σ → τ → Prog Ans ε α → σ → Prop
  env : σ → σ → Prop
  die : τ → σ → σ → Prop

inductive Label (Ans : C → Type) (ε α τ : Type) where
  | ran (t : τ) (c : C) (r : Except ε (Ans c))
  | started (t : τ)
  | finished (t : τ) (r : Except ε α)
  | env
  | died (t : τ)

structure Event (Ans : C → Type) (ε α τ σ : Type) where
  label : Label Ans ε α τ
  pre : σ
  post : σ

variable (S : System Ans ε α τ σ)

inductive Step : Pool Ans ε α τ σ → Event Ans ε α τ σ → Pool Ans ε α τ σ → Prop where
  | run {s s' : σ} (l₁ l₂ : List (Thread Ans ε α τ)) (t : τ) (c : C)
      (k : Except ε (Ans c) → Prog Ans ε α) (r : Except ε (Ans c)) (h : S.exec t s c r s') :
      Step ⟨s, l₁ ++ ⟨t, .await c k⟩ :: l₂⟩ ⟨.ran t c r, s, s'⟩ ⟨s', l₁ ++ ⟨t, k r⟩ :: l₂⟩
  | start {s s' : σ} (l : List (Thread Ans ε α τ)) (t : τ) (p : Prog Ans ε α)
      (h : S.start (l.map (·.tag)) s t p s') : Step ⟨s, l⟩ ⟨.started t, s, s'⟩ ⟨s', ⟨t, p⟩ :: l⟩
  | finish {s : σ} (l₁ l₂ : List (Thread Ans ε α τ)) (t : τ) (r : Except ε α) :
      Step ⟨s, l₁ ++ ⟨t, .done r⟩ :: l₂⟩ ⟨.finished t r, s, s⟩ ⟨s, l₁ ++ l₂⟩
  | env {s s' : σ} (l : List (Thread Ans ε α τ)) (h : S.env s s') :
      Step ⟨s, l⟩ ⟨.env, s, s'⟩ ⟨s', l⟩
  | die {s s' : σ} (l₁ l₂ : List (Thread Ans ε α τ)) (t : τ) (p : Prog Ans ε α)
      (h : S.die t s s') : Step ⟨s, l₁ ++ ⟨t, p⟩ :: l₂⟩ ⟨.died t, s, s'⟩ ⟨s', l₁ ++ l₂⟩

abbrev PoolRun := Run (Step S)

variable {S}

theorem Step.states {b c : Pool Ans ε α τ σ} {e : Event Ans ε α τ σ} (h : Step S b e c) :
    e.pre = b.state ∧ e.post = c.state := by
  cases h <;> exact ⟨rfl, rfl⟩

/-- What a step leaves of a thread. -/
theorem Step.thread {b c : Pool Ans ε α τ σ} {e : Event Ans ε α τ σ} {th : Thread Ans ε α τ}
    (h : Step S b e c) (hth : th ∈ b.threads) :
    th ∈ c.threads ∨
      (∃ (cmd : C) (k : Except ε (Ans cmd) → Prog Ans ε α) (r : Except ε (Ans cmd)),
        th.prog = .await cmd k ∧ e.label = .ran th.tag cmd r ∧ S.exec th.tag e.pre cmd r e.post ∧
        ⟨th.tag, k r⟩ ∈ c.threads) ∨
      (∃ r, th.prog = .done r ∧ e.label = .finished th.tag r) ∨ e.label = .died th.tag := by
  have hsplit : ∀ {l₁ l₂ : List (Thread Ans ε α τ)} {th' : Thread Ans ε α τ},
      th ∈ l₁ ++ th' :: l₂ → th = th' ∨ th ∈ l₁ ++ l₂ := by
    intro l₁ l₂ th' h
    simp only [List.mem_append, List.mem_cons] at h ⊢
    tauto
  cases h with
  | run l₁ l₂ t cmd k r hx =>
    rcases hsplit hth with rfl | hth
    · exact .inr (.inl ⟨cmd, k, r, rfl, rfl, hx, by simp⟩)
    · refine .inl ?_
      simp only [List.mem_append, List.mem_cons] at hth ⊢
      tauto
  | start l t p hx => exact .inl (List.mem_cons_of_mem _ hth)
  | finish l₁ l₂ t r =>
    rcases hsplit hth with rfl | hth
    · exact .inr (.inr (.inl ⟨r, rfl, rfl⟩))
    · exact .inl hth
  | env l hx => exact .inl hth
  | die l₁ l₂ t p hx =>
    rcases hsplit hth with rfl | hth
    · exact .inr (.inr (.inr rfl))
    · exact .inl hth

/-! ### What each thread may ask for -/

/-- If every program that starts only asks for what its tag allows, so does every running one. -/
theorem issues_run {P : τ → C → Prop} {c₀ c : Pool Ans ε α τ σ} {tr : List (Event Ans ε α τ σ)}
    (h : PoolRun S c₀ tr c) (h0 : ∀ th ∈ c₀.threads, th.prog.Issues (P th.tag))
    (hstart : ∀ tags s t p s', S.start tags s t p s' → p.Issues (P t)) :
    ∀ th ∈ c.threads, th.prog.Issues (P th.tag) := by
  refine Run.relates (R := fun _ c => ∀ th ∈ c.threads, th.prog.Issues (P th.tag)) h h0 ?_
  intro b e c hb hs
  cases hs with
  | run l₁ l₂ t c k r hx =>
    intro th hth
    rcases List.mem_append.mp hth with hth | hth
    · exact hb th (List.mem_append_left _ hth)
    · rcases List.mem_cons.mp hth with rfl | hth
      · exact (hb ⟨t, .await c k⟩ (by simp)).2 r
      · exact hb th (List.mem_append_right _ (List.mem_cons_of_mem _ hth))
  | start l t p hx =>
    intro th hth
    rcases List.mem_cons.mp hth with rfl | hth
    · exact hstart _ _ _ _ _ hx
    · exact hb th hth
  | finish l₁ l₂ t r =>
    intro th hth
    rcases List.mem_append.mp hth with hth | hth
    · exact hb th (List.mem_append_left _ hth)
    · exact hb th (List.mem_append_right _ (List.mem_cons_of_mem _ hth))
  | env l hx => exact hb
  | die l₁ l₂ t p hx =>
    intro th hth
    rcases List.mem_append.mp hth with hth | hth
    · exact hb th (List.mem_append_left _ hth)
    · exact hb th (List.mem_append_right _ (List.mem_cons_of_mem _ hth))

/-- Every command of a run was one its thread may ask for. -/
theorem ran_issued {P : τ → C → Prop} {c₀ c : Pool Ans ε α τ σ} {tr : List (Event Ans ε α τ σ)}
    (h : PoolRun S c₀ tr c) (h0 : ∀ th ∈ c₀.threads, th.prog.Issues (P th.tag))
    (hstart : ∀ tags s t p s', S.start tags s t p s' → p.Issues (P t)) :
    ∀ e ∈ tr, ∀ (t : τ) (cmd : C) (r : Except ε (Ans cmd)), e.label = .ran t cmd r →
      P t cmd ∧ S.exec t e.pre cmd r e.post := by
  intro e he t cmd r hlabel
  obtain ⟨later, earlier, b, b', -, hrun, hstep, -⟩ := Run.split_mem h he
  have hb := issues_run hrun h0 hstart
  cases hstep with
  | run l₁ l₂ t' c' k r' hx =>
    cases hlabel
    exact ⟨(hb ⟨t, .await cmd k⟩ (by simp)).1, hx⟩
  | _ => cases hlabel

/-! ### Which program did what -/

def Label.tag? : Label Ans ε α τ → Option τ
  | .ran t _ _ => some t
  | .started t => some t
  | .finished t _ => some t
  | .env => none
  | .died t => some t

/-- Programs are numbered as they start. -/
structure Numbered (S : System Ans ε α τ σ) (num : τ → Nat) (count : σ → Nat) : Prop where
  exec : ∀ t s c r s', S.exec t s c r s' → count s' = count s
  start : ∀ tags s t p s', S.start tags s t p s' → num t = count s ∧ count s' = count s + 1
  env : ∀ s s', S.env s s' → count s' = count s
  die : ∀ t s s', S.die t s s' → count s' = count s

/-- The numbers given out so far. -/
structure Counted (num : τ → Nat) (count : σ → Nat) (tr : List (Event Ans ε α τ σ))
    (c : Pool Ans ε α τ σ) : Prop where
  threads : ∀ th ∈ c.threads, num th.tag < count c.state
  nodup : (c.threads.map fun th => num th.tag).Nodup
  events : ∀ e ∈ tr, ∀ t, e.label.tag? = some t → num t < count c.state

theorem Counted.sublist {num : τ → Nat} {count : σ → Nat} {tr : List (Event Ans ε α τ σ)}
    {e : Event Ans ε α τ σ} {b c : Pool Ans ε α τ σ} (h : Counted num count tr b)
    (hcount : count c.state = count b.state)
    (hsub : (c.threads.map fun th => num th.tag).Sublist (b.threads.map fun th => num th.tag))
    (he : ∀ t, e.label.tag? = some t → num t < count b.state) :
    Counted num count (e :: tr) c where
  threads := by
    intro th hth
    obtain ⟨th', hth', heq⟩ := List.mem_map.mp (hsub.subset (List.mem_map_of_mem hth))
    rw [hcount, ← heq]
    exact h.threads th' hth'
  nodup := h.nodup.sublist hsub
  events := by
    rw [hcount]
    intro e' he' t ht
    rcases List.mem_cons.mp he' with rfl | he'
    · exact he t ht
    · exact h.events e' he' t ht

theorem Numbered.run {num : τ → Nat} {count : σ → Nat} (hS : Numbered S num count) {s₀ : σ}
    {c : Pool Ans ε α τ σ} {tr : List (Event Ans ε α τ σ)} (h : PoolRun S ⟨s₀, []⟩ tr c) :
    Counted num count tr c := by
  refine Run.invariant h ⟨by simp, by simp, by simp⟩ fun tr b e c _ hb hs => ?_
  cases hs with
  | run l₁ l₂ t cmd k r hx =>
    refine hb.sublist (hS.exec _ _ _ _ _ hx) (by simp) fun t' ht => ?_
    cases ht
    exact hb.threads ⟨t, .await cmd k⟩ (by simp)
  | start l t p hx =>
    obtain ⟨hnum, hcount⟩ := hS.start _ _ _ _ _ hx
    refine ⟨fun th hth => ?_, ?_, fun e' he' t' ht' => ?_⟩
    · rcases List.mem_cons.mp hth with rfl | hth
      · show num t < _
        simp only [hcount, hnum]
        omega
      · exact (hb.threads th hth).trans (hcount ▸ Nat.lt_succ_self _)
    · simp only [List.map_cons, List.nodup_cons, List.mem_map, not_exists, not_and]
      refine ⟨fun th hth heq => ?_, hb.nodup⟩
      have := hb.threads th hth
      simp only at this
      omega
    · simp only [hcount]
      rcases List.mem_cons.mp he' with rfl | he'
      · cases ht'
        omega
      · have := hb.events e' he' t' ht'
        simp only at this
        omega
  | finish l₁ l₂ t r =>
    refine hb.sublist rfl ?_ fun t' ht => ?_
    · exact (((List.Sublist.refl l₁).append (List.sublist_cons_self _ _))).map _
    · cases ht
      exact hb.threads ⟨t, .done r⟩ (by simp)
  | env l hx => exact hb.sublist (hS.env _ _ hx) (List.Sublist.refl _) fun t' ht => by cases ht
  | die l₁ l₂ t p hx =>
    refine hb.sublist (hS.die _ _ _ hx) ?_ fun t' ht => ?_
    · exact (((List.Sublist.refl l₁).append (List.sublist_cons_self _ _))).map _
    · cases ht
      exact hb.threads ⟨t, p⟩ (by simp)

/-- The programs of one number are one program. -/
theorem Counted.eq_of_tag {num : τ → Nat} {count : σ → Nat} {tr : List (Event Ans ε α τ σ)}
    {c : Pool Ans ε α τ σ} (h : Counted num count tr c) {th th' : Thread Ans ε α τ}
    (hth : th ∈ c.threads) (hth' : th' ∈ c.threads) (heq : num th.tag = num th'.tag) : th = th' :=
  List.inj_on_of_nodup_map h.nodup hth hth' heq

/-- The rule for what holds of each thread and the trace so far: it holds as the thread starts,
its own commands keep it, and so does what the others do, of whom it holds as well. -/
theorem Numbered.together {num : τ → Nat} {count : σ → Nat} (hS : Numbered S num count)
    {J : List (Event Ans ε α τ σ) → σ → Thread Ans ε α τ → Prop} {s₀ : σ}
    {c : Pool Ans ε α τ σ} {tr : List (Event Ans ε α τ σ)} (h : PoolRun S ⟨s₀, []⟩ tr c)
    (hstart : ∀ tr l s t p s', PoolRun S ⟨s₀, []⟩ tr ⟨s, l⟩ → S.start (l.map (·.tag)) s t p s' →
      (∀ e ∈ tr, e.label.tag? ≠ some t) → J (⟨.started t, s, s'⟩ :: tr) s' ⟨t, p⟩)
    (hrun : ∀ tr s t cmd k r s', S.exec t s cmd r s' → J tr s ⟨t, .await cmd k⟩ →
      J (⟨.ran t cmd r, s, s'⟩ :: tr) s' ⟨t, k r⟩)
    (hkeep : ∀ tr b e c th, PoolRun S ⟨s₀, []⟩ tr b → Step S b e c →
      (∀ th' ∈ b.threads, J tr b.state th') → J tr b.state th →
      e.label.tag? ≠ some th.tag → J (e :: tr) c.state th) :
    ∀ th ∈ c.threads, J tr c.state th := by
  refine Run.invariant (I := fun tr c => ∀ th ∈ c.threads, J tr c.state th) h (by simp) ?_
  intro tr b e c hpre hb hs
  have hcounted := hS.run hpre
  have hother : ∀ (l₁ l₂ : List (Thread Ans ε α τ)) (t : τ) (p : Prog Ans ε α),
      b.threads = l₁ ++ ⟨t, p⟩ :: l₂ → ∀ th ∈ l₁ ++ l₂, some t ≠ some th.tag := by
    intro l₁ l₂ t p hl th hth heq
    have hnd := hcounted.nodup
    cases heq
    simp only [hl, List.map_append, List.map_cons, List.nodup_append, List.nodup_cons,
      List.mem_cons, List.mem_map] at hnd
    rcases List.mem_append.mp hth with hth | hth
    · exact hnd.2.2 (num th.tag) ⟨th, hth, rfl⟩ (num th.tag) (.inl rfl) rfl
    · exact hnd.2.1.1 ⟨th, hth, rfl⟩
  cases hs with
  | @run s s' l₁ l₂ t cmd k r hx =>
    intro th hth
    have hcase : th = ⟨t, k r⟩ ∨ th ∈ l₁ ++ l₂ := by
      simp only [List.mem_append, List.mem_cons] at hth ⊢
      tauto
    rcases hcase with rfl | hth'
    · exact hrun tr s t cmd k r s' hx (hb ⟨t, .await cmd k⟩ (by simp))
    · refine hkeep tr _ _ _ th hpre (.run l₁ l₂ t cmd k r hx) hb (hb th ?_)
        (hother _ _ _ _ rfl th hth')
      simp only [List.mem_append, List.mem_cons] at hth' ⊢
      tauto
  | @start s s' l t p hx =>
    obtain ⟨hnum, -⟩ := hS.start _ _ _ _ _ hx
    intro th hth
    rcases List.mem_cons.mp hth with rfl | hth
    · refine hstart tr l s t p s' hpre hx fun e he htag => ?_
      have := hcounted.events e he t htag
      simp only at this
      omega
    · refine hkeep tr _ _ _ th hpre (.start l t p hx) hb (hb th hth) fun htag => ?_
      have := hcounted.threads th hth
      cases htag
      simp only at this
      omega
  | finish l₁ l₂ t r =>
    intro th hth
    refine hkeep tr _ _ _ th hpre (.finish l₁ l₂ t r) hb (hb th ?_) (hother _ _ _ _ rfl th hth)
    simp only [List.mem_append, List.mem_cons] at hth ⊢
    tauto
  | env l hx =>
    intro th hth
    exact hkeep tr _ _ _ th hpre (.env l hx) hb (hb th hth) fun htag => by cases htag
  | die l₁ l₂ t p hx =>
    intro th hth
    refine hkeep tr _ _ _ th hpre (.die l₁ l₂ t p hx) hb (hb th ?_) (hother _ _ _ _ rfl th hth)
    simp only [List.mem_append, List.mem_cons] at hth ⊢
    tauto

/-- The same for a property that needs nothing of the others. -/
theorem Numbered.threads {num : τ → Nat} {count : σ → Nat} (hS : Numbered S num count)
    {J : List (Event Ans ε α τ σ) → σ → Thread Ans ε α τ → Prop} {s₀ : σ}
    {c : Pool Ans ε α τ σ} {tr : List (Event Ans ε α τ σ)} (h : PoolRun S ⟨s₀, []⟩ tr c)
    (hstart : ∀ tr tags s t p s', S.start tags s t p s' → (∀ e ∈ tr, e.label.tag? ≠ some t) →
      J (⟨.started t, s, s'⟩ :: tr) s' ⟨t, p⟩)
    (hrun : ∀ tr s t cmd k r s', S.exec t s cmd r s' → J tr s ⟨t, .await cmd k⟩ →
      J (⟨.ran t cmd r, s, s'⟩ :: tr) s' ⟨t, k r⟩)
    (hkeep : ∀ tr b e c th, PoolRun S ⟨s₀, []⟩ tr b → Step S b e c → J tr b.state th →
      e.label.tag? ≠ some th.tag → J (e :: tr) c.state th) :
    ∀ th ∈ c.threads, J tr c.state th :=
  hS.together h (fun tr _ s t p s' _ hx hnew => hstart tr _ s t p s' hx hnew) hrun
    fun tr b e c th hpre hs _ hj htag => hkeep tr b e c th hpre hs hj htag

theorem Label.tag?_ne {e : Event Ans ε α τ σ} {t : τ} (h : e.label.tag? ≠ some t) (cmd : C)
    (r : Except ε (Ans cmd)) : e.label ≠ .ran t cmd r := by
  intro heq
  rw [heq] at h
  exact h rfl

/-- What a program may ask for at most once, it has not asked for before it does. -/
theorem once_run {num : τ → Nat} {count : σ → Nat} (hS : Numbered S num count)
    {P : τ → C → Prop} {s₀ : σ} {c : Pool Ans ε α τ σ} {tr : List (Event Ans ε α τ σ)}
    (h : PoolRun S ⟨s₀, []⟩ tr c)
    (hstart : ∀ tags s t p s', S.start tags s t p s' → p.Once (P t)) :
    ∀ th ∈ c.threads, th.prog.Once (P th.tag) ∧
      ((∃ e ∈ tr, ∃ (cmd : C) (r : Except ε (Ans cmd)), e.label = .ran th.tag cmd r ∧
        P th.tag cmd) → th.prog.Issues fun cmd => ¬ P th.tag cmd) := by
  refine hS.threads (J := fun tr _ th => th.prog.Once (P th.tag) ∧
      ((∃ e ∈ tr, ∃ (cmd : C) (r : Except ε (Ans cmd)), e.label = .ran th.tag cmd r ∧
        P th.tag cmd) → th.prog.Issues fun cmd => ¬ P th.tag cmd)) h ?_ ?_ ?_
  · intro tr tags s t p s' hx hnew
    refine ⟨hstart _ _ _ _ _ hx, fun ⟨e, he, cmd, r, hlabel, _⟩ => ?_⟩
    rcases List.mem_cons.mp he with rfl | he
    · cases hlabel
    · exact absurd hlabel (Label.tag?_ne (hnew e he) cmd r)
  · intro tr s t cmd k r s' hx hj
    refine ⟨(hj.1 r).1, fun ⟨e, he, cmd', r', hlabel, hp⟩ => ?_⟩
    rcases List.mem_cons.mp he with rfl | he
    · cases hlabel
      exact (hj.1 _).2 hp
    · exact (hj.2 ⟨e, he, cmd', r', hlabel, hp⟩).2 r
  · intro tr b e c th hpre hs hj htag
    refine ⟨hj.1, fun ⟨e', he', cmd, r, hlabel, hp⟩ => ?_⟩
    rcases List.mem_cons.mp he' with rfl | he'
    · exact absurd hlabel (Label.tag?_ne htag cmd r)
    · exact hj.2 ⟨e', he', cmd, r, hlabel, hp⟩

/-- So two requests of one program are one. -/
theorem once_of_run {num : τ → Nat} {count : σ → Nat} (hS : Numbered S num count)
    {P : τ → C → Prop} {s₀ : σ} {c : Pool Ans ε α τ σ} {later earlier : List (Event Ans ε α τ σ)}
    {e e' : Event Ans ε α τ σ} {t : τ} {cmd cmd' : C} {r : Except ε (Ans cmd)}
    {r' : Except ε (Ans cmd')} (h : PoolRun S ⟨s₀, []⟩ (later ++ e :: earlier) c)
    (hstart : ∀ tags s t p s', S.start tags s t p s' → p.Once (P t))
    (hlabel : e.label = .ran t cmd r) (he' : e' ∈ earlier) (hlabel' : e'.label = .ran t cmd' r')
    (hp : P t cmd) : ¬ P t cmd' := by
  intro hp'
  obtain ⟨b, b', hrun, hstep, -⟩ := h.split
  have hb := once_run hS hrun hstart
  cases hstep with
  | run l₁ l₂ t' c' k r' hx =>
    cases hlabel
    exact ((hb ⟨t, .await cmd k⟩ (by simp)).2 ⟨e', he', cmd', _, hlabel', hp'⟩).1 hp
  | _ => cases hlabel

/-- The answers a thread has had, newest first. -/
inductive Heard (t : τ) : List (Event Ans ε α τ σ) → Answers Ans ε → Prop where
  | nil : Heard t [] []
  | ran {tr : List (Event Ans ε α τ σ)} {h : Answers Ans ε} {s s' : σ} (c : C)
      (r : Except ε (Ans c)) : Heard t tr h → Heard t (⟨.ran t c r, s, s'⟩ :: tr) (⟨c, r⟩ :: h)
  | other {tr : List (Event Ans ε α τ σ)} {h : Answers Ans ε} {e : Event Ans ε α τ σ} :
      (∀ (c : C) (r : Except ε (Ans c)), e.label ≠ .ran t c r) → Heard t tr h →
      Heard t (e :: tr) h

theorem Heard.mem {t : τ} {tr : List (Event Ans ε α τ σ)} {h : Answers Ans ε} (hh : Heard t tr h)
    {c : C} {r : Except ε (Ans c)} : ⟨c, r⟩ ∈ h ↔ ∃ e ∈ tr, e.label = .ran t c r := by
  induction hh with
  | nil => simp
  | ran c' r' hh ih =>
    rw [List.mem_cons, ih]
    constructor
    · rintro (heq | ⟨e, he, hlabel⟩)
      · cases heq
        exact ⟨_, List.mem_cons_self, rfl⟩
      · exact ⟨e, List.mem_cons_of_mem _ he, hlabel⟩
    · rintro ⟨e, he, hlabel⟩
      rcases List.mem_cons.mp he with rfl | he
      · cases hlabel
        exact .inl rfl
      · exact .inr ⟨e, he, hlabel⟩
  | other hne hh ih =>
    rw [ih]
    constructor
    · exact fun ⟨e, he, hlabel⟩ => ⟨e, List.mem_cons_of_mem _ he, hlabel⟩
    · rintro ⟨e, he, hlabel⟩
      rcases List.mem_cons.mp he with rfl | he
      · exact absurd hlabel (hne c r)
      · exact ⟨e, he, hlabel⟩

theorem Heard.unique {t : τ} {tr : List (Event Ans ε α τ σ)} {h h' : Answers Ans ε}
    (hh : Heard t tr h) (hh' : Heard t tr h') : h = h' := by
  induction hh generalizing h' with
  | nil =>
    cases hh'
    rfl
  | ran c r hh ih =>
    cases hh' with
    | ran _ _ hh' => rw [ih hh']
    | other hne => exact absurd rfl (hne c r)
  | other hne hh ih =>
    cases hh' with
    | ran c r hh' => exact absurd rfl (hne c r)
    | other _ hh' => exact ih hh'

theorem heard_nil {t : τ} {tr : List (Event Ans ε α τ σ)}
    (h : ∀ e ∈ tr, e.label.tag? ≠ some t) : Heard t tr [] := by
  induction tr with
  | nil => exact .nil
  | cons e tr ih =>
    exact .other (Label.tag?_ne (h e List.mem_cons_self))
      (ih fun e' he' => h e' (List.mem_cons_of_mem _ he'))

section Told

variable {num : τ → Nat} {count : σ → Nat} {P : τ → Answers Ans ε → C → Prop}
  {Q : τ → Answers Ans ε → Except ε α → Prop} {s₀ : σ} {c : Pool Ans ε α τ σ}
  {tr later earlier : List (Event Ans ε α τ σ)} {e : Event Ans ε α τ σ} {t : τ}

/-- What every program does with its answers, every running one does. -/
theorem told_run (hS : Numbered S num count) (h : PoolRun S ⟨s₀, []⟩ tr c)
    (hstart : ∀ tags s t p s', S.start tags s t p s' → p.Told (P t) (Q t) []) :
    ∀ th ∈ c.threads, ∃ a, Heard th.tag tr a ∧ th.prog.Told (P th.tag) (Q th.tag) a := by
  refine hS.threads (J := fun tr _ th =>
    ∃ a, Heard th.tag tr a ∧ th.prog.Told (P th.tag) (Q th.tag) a) h ?_ ?_ ?_
  · intro tr tags s t p s' hx hnew
    exact ⟨[], .other (by simp) (heard_nil hnew), hstart _ _ _ _ _ hx⟩
  · rintro tr s t cmd k r s' hx ⟨a, ha, hp⟩
    exact ⟨_, .ran cmd r ha, hp.2 r⟩
  · rintro tr b e c th hpre hs ⟨a, ha, hp⟩ htag
    exact ⟨a, .other (Label.tag?_ne htag) ha, hp⟩

theorem told_ran (hS : Numbered S num count) (h : PoolRun S ⟨s₀, []⟩ (later ++ e :: earlier) c)
    (hstart : ∀ tags s t p s', S.start tags s t p s' → p.Told (P t) (Q t) []) {cmd : C}
    {r : Except ε (Ans cmd)} (hlabel : e.label = .ran t cmd r) :
    ∃ a, Heard t earlier a ∧ P t a cmd := by
  obtain ⟨b, b', hrun, hstep, -⟩ := h.split
  have hb := told_run hS hrun hstart
  cases hstep with
  | run l₁ l₂ t' c' k r' hx =>
    cases hlabel
    obtain ⟨a, ha, hp⟩ := hb ⟨t, .await cmd k⟩ (by simp)
    exact ⟨a, ha, hp.1⟩
  | _ => cases hlabel

theorem told_finished (hS : Numbered S num count)
    (h : PoolRun S ⟨s₀, []⟩ (later ++ e :: earlier) c)
    (hstart : ∀ tags s t p s', S.start tags s t p s' → p.Told (P t) (Q t) [])
    {r : Except ε α} (hlabel : e.label = .finished t r) : ∃ a, Heard t earlier a ∧ Q t a r := by
  obtain ⟨b, b', hrun, hstep, -⟩ := h.split
  have hb := told_run hS hrun hstart
  cases hstep with
  | finish l₁ l₂ t' r' =>
    cases hlabel
    exact hb ⟨t, .done r⟩ (by simp)
  | _ => cases hlabel

end Told

/-- A program that must have an answer `P` before it ends in anything but `Q` has had it. -/
theorem until_run {num : τ → Nat} {count : σ → Nat} (hS : Numbered S num count)
    {A P : (c : C) → Except ε (Ans c) → Prop} {Q : Except ε α → Prop} {T : τ → Prop} {s₀ : σ}
    {c : Pool Ans ε α τ σ} {tr : List (Event Ans ε α τ σ)} (h : PoolRun S ⟨s₀, []⟩ tr c)
    (hstart : ∀ tags s t p s', S.start tags s t p s' → T t → p.Until A P Q)
    (hexec : ∀ t s cmd r s', S.exec t s cmd r s' → A cmd r) :
    ∀ th ∈ c.threads, T th.tag → th.prog.Until A P Q ∨
      ∃ e ∈ tr, ∃ (cmd : C) (r : Except ε (Ans cmd)), e.label = .ran th.tag cmd r ∧ P cmd r := by
  refine hS.threads (J := fun tr _ th => T th.tag → th.prog.Until A P Q ∨
      ∃ e ∈ tr, ∃ (cmd : C) (r : Except ε (Ans cmd)), e.label = .ran th.tag cmd r ∧ P cmd r)
    h ?_ ?_ ?_
  · exact fun tr tags s t p s' hx _ ht => .inl (hstart _ _ _ _ _ hx ht)
  · intro tr s t cmd k r s' hx hj ht
    obtain hj | ⟨e, he, hlabel⟩ := hj ht
    · rcases hj r (hexec _ _ _ _ _ hx) with hp | hk
      · exact .inr ⟨_, List.mem_cons_self, cmd, r, rfl, hp⟩
      · exact .inl hk
    · exact .inr ⟨e, List.mem_cons_of_mem _ he, hlabel⟩
  · intro tr b e c th hpre hs hj htag ht
    obtain hj | ⟨e', he', hlabel⟩ := hj ht
    · exact .inl hj
    · exact .inr ⟨e', List.mem_cons_of_mem _ he', hlabel⟩

theorem until_finished {num : τ → Nat} {count : σ → Nat} (hS : Numbered S num count)
    {A P : (c : C) → Except ε (Ans c) → Prop} {Q : Except ε α → Prop} {T : τ → Prop} {s₀ : σ}
    {c : Pool Ans ε α τ σ} {tr : List (Event Ans ε α τ σ)} (h : PoolRun S ⟨s₀, []⟩ tr c)
    (hstart : ∀ tags s t p s', S.start tags s t p s' → T t → p.Until A P Q)
    (hexec : ∀ t s cmd r s', S.exec t s cmd r s' → A cmd r) {e : Event Ans ε α τ σ} {t : τ}
    {r : Except ε α} (he : e ∈ tr) (hlabel : e.label = .finished t r) (ht : T t) (hr : ¬ Q r) :
    ∃ e' ∈ tr, ∃ (cmd : C) (r : Except ε (Ans cmd)), e'.label = .ran t cmd r ∧ P cmd r := by
  obtain ⟨later, earlier, b, b', rfl, hrun, hstep, -⟩ := Run.split_mem h he
  have hb := until_run hS hrun hstart hexec
  cases hstep with
  | finish l₁ l₂ t' r' =>
    cases hlabel
    obtain hq | ⟨e', he', hran⟩ := hb ⟨t, .done r⟩ (by simp) ht
    · exact absurd hq hr
    · exact ⟨e', by simp [he'], hran⟩
  | _ => cases hlabel

/-! ### The parallel rule -/

/-- One thread's part of the bargain. -/
structure Contract (σ ε α : Type) where
  rely : σ → σ → Prop
  guar : σ → σ → Prop
  post : Except ε α → σ → Prop

/-- The contract survives waiting. -/
structure Contract.Ok (K : Contract σ ε α) : Prop where
  refl : ∀ s, K.rely s s
  trans : ∀ a b c, K.rely a b → K.rely b c → K.rely a c
  stable : ∀ r a b, K.post r a → K.rely a b → K.post r b

/-- Each of two threads guarantees what the other relies on. -/
def Compatible (K K' : Contract σ ε α) : Prop :=
  (∀ s s', K.guar s s' → K'.rely s s') ∧ ∀ s s', K'.guar s s' → K.rely s s'

/-- The pool keeps its invariant, and every thread its contract. -/
structure PoolSafe (S : System Ans ε α τ σ) (I : σ → Prop) (K : τ → Contract σ ε α)
    (pool : Pool Ans ε α τ σ) : Prop where
  inv : I pool.state
  threads : ∀ th ∈ pool.threads, th.prog.Safe (S.exec th.tag) I (K th.tag).rely (K th.tag).guar
    (K th.tag).post pool.state
  compatible : (pool.threads.map (·.tag)).Pairwise fun t t' => Compatible (K t) (K t')

/-- What the invariant and the contracts ask of the system. -/
structure Lawful (S : System Ans ε α τ σ) (I : σ → Prop) (K : τ → Contract σ ε α) : Prop where
  ok : ∀ t, (K t).Ok
  start : ∀ tags s t p s', I s → S.start tags s t p s' →
    I s' ∧ p.Safe (S.exec t) I (K t).rely (K t).guar (K t).post s' ∧
      (∀ t' ∈ tags, Compatible (K t) (K t')) ∧ ∀ t', (K t').rely s s'
  env : ∀ s s', I s → S.env s s' → I s' ∧ ∀ t, (K t).rely s s'
  die : ∀ t s s', I s → S.die t s s' → I s' ∧ ∀ t', (K t').rely s s'

/-- Programs that keep their contracts one by one keep them together. -/
theorem PoolSafe.step {I : σ → Prop} {K : τ → Contract σ ε α} {b c : Pool Ans ε α τ σ}
    {e : Event Ans ε α τ σ} (hS : Lawful S I K) (h : PoolSafe S I K b) (hs : Step S b e c) :
    PoolSafe S I K c := by
  have hmove : ∀ {th : Thread Ans ε α τ} {s s' : σ},
      th.prog.Safe (S.exec th.tag) I (K th.tag).rely (K th.tag).guar (K th.tag).post s →
      (K th.tag).rely s s' →
      th.prog.Safe (S.exec th.tag) I (K th.tag).rely (K th.tag).guar (K th.tag).post s' :=
    fun {th _ _} hsafe hr => hsafe.stable (hS.ok th.tag).trans (hS.ok th.tag).stable hr
  cases hs with
  | @run s s' l₁ l₂ t cmd k r hx =>
    obtain ⟨hi, hthreads, hcompat⟩ := h
    have hrun := hthreads ⟨t, .await cmd k⟩ (by simp)
    obtain ⟨hg, hi', hk⟩ := hrun s ((hS.ok t).refl s) hi r s' hx
    have htags : ∀ p : Prog Ans ε α, (l₁ ++ ⟨t, p⟩ :: l₂).map (·.tag) =
        l₁.map (·.tag) ++ t :: l₂.map (·.tag) := fun p => by simp
    rw [htags] at hcompat
    obtain ⟨-, hright, hcross⟩ := List.pairwise_append.mp hcompat
    have hright := (List.pairwise_cons.mp hright).1
    refine ⟨hi', fun th hth => ?_, by rwa [htags]⟩
    rcases List.mem_append.mp hth with hth | hth
    · have hwith := hcross th.tag (List.mem_map_of_mem hth) t List.mem_cons_self
      exact hmove (hthreads th (List.mem_append_left _ hth)) (hwith.2 _ _ hg)
    · rcases List.mem_cons.mp hth with rfl | hth
      · exact hk
      · have hwith := hright th.tag (List.mem_map_of_mem hth)
        exact hmove (hthreads th (List.mem_append_right _ (List.mem_cons_of_mem _ hth)))
          (hwith.1 _ _ hg)
  | start l t p hx =>
    obtain ⟨hi', hsafe, hnew, hrely⟩ := hS.start _ _ _ _ _ h.inv hx
    refine ⟨hi', fun th hth => ?_, List.pairwise_cons.mpr ⟨hnew, h.compatible⟩⟩
    rcases List.mem_cons.mp hth with rfl | hth
    · exact hsafe
    · exact hmove (h.threads th hth) (hrely th.tag)
  | finish l₁ l₂ t r =>
    have hsub : List.Sublist (l₁ ++ l₂) (l₁ ++ ⟨t, .done r⟩ :: l₂) :=
      (List.Sublist.refl l₁).append (List.sublist_cons_self _ _)
    exact ⟨h.inv, fun th hth => h.threads th (hsub.subset hth),
      h.compatible.sublist (hsub.map _)⟩
  | env l hx =>
    obtain ⟨hi', hrely⟩ := hS.env _ _ h.inv hx
    exact ⟨hi', fun th hth => hmove (h.threads th hth) (hrely th.tag), h.compatible⟩
  | die l₁ l₂ t p hx =>
    obtain ⟨hi', hrely⟩ := hS.die _ _ _ h.inv hx
    have hsub : List.Sublist (l₁ ++ l₂) (l₁ ++ ⟨t, p⟩ :: l₂) :=
      (List.Sublist.refl l₁).append (List.sublist_cons_self _ _)
    exact ⟨hi', fun th hth => hmove (h.threads th (hsub.subset hth)) (hrely th.tag),
      h.compatible.sublist (hsub.map _)⟩

theorem PoolSafe.run {I : σ → Prop} {K : τ → Contract σ ε α} {c₀ c : Pool Ans ε α τ σ}
    {tr : List (Event Ans ε α τ σ)} (hS : Lawful S I K) (h0 : PoolSafe S I K c₀)
    (h : PoolRun S c₀ tr c) : PoolSafe S I K c :=
  Run.relates (R := fun _ c => PoolSafe S I K c) h h0 fun _ _ _ hb hs => hb.step hS hs

/-! ## Directed runs -/

/-- A system whose moves are computed from a script: each answer from a choice, each start from a
tag, each move from outside from a number. -/
structure Stage (S : System Ans ε α τ σ) (κ μ : Type) where
  respond : τ → κ → σ → (c : C) → Except ε (Ans c) × σ
  enter : σ → τ → Option (Prog Ans ε α × σ)
  move : μ → σ → Option σ
  kill : τ → σ → σ
  exec : ∀ t x s c, S.exec t s c (respond t x s c).1 (respond t x s c).2
  start : ∀ tags s t p s', enter s t = some (p, s') → S.start tags s t p s'
  env : ∀ m s s', move m s = some s' → S.env s s'
  die : ∀ t s, S.die t s (kill t s)

/-- One line of a script; programs are named by their place, newest first. -/
inductive Cue (τ κ μ : Type) where
  | enter (t : τ)
  | turn (n : Nat) (x : κ)
  | leave (n : Nat)
  | move (m : μ)
  | kill (n : Nat)

namespace Stage

variable {κ μ : Type} (D : Stage S κ μ)

def cue : Cue τ κ μ → Pool Ans ε α τ σ → Option (Event Ans ε α τ σ × Pool Ans ε α τ σ)
  | .enter t, ⟨s, l⟩ =>
    match D.enter s t with
    | some (p, s') => some (⟨.started t, s, s'⟩, ⟨s', ⟨t, p⟩ :: l⟩)
    | none => none
  | .turn n x, ⟨s, l⟩ =>
    match l.drop n with
    | ⟨t, .await c k⟩ :: l₂ =>
      let (r, s') := D.respond t x s c
      some (⟨.ran t c r, s, s'⟩, ⟨s', l.take n ++ ⟨t, k r⟩ :: l₂⟩)
    | _ => none
  | .leave n, ⟨s, l⟩ =>
    match l.drop n with
    | ⟨t, .done r⟩ :: l₂ => some (⟨.finished t r, s, s⟩, ⟨s, l.take n ++ l₂⟩)
    | _ => none
  | .move m, ⟨s, l⟩ =>
    match D.move m s with
    | some s' => some (⟨.env, s, s'⟩, ⟨s', l⟩)
    | none => none
  | .kill n, ⟨s, l⟩ =>
    match l.drop n with
    | ⟨t, _⟩ :: l₂ => some (⟨.died t, s, D.kill t s⟩, ⟨D.kill t s, l.take n ++ l₂⟩)
    | _ => none

def play : List (Cue τ κ μ) → Pool Ans ε α τ σ →
    Option (List (Event Ans ε α τ σ) × Pool Ans ε α τ σ)
  | [], pool => some ([], pool)
  | q :: qs, pool =>
    match D.cue q pool with
    | none => none
    | some (e, pool') =>
      match play qs pool' with
      | none => none
      | some (tr, pool'') => some (tr ++ [e], pool'')

variable {D}

theorem cue_step {q : Cue τ κ μ} {b c : Pool Ans ε α τ σ} {e : Event Ans ε α τ σ}
    (h : D.cue q b = some (e, c)) : Step S b e c := by
  obtain ⟨s, l⟩ := b
  have hl : ∀ {n : Nat} {th : Thread Ans ε α τ} {l₂ : List (Thread Ans ε α τ)},
      l.drop n = th :: l₂ → l = l.take n ++ th :: l₂ := by
    intro n th l₂ hn
    rw [← hn, List.take_append_drop]
  cases q with
  | enter t =>
    simp only [cue] at h
    split at h
    · next p s' hp =>
      cases h
      exact .start l t p (D.start _ _ _ _ _ hp)
    · cases h
  | turn n x =>
    simp only [cue] at h
    split at h
    · next t c k l₂ hn =>
      cases h
      conv => arg 2; rw [hl hn]
      exact .run _ l₂ t c k _ (D.exec t x s c)
    · cases h
  | leave n =>
    simp only [cue] at h
    split at h
    · next t r l₂ hn =>
      cases h
      conv => arg 2; rw [hl hn]
      exact .finish _ l₂ t r
    · cases h
  | move m =>
    simp only [cue] at h
    split at h
    · next s' hm =>
      cases h
      exact .env l (D.env _ _ _ hm)
    · cases h
  | kill n =>
    simp only [cue] at h
    split at h
    · next t p l₂ hn =>
      cases h
      conv => arg 2; rw [hl hn]
      exact .die _ l₂ t p (D.die t s)
    · cases h

/-- A script that can be played is a run. -/
theorem play_run {qs : List (Cue τ κ μ)} {b c : Pool Ans ε α τ σ} {tr : List (Event Ans ε α τ σ)}
    (h : D.play qs b = some (tr, c)) : PoolRun S b tr c := by
  induction qs generalizing b tr with
  | nil =>
    cases h
    exact .nil
  | cons q qs ih =>
    simp only [play] at h
    split at h
    · cases h
    · next e b' hq =>
      split at h
      · cases h
      · next tr' c' hp =>
        cases h
        exact (Run.single (cue_step hq)).append (ih hp)

/-- The run of a script known to be playable. -/
theorem play_get {qs : List (Cue τ κ μ)} {b : Pool Ans ε α τ σ} (h : (D.play qs b).isSome = true) :
    PoolRun S b ((D.play qs b).get h).1 ((D.play qs b).get h).2 :=
  play_run (by rw [Option.some_get])

end Stage

end Async

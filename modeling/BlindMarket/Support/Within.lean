import BlindMarket.Support.Async

/-!
# Programs that are given certain answers only

What a program does as long as its answers are of a kind, and what then holds of
a run of many: a property of the state that such commands keep, and that gives
such answers, lasts.
-/
namespace Async

open Runs

variable {C : Type} {Ans : C → Type} {ε α β σ τ : Type} {P : C → Prop}
  {A : (c : C) → Except ε (Ans c) → Prop}

namespace Prog

/-- With answers in `A`, every command the program comes to satisfies `P`. -/
def Within (A : (c : C) → Except ε (Ans c) → Prop) (P : C → Prop) : Prog Ans ε α → Prop
  | .done _ => True
  | .await c k => P c ∧ ∀ r, A c r → (k r).Within A P

variable {p : Prog Ans ε α}

/-- A program that may ask for anything. -/
theorem within_true (p : Prog Ans ε α) : p.Within A fun _ => True := by
  induction p with
  | done r => trivial
  | await c k ih => exact ⟨trivial, fun r _ => ih r⟩

theorem Within.mono {A' : (c : C) → Except ε (Ans c) → Prop} {P' : C → Prop} (h : p.Within A P)
    (hA : ∀ c r, A' c r → A c r) (hP : ∀ c, P c → P' c) : p.Within A' P' := by
  induction p with
  | done r => trivial
  | await c k ih => exact ⟨hP c h.1, fun r hr => ih r (h.2 r (hA c r hr))⟩

theorem Within.andThen {f : Except ε α → Prog Ans ε β} (h : p.Within A P)
    (hf : ∀ r, (f r).Within A P) : (p.andThen f).Within A P := by
  induction p with
  | done r => exact hf r
  | await c k ih => exact ⟨h.1, fun r hr => ih r (h.2 r hr)⟩

theorem Within.bind {f : α → Prog Ans ε β} (h : p.Within A P) (hf : ∀ a, (f a).Within A P) :
    (p >>= f).Within A P := by
  refine h.andThen fun r => ?_
  cases r with
  | ok a => exact hf a
  | error e => trivial

theorem Within.attempt (h : p.Within A P) : p.attempt.Within A P := h.andThen fun _ => trivial

theorem within_one {c : C} (hc : P c) : (call c : Prog Ans ε (Ans c)).Within A P :=
  ⟨hc, fun _ _ => trivial⟩

theorem within_call {c : C} {k : Ans c → Prog Ans ε α} (hc : P c)
    (hk : ∀ v, A c (.ok v) → (k v).Within A P) : (call c >>= k).Within A P := by
  refine ⟨hc, fun r hr => ?_⟩
  cases r with
  | ok v => exact hk v hr
  | error e => trivial

/-- A command whose failure is a value. -/
theorem within_attempt_call {c : C} {k : Except ε (Ans c) → Prog Ans ε α} (hc : P c)
    (hk : ∀ r, A c r → (k r).Within A P) : (attempt (call c) >>= k).Within A P :=
  ⟨hc, fun r hr => hk r hr⟩

end Prog

variable {S : System Ans ε α τ σ} {P : τ → C → Prop} {J : σ → Prop} {b c : Pool Ans ε α τ σ}
  {tr : List (Event Ans ε α τ σ)}

/-- Who is left when one thread is gone was there before. -/
theorem mem_others {x y : Thread Ans ε α τ} {l₁ l₂ : List (Thread Ans ε α τ)} (h : y ∈ l₁ ++ l₂) :
    y ∈ l₁ ++ x :: l₂ :=
  ((List.sublist_cons_self x l₂).append_left l₁).subset h

/-- Where the commands that `P` allows keep `J` and are answered in `A`, programs that keep to `P` with
answers in `A` keep `J`. -/
theorem within_run (h : PoolRun S b tr c) (hJ : J b.state)
    (hb : ∀ th ∈ b.threads, th.prog.Within A (P th.tag))
    (hexec : ∀ t s cmd r s', J s → P t cmd → S.exec t s cmd r s' → A cmd r ∧ J s')
    (hother : ∀ b e c, e ∈ tr → Step S b e c → (∀ t cmd r, e.label ≠ .ran t cmd r) → J b.state →
      J c.state)
    (hstart : ∀ e ∈ tr, ∀ t, e.label = .started t → ∀ tags p, S.start tags e.pre t p e.post →
      p.Within A (P t)) :
    J c.state ∧ ∀ th ∈ c.threads, th.prog.Within A (P th.tag) := by
  have hinv := Run.invariant (I := fun tr' c => (∀ e ∈ tr', e ∈ tr) →
    J c.state ∧ ∀ th ∈ c.threads, th.prog.Within A (P th.tag)) h (fun _ => ⟨hJ, hb⟩) ?_
  · exact hinv fun e he => he
  · intro tr' b e c _ hb hs hsub
    obtain ⟨hj, hall⟩ := hb fun e' he' => hsub e' (List.mem_cons_of_mem _ he')
    have he := hsub e List.mem_cons_self
    have hstays := fun hne => hother b e c he hs hne hj
    cases hs with
    | run l₁ l₂ t cmd k r hx =>
      obtain ⟨hcmd, hk⟩ := hall ⟨t, .await cmd k⟩ (by simp)
      obtain ⟨ha, hj'⟩ := hexec _ _ _ _ _ hj hcmd hx
      refine ⟨hj', fun th hth => ?_⟩
      rcases List.mem_append.1 hth with hth | hth
      · exact hall th (List.mem_append_left _ hth)
      · rcases List.mem_cons.1 hth with rfl | hth
        · exact hk r ha
        · exact hall th (List.mem_append_right _ (List.mem_cons_of_mem _ hth))
    | start l t p hx =>
      refine ⟨hstays (by simp), fun th hth => ?_⟩
      rcases List.mem_cons.1 hth with rfl | hth
      · exact hstart _ he t rfl _ _ hx
      · exact hall th hth
    | finish l₁ l₂ t r => exact ⟨hj, fun th hth => hall th (mem_others hth)⟩
    | env l hx => exact ⟨hstays (by simp), hall⟩
    | die l₁ l₂ t p hx => exact ⟨hstays (by simp), fun th hth => hall th (mem_others hth)⟩

end Async

import BlindMarket.Support.Knowledge

/-!
# Programs in the history of a run

A number names one program for the whole of a run: while it runs, and once it
is over. What such a program did at most once is one event, and one that has
finished does nothing any more.
-/
namespace Async

open Runs Prog

variable {C : Type} {Ans : C → Type} {ε α τ σ : Type} [DecidableEq τ] {S : System Ans ε α τ σ}
  {tr : List (Event Ans ε α τ σ)} {e : Event Ans ε α τ σ} {t t' : τ} {a : Answers Ans ε}
  {num : τ → Nat} {count : σ → Nat} {s₀ : σ} {c : Pool Ans ε α τ σ}

/-- Programs of one number are one program, whether they run or not. -/
theorem Numbered.tag_unique (hS : Numbered S num count) (h : PoolRun S ⟨s₀, []⟩ tr c)
    {e' : Event Ans ε α τ σ} (he : e ∈ tr) (he' : e' ∈ tr) (htag : e.label.tag? = some t)
    (htag' : e'.label.tag? = some t') (hnum : num t' = num t) : t' = t := by
  suffices hall : (∀ th ∈ c.threads, ∀ e ∈ tr, ∀ t, e.label.tag? = some t → num t = num th.tag →
      t = th.tag) ∧ ∀ e ∈ tr, ∀ e' ∈ tr, ∀ t t', e.label.tag? = some t → e'.label.tag? = some t' →
      num t' = num t → t' = t from hall.2 e he e' he' t t' htag htag' hnum
  clear he he' htag htag' hnum
  refine Run.invariant (I := fun tr c => (∀ th ∈ c.threads, ∀ e ∈ tr, ∀ t,
    e.label.tag? = some t → num t = num th.tag → t = th.tag) ∧ ∀ e ∈ tr, ∀ e' ∈ tr, ∀ t t',
    e.label.tag? = some t → e'.label.tag? = some t' → num t' = num t → t' = t) h (by simp) ?_
  rintro tr b e c hpre ⟨hthreads, hevents⟩ hs
  have hcounted := hS.run hpre
  -- A tag is that of a thread before the step, or of one that starts.
  have hnew : ∀ t, e.label.tag? = some t →
      (∃ th ∈ b.threads, th.tag = t) ∨ (num t = count b.state ∧ e.label = .started t) := by
    intro t ht
    cases hs with
    | run l₁ l₂ t' cmd k r hx =>
      cases ht
      exact .inl ⟨⟨t, .await cmd k⟩, by simp, rfl⟩
    | start l t' p hx =>
      cases ht
      exact .inr ⟨(hS.start _ _ _ _ _ hx).1, rfl⟩
    | finish l₁ l₂ t' r =>
      cases ht
      exact .inl ⟨⟨t, .done r⟩, by simp, rfl⟩
    | env l hx => cases ht
    | die l₁ l₂ t' p hx =>
      cases ht
      exact .inl ⟨⟨t, p⟩, by simp, rfl⟩
  have hold : ∀ th ∈ c.threads, (∃ th' ∈ b.threads, th'.tag = th.tag) ∨
      e.label = .started th.tag := by
    intro th hth
    cases hs with
    | run l₁ l₂ t' cmd k r hx =>
      refine .inl ?_
      simp only [List.mem_append, List.mem_cons] at hth
      obtain hth | rfl | hth := hth
      · exact ⟨th, by simp [hth], rfl⟩
      · exact ⟨⟨t', .await cmd k⟩, by simp, rfl⟩
      · exact ⟨th, by simp [hth], rfl⟩
    | start l t' p hx =>
      obtain rfl | hth := List.mem_cons.mp hth
      · exact .inr rfl
      · exact .inl ⟨th, hth, rfl⟩
    | finish l₁ l₂ t' r =>
      refine .inl ⟨th, ?_, rfl⟩
      simp only [List.mem_append, List.mem_cons] at hth ⊢
      tauto
    | env l hx => exact .inl ⟨th, hth, rfl⟩
    | die l₁ l₂ t' p hx =>
      refine .inl ⟨th, ?_, rfl⟩
      simp only [List.mem_append, List.mem_cons] at hth ⊢
      tauto
  -- Tags of the trace before, against that of the step.
  have hcross : ∀ e' ∈ tr, ∀ t t', e'.label.tag? = some t → e.label.tag? = some t' →
      num t = num t' → t = t' := by
    intro e' he' t t' ht ht' hnum
    obtain ⟨th, hth, rfl⟩ | ⟨hcount, -⟩ := hnew t' ht'
    · exact hthreads th hth e' he' t ht hnum
    · have := hcounted.events e' he' t ht
      omega
  have hsame : ∀ t t', e.label.tag? = some t → e.label.tag? = some t' → t = t' := by
    intro t t' ht ht'
    rw [ht] at ht'
    exact Option.some.inj ht'
  refine ⟨fun th hth e' he' t ht hnum => ?_, fun e₁ he₁ e₂ he₂ t t' ht ht' hnum => ?_⟩
  · obtain ⟨th', hth', heq⟩ | hlabel := hold th hth
    · rw [← heq] at hnum ⊢
      obtain rfl | he' := List.mem_cons.mp he'
      · obtain ⟨th'', hth'', rfl⟩ | ⟨hcount, -⟩ := hnew t ht
        · rw [hcounted.eq_of_tag hth'' hth' hnum]
        · have := hcounted.threads th' hth'
          omega
      · exact hthreads th' hth' e' he' t ht hnum
    · have htag : e.label.tag? = some th.tag := by rw [hlabel]; rfl
      obtain rfl | he' := List.mem_cons.mp he'
      · exact hsame t th.tag ht htag
      · exact hcross e' he' t th.tag ht htag hnum
  · obtain rfl | hmem₁ := List.mem_cons.mp he₁
    · obtain rfl | hmem₂ := List.mem_cons.mp he₂
      · exact hsame t' t ht' ht
      · exact hcross e₂ hmem₂ t' t ht' ht hnum
    · obtain rfl | hmem₂ := List.mem_cons.mp he₂
      · exact (hcross e₁ hmem₁ t t' ht ht' hnum.symm).symm
      · exact hevents e₁ hmem₁ e₂ hmem₂ t t' ht ht' hnum

omit [DecidableEq τ] in
/-- What a program asks for at most once is one event. -/
theorem Numbered.once_unique (hS : Numbered S num count) {P : τ → C → Prop}
    (h : PoolRun S ⟨s₀, []⟩ tr c)
    (hstart : ∀ tags s t p s', S.start tags s t p s' → p.Once (P t))
    {e' : Event Ans ε α τ σ} {cmd cmd' : C} {r : Except ε (Ans cmd)} {r' : Except ε (Ans cmd')}
    (he : e ∈ tr) (he' : e' ∈ tr) (hlabel : e.label = .ran t cmd r)
    (hlabel' : e'.label = .ran t cmd' r') (hp : P t cmd) (hp' : P t cmd') : e = e' := by
  have hbefore : ∀ {e e' : Event Ans ε α τ σ} {cmd cmd' : C} {r : Except ε (Ans cmd)}
      {r' : Except ε (Ans cmd')} {later earlier : List (Event Ans ε α τ σ)},
      tr = later ++ e :: earlier → e' ∈ earlier → e.label = .ran t cmd r →
      e'.label = .ran t cmd' r' → P t cmd → ¬ P t cmd' := by
    intro e e' cmd cmd' r r' later earlier heq he' hlabel hlabel' hp
    exact once_of_run hS (heq ▸ h) hstart hlabel he' hlabel' hp
  obtain ⟨later, earlier, htr⟩ := List.append_of_mem he
  rw [htr] at he'
  obtain he' | he' := List.mem_append.mp he'
  · obtain ⟨later', mid, rfl⟩ := List.append_of_mem he'
    have htr' : tr = later' ++ e' :: (mid ++ e :: earlier) := by simp [htr]
    exact absurd hp (hbefore htr' (by simp) hlabel' hlabel hp')
  · obtain heq | he' := List.mem_cons.mp he'
    · exact heq.symm
    · exact absurd hp' (hbefore htr he' hlabel hlabel' hp)

/-- A program that knows something has known something since its first event. -/
theorem Numbered.known_since (hS : Numbered S num count) {later earlier : List (Event Ans ε α τ σ)}
    (h : PoolRun S ⟨s₀, []⟩ (later ++ earlier) c) (ha : known (later ++ earlier) t = some a)
    (he : e ∈ earlier) (htag : e.label.tag? = some t) : ∃ a', known earlier t = some a' := by
  induction later generalizing c a with
  | nil => exact ⟨a, ha⟩
  | cons e' later ih =>
    cases h with
    | snoc hrun hs =>
      by_cases htag' : e'.label.tag? = some t
      · have hmem : e ∈ later ++ earlier := List.mem_append_right _ he
        cases hs with
        | run l₁ l₂ t' cmd k r hx =>
          cases htag'
          rw [List.cons_append, known_ran, if_pos rfl] at ha
          obtain ⟨a₀, ha₀, -⟩ := Option.map_eq_some_iff.mp ha
          exact ih hrun ha₀
        | start l t' p hx =>
          cases htag'
          have hold := (hS.run hrun).events e hmem t htag
          have hnum := (hS.start _ _ _ _ _ hx).1
          simp only at hold
          omega
        | finish l₁ l₂ t' r =>
          cases htag'
          simp at ha
        | env l hx => cases htag'
        | die l₁ l₂ t' p hx =>
          cases htag'
          simp at ha
      · rw [List.cons_append, known_other htag'] at ha
        exact ih hrun ha

/-- A program that has finished knows nothing any more. -/
theorem Numbered.known_finished (hS : Numbered S num count) (h : PoolRun S ⟨s₀, []⟩ tr c)
    {r : Except ε α} (he : e ∈ tr) (hlabel : e.label = .finished t r) : known tr t = none := by
  obtain ⟨later, earlier, rfl⟩ := List.append_of_mem he
  cases ha : known (later ++ e :: earlier) t with
  | none => rfl
  | some a =>
    obtain ⟨a', ha'⟩ := hS.known_since h ha List.mem_cons_self (by rw [hlabel]; rfl)
    obtain ⟨label, pre, post⟩ := e
    obtain rfl : label = .finished t r := hlabel
    simp at ha'

/-- Nor does it do anything any more. -/
theorem Numbered.finished_last (hS : Numbered S num count)
    {later earlier : List (Event Ans ε α τ σ)} (h : PoolRun S ⟨s₀, []⟩ (later ++ e :: earlier) c)
    {r : Except ε α} (hlabel : e.label = .finished t r) {e' : Event Ans ε α τ σ} (he' : e' ∈ later)
    (cmd : C) (r' : Except ε (Ans cmd)) : e'.label ≠ .ran t cmd r' := by
  intro hlabel'
  obtain ⟨later', mid, rfl⟩ := List.append_of_mem he'
  rw [List.append_assoc, List.cons_append] at h
  obtain ⟨b, b', hrun, hstep, -⟩ := h.split
  have hnone := hS.known_finished hrun (List.mem_append_right _ List.mem_cons_self) hlabel
  have hm : Move S (fun _ _ _ => True) (fun _ _ _ => True) (mid ++ e :: earlier) b.state e' b'.state :=
    hS.move hrun hstep fun _ _ _ p _ _ => told_true p
  generalize b.state = s at hm
  generalize b'.state = s' at hm
  cases hm with
  | ran t' a c' r'' hknown hasks hx =>
    cases hlabel'
    rw [hnone] at hknown
    cases hknown
  | _ => cases hlabel'

/-- What a program under way knows are the answers it has had. -/
theorem Numbered.heard_known (hS : Numbered S num count) (h : PoolRun S ⟨s₀, []⟩ tr c)
    (ha : known tr t = some a) : Heard t tr a := by
  refine Run.invariant (I := fun tr _ => ∀ a, known tr t = some a → Heard t tr a) h (by simp) ?_ a ha
  intro tr b e c hpre hb hs a ha
  by_cases htag : e.label.tag? = some t
  · cases hs with
    | run l₁ l₂ t' cmd k r hx =>
      cases htag
      rw [known_ran, if_pos rfl] at ha
      obtain ⟨a₀, ha₀, rfl⟩ := Option.map_eq_some_iff.mp ha
      exact .ran cmd r (hb a₀ ha₀)
    | start l t' p hx =>
      cases htag
      rw [known_started, if_pos rfl] at ha
      cases ha
      refine .other (by simp) (heard_nil fun e' he' htag' => ?_)
      have hold := (hS.run hpre).events e' he' t htag'
      exact absurd (hS.start _ _ _ _ _ hx).1 (Nat.ne_of_lt hold)
    | finish l₁ l₂ t' r =>
      cases htag
      simp at ha
    | env l hx => cases htag
    | die l₁ l₂ t' p hx =>
      cases htag
      simp at ha
  · rw [known_other htag] at ha
    exact .other (Label.tag?_ne htag) (hb a ha)

omit [DecidableEq τ] in
theorem Heard.later {later earlier : List (Event Ans ε α τ σ)} (h : Heard t earlier a)
    (hnone : ∀ e ∈ later, ∀ (cmd : C) (r : Except ε (Ans cmd)), e.label ≠ .ran t cmd r) :
    Heard t (later ++ earlier) a := by
  induction later with
  | nil => exact h
  | cons e later ih =>
    exact .other (hnone e List.mem_cons_self)
      (ih fun e' he' => hnone e' (List.mem_cons_of_mem _ he'))

/-- So its answers are those it had at its end. -/
theorem Numbered.heard_finished (hS : Numbered S num count)
    {later earlier : List (Event Ans ε α τ σ)} (h : PoolRun S ⟨s₀, []⟩ (later ++ e :: earlier) c)
    {r : Except ε α} (hlabel : e.label = .finished t r) (ha : Heard t earlier a) :
    Heard t (later ++ e :: earlier) a := by
  have hend : Heard t (e :: earlier) a := by
    refine .other (fun cmd r' heq => ?_) ha
    rw [hlabel] at heq
    cases heq
  exact hend.later fun e' he' cmd r' => hS.finished_last h hlabel he' cmd r'

omit [DecidableEq τ] in
/-- Once nothing runs, every program that did anything has finished or died. -/
theorem ended_of_quiet (h : PoolRun S ⟨s₀, []⟩ tr c) (hquiet : c.threads = []) (he : e ∈ tr)
    (htag : e.label.tag? = some t) :
    ∃ e' ∈ tr, (∃ r, e'.label = .finished t r) ∨ e'.label = .died t := by
  suffices hall : ∀ e ∈ tr, e.label.tag? = some t → (∃ th ∈ c.threads, th.tag = t) ∨
      ∃ e' ∈ tr, (∃ r, e'.label = .finished t r) ∨ e'.label = .died t by
    rcases hall e he htag with ⟨th, hth, -⟩ | hended
    · rw [hquiet] at hth
      cases hth
    · exact hended
  clear he htag
  refine Run.invariant (I := fun tr c => ∀ e ∈ tr, e.label.tag? = some t →
    (∃ th ∈ c.threads, th.tag = t) ∨
      ∃ e' ∈ tr, (∃ r, e'.label = .finished t r) ∨ e'.label = .died t) h (by simp) ?_
  intro tr b e c hpre hb hs e₁ he₁ htag
  rcases List.mem_cons.mp he₁ with rfl | he₁
  · cases hs with
    | run l₁ l₂ t' cmd k r hx =>
      cases htag
      exact .inl ⟨⟨t, k r⟩, by simp, rfl⟩
    | start l t' p hx =>
      cases htag
      exact .inl ⟨⟨t, p⟩, by simp, rfl⟩
    | finish l₁ l₂ t' r =>
      cases htag
      exact .inr ⟨_, List.mem_cons_self, .inl ⟨r, rfl⟩⟩
    | env l hx => cases htag
    | die l₁ l₂ t' p hx =>
      cases htag
      exact .inr ⟨_, List.mem_cons_self, .inr rfl⟩
  · rcases hb e₁ he₁ htag with ⟨th, hth, rfl⟩ | ⟨e', he', hended⟩
    · obtain hth | ⟨cmd, k, r, -, -, -, hth⟩ | ⟨r, -, hlabel⟩ | hlabel := hs.thread hth
      · exact .inl ⟨th, hth, rfl⟩
      · exact .inl ⟨_, hth, rfl⟩
      · exact .inr ⟨e, List.mem_cons_self, .inl ⟨r, hlabel⟩⟩
      · exact .inr ⟨e, List.mem_cons_self, .inr hlabel⟩
    · exact .inr ⟨e', List.mem_cons_of_mem _ he', hended⟩

omit [DecidableEq τ] in
/-- Numbers are given out from the count the run starts with. -/
theorem Numbered.num_from (hS : Numbered S num count) (h : PoolRun S ⟨s₀, []⟩ tr c) (he : e ∈ tr)
    (htag : e.label.tag? = some t) : count s₀ ≤ num t := by
  suffices hall : count s₀ ≤ count c.state ∧ (∀ th ∈ c.threads, count s₀ ≤ num th.tag) ∧
      ∀ e ∈ tr, ∀ t, e.label.tag? = some t → count s₀ ≤ num t from hall.2.2 e he t htag
  clear he htag
  refine Run.invariant (I := fun tr c => count s₀ ≤ count c.state ∧
    (∀ th ∈ c.threads, count s₀ ≤ num th.tag) ∧
    ∀ e ∈ tr, ∀ t, e.label.tag? = some t → count s₀ ≤ num t) h (by simp) ?_
  rintro tr b e c - ⟨hcount, hthreads, hevents⟩ hs
  cases hs with
  | run l₁ l₂ t cmd k r hx =>
    have ht : count s₀ ≤ num t := hthreads ⟨t, .await cmd k⟩ (by simp)
    refine ⟨hcount.trans (hS.exec _ _ _ _ _ hx).ge, fun th hth => ?_, fun e' he' t' ht' => ?_⟩
    · simp only [List.mem_append, List.mem_cons] at hth
      obtain hth | rfl | hth := hth
      · exact hthreads th (by simp [hth])
      · exact ht
      · exact hthreads th (by simp [hth])
    · obtain rfl | he' := List.mem_cons.mp he'
      · cases ht'
        exact ht
      · exact hevents e' he' t' ht'
  | start l t p hx =>
    obtain ⟨hnum, hnext⟩ := hS.start _ _ _ _ _ hx
    simp only at hcount
    refine ⟨by simp only [hnext]; omega, fun th hth => ?_, fun e' he' t' ht' => ?_⟩
    · obtain rfl | hth := List.mem_cons.mp hth
      · exact hcount.trans hnum.ge
      · exact hthreads th hth
    · obtain rfl | he' := List.mem_cons.mp he'
      · cases ht'
        exact hcount.trans hnum.ge
      · exact hevents e' he' t' ht'
  | finish l₁ l₂ t r =>
    refine ⟨hcount, fun th hth => hthreads th ?_, fun e' he' t' ht' => ?_⟩
    · simp only [List.mem_append, List.mem_cons] at hth ⊢
      tauto
    · obtain rfl | he' := List.mem_cons.mp he'
      · cases ht'
        exact hthreads ⟨t, .done r⟩ (by simp)
      · exact hevents e' he' t' ht'
  | env l hx =>
    refine ⟨hcount.trans (hS.env _ _ hx).ge, hthreads, fun e' he' t' ht' => ?_⟩
    obtain rfl | he' := List.mem_cons.mp he'
    · cases ht'
    · exact hevents e' he' t' ht'
  | die l₁ l₂ t p hx =>
    refine ⟨hcount.trans (hS.die _ _ _ hx).ge, fun th hth => hthreads th ?_,
      fun e' he' t' ht' => ?_⟩
    · simp only [List.mem_append, List.mem_cons] at hth ⊢
      tauto
    · obtain rfl | he' := List.mem_cons.mp he'
      · cases ht'
        exact hthreads ⟨t, p⟩ (by simp)
      · exact hevents e' he' t' ht'

end Async

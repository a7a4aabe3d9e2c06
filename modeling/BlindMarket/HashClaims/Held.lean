import BlindMarket.HashClaims.Batches

/-!
# Who holds a claim

A claim that a request took stands for its poster until it expires or that
request releases it: a later request of the same poster that takes it over never
releases it, and no other request may.
-/
namespace HashClaims

open Async Prog Runs

variable {cfg : Config} {start s s' : State} {tr earlier later : List Ev} {e e' : Ev}
  {pool pool' : Pool Ans Code Answer Call State} {t t' : Call} {a : Answers Ans Code} {h : Hash}
  {poster : Address} {cl : Claim}

theorem backend_numbered : Numbered (backend cfg) Call.id State.calls where
  exec := by
    rintro t s c r s' ⟨x, hx⟩
    exact (respond_keeps hx).2
  start := by
    rintro tags s t p s' ⟨hid, -, rfl⟩
    exact ⟨hid, rfl⟩
  env _ _ hx := hx.keeps.2.2
  die := by
    rintro t s s' rfl
    rfl

theorem backend_move (hrun : PoolRun (backend cfg) ⟨start, []⟩ tr pool)
    (hs : Step (backend cfg) pool e pool') : Move (backend cfg) Asks Ends tr pool.state e pool'.state :=
  backend_numbered.move hrun hs fun _ _ _ _ _ hx => hx.2.1 ▸ told_prog

/-- A request claims a hash once, and lists once. -/
theorem backend_once (hrun : PoolRun (backend cfg) ⟨start, []⟩ tr pool) {c c' : Cmd}
    {r : Except Code (Ans c)} {r' : Except Code (Ans c')} (he : e ∈ tr) (he' : e' ∈ tr)
    (hlabel : e.label = .ran t c r) (hlabel' : e'.label = .ran t c' r') (hc : OnceFor h c)
    (hc' : OnceFor h c') : e = e' :=
  backend_numbered.once_unique (P := fun _ => OnceFor h) hrun
    (fun _ _ _ _ _ hx => hx.2.1 ▸ once_prog) he he' hlabel hlabel' hc hc'

/-! ## Takings -/

/-- The request's claim was written. -/
def Takes (e : Ev) (t : Call) (h : Hash) (poster : Address) : Prop :=
  (∃ r, e.label = .ran t (.claimTaskHash h poster t.id) r) ∧
    e.post.claims h = some (e.pre.newClaim poster t.id)

def ReleasedBy (tr : List Ev) (t : Call) (h : Hash) : Prop :=
  ∃ e ∈ tr, ∃ poster token r, e.label = .ran t (.releaseTaskHashClaim h poster token) r

/-- The request took over a claim of its poster, or had no answer. -/
def TookOver (tr : List Ev) (t : Call) (h : Hash) : Prop :=
  ∃ e ∈ tr, ∃ poster token r, e.label = .ran t (.claimTaskHash h poster token) r ∧
    ∀ v, r = .ok v → v.fresh = false

/-- The tokens of claims are those of requests so far. -/
def State.Drawn (s : State) : Prop :=
  ∀ h cl token, s.claims h = some cl → cl.token = some token → token < s.calls

/-- The claim the request took still stands, under its token or one that took it over. -/
def Stands (tr : List Ev) (s : State) (t : Call) (h : Hash) (poster : Address) (taken : Nat) : Prop :=
  ∃ cl, s.claims h = some cl ∧ cl.poster = poster ∧ taken + HASH_CLAIM_TTL_SECONDS ≤ cl.expires ∧
    ∃ t', cl.token = some t'.id ∧ (∃ e ∈ tr, e.label.tag? = some t') ∧ (t' = t ∨ TookOver tr t' h)

structure Inv (start : State) (tr : List Ev) (s : State) : Prop where
  past : ∀ e ∈ tr, e.pre.now ≤ s.now
  since : start.now ≤ s.now
  writer : ∀ h cl, s.claims h = some cl → start.claims h = some cl ∨
    ∃ e ∈ tr, ∃ t, Takes e t h cl.poster ∧ e.post.claims h = some cl
  held : ∀ e ∈ tr, ∀ t h poster, Takes e t h poster →
    e.pre.now + HASH_CLAIM_TTL_SECONDS ≤ s.now ∨ ReleasedBy tr t h ∨
      Stands tr s t h poster e.pre.now

theorem ReleasedBy.cons (hr : ReleasedBy tr t h) : ReleasedBy (e :: tr) t h :=
  hr.imp fun _ he => ⟨List.mem_cons_of_mem _ he.1, he.2⟩

theorem TookOver.cons (ht : TookOver tr t h) : TookOver (e :: tr) t h :=
  ht.imp fun _ he => ⟨List.mem_cons_of_mem _ he.1, he.2⟩

theorem Stands.cons {taken : Nat} (hst : Stands tr s t h poster taken)
    (hsame : s'.claims h = s.claims h) : Stands (e :: tr) s' t h poster taken := by
  obtain ⟨cl, hcl, hposter, hexp, t', htoken, ⟨e', he', htag⟩, hwho⟩ := hst
  exact ⟨cl, hsame.trans hcl, hposter, hexp, t', htoken, ⟨e', List.mem_cons_of_mem _ he', htag⟩,
    hwho.imp id TookOver.cons⟩

theorem takes_stands (ht : Takes e t h poster) : Stands (e :: tr) e.post t h poster e.pre.now := by
  obtain ⟨⟨r, hlabel⟩, hpost⟩ := ht
  exact ⟨_, hpost, rfl, le_rfl, t, rfl, ⟨e, List.mem_cons_self, by rw [hlabel]; rfl⟩, .inl rfl⟩

/-- A claim is dropped by the request that took it, never by one that took it over. -/
theorem drop_owner (hrun : PoolRun (backend cfg) ⟨start, []⟩ tr pool)
    (hs : Step (backend cfg) pool e pool') (htag : e.label.tag? = some t)
    (hknown : known tr t = some a) (htook : Took a h poster t.id true) {t' : Call}
    (hid : t.id = t'.id) (hevent : ∃ e ∈ tr, e.label.tag? = some t') {t₀ : Call}
    (hwho : t' = t₀ ∨ TookOver tr t' h) : t = t₀ := by
  obtain ⟨e', he', htag'⟩ := hevent
  obtain rfl : t = t' := backend_numbered.tag_unique (hrun.snoc hs) (List.mem_cons_of_mem _ he')
    List.mem_cons_self htag' htag hid
  obtain rfl | ⟨e₁, he₁, poster', token, r, hlabel₁, hstale⟩ := hwho
  · rfl
  · obtain ⟨v, hmem, -, hfresh⟩ := htook
    obtain ⟨e₂, he₂, hlabel₂⟩ := known_mem hknown hmem
    obtain rfl := backend_once (h := h) hrun he₁ he₂ hlabel₁ hlabel₂ rfl rfl
    rw [hlabel₁] at hlabel₂
    cases hlabel₂
    rw [hstale v rfl] at hfresh
    cases hfresh

/-- A step that leaves the claims. -/
theorem Inv.still (hinv : Inv start tr s) (hpre : e.pre = s) (hpost : e.post = s')
    (hclaims : s'.claims = s.claims) (hnow : s.now ≤ s'.now) : Inv start (e :: tr) s' where
  past e' he' := by
    obtain rfl | he' := List.mem_cons.mp he'
    · rw [hpre]
      exact hnow
    · exact (hinv.past e' he').trans hnow
  since := hinv.since.trans hnow
  writer h cl hcl := by
    rw [hclaims] at hcl
    exact (hinv.writer h cl hcl).imp id fun hw =>
      hw.imp fun _ he => ⟨List.mem_cons_of_mem _ he.1, he.2⟩
  held e' he' t h poster ht := by
    obtain rfl | he' := List.mem_cons.mp he'
    · exact .inr (.inr (hpost ▸ takes_stands ht))
    · obtain hexp | hrel | hst := hinv.held e' he' t h poster ht
      · exact .inl (hexp.trans hnow)
      · exact .inr (.inl hrel.cons)
      · exact .inr (.inr (hst.cons (congrFun hclaims h)))

theorem inv_run {start : State} (hrun : PoolRun (backend cfg) ⟨start, []⟩ tr pool) :
    Inv start tr pool.state := by
  refine Run.invariant (I := fun tr (pool : Pool Ans Code Answer Call State) =>
    Inv start tr pool.state) hrun
    ⟨fun _ he => (by cases he), le_rfl, fun _ _ => .inl, fun _ he => (by cases he)⟩ ?_
  intro tr b e c hpre hinv hs
  have hm := backend_move hpre hs
  generalize b.state = s at hm hinv
  generalize c.state = s' at hm ⊢
  cases hm with
  | ran t a cmd r hknown hasks hx =>
    obtain ⟨x, hx⟩ := hx
    have hnow := (respond_keeps hx).1
    cases respond_does hx with
    | still hclaims => exact hinv.still rfl rfl hclaims hnow.ge
    | take h poster token hfree hclaims =>
      obtain ⟨hposter, rfl⟩ := hasks
      have hnew : Takes ⟨.ran t (.claimTaskHash h poster t.id) r, s, s'⟩ t h poster :=
        ⟨⟨r, rfl⟩, by simp [hclaims]⟩
      refine ⟨fun e' he' => ?_, hinv.since.trans hnow.ge, fun h' cl hcl => ?_,
        fun e' he' t' h' poster' ht => ?_⟩
      · obtain rfl | he' := List.mem_cons.mp he'
        · exact hnow.ge
        · exact (hinv.past e' he').trans hnow.ge
      · by_cases heq : h' = h
        · subst heq
          rw [hclaims, Function.update_self] at hcl
          cases hcl
          exact .inr ⟨_, List.mem_cons_self, t, hnew, hnew.2⟩
        · rw [hclaims, Function.update_of_ne heq] at hcl
          exact (hinv.writer h' cl hcl).imp id fun hw =>
            hw.imp fun _ he => ⟨List.mem_cons_of_mem _ he.1, he.2⟩
      · obtain rfl | hold := List.mem_cons.mp he'
        · exact .inr (.inr (takes_stands ht))
        · obtain hexp | hrel | hst := hinv.held e' hold t' h' poster' ht
          · exact .inl (hexp.trans hnow.ge)
          · exact .inr (.inl hrel.cons)
          · by_cases heq : h' = h
            · -- The claim of the poster is taken over, or it had expired.
              subst heq
              obtain ⟨cl, hcl, rfl, hexp, -⟩ := hst
              by_cases halive : s.now < cl.expires
              · have hcl? := claim?_of_claims hcl halive
                refine .inr (.inr ⟨_, hnew.2, (hfree cl hcl?).symm, ?_, t, rfl,
                  ⟨_, List.mem_cons_self, rfl⟩,
                  .inr ⟨_, List.mem_cons_self, poster, t.id, r, rfl, fun v hv => ?_⟩⟩)
                · exact Nat.add_le_add_right (hinv.past e' hold) _
                · subst hv
                  exact stale_of_claim? hx hcl?
              · exact .inl (by omega)
            · refine .inr (.inr (hst.cons ?_))
              rw [hclaims, Function.update_of_ne heq]
    | drop h poster token cl hcl hposter htoken hclaims =>
      obtain ⟨-, rfl, htook⟩ := hasks
      refine ⟨fun e' he' => ?_, hinv.since.trans hnow.ge, fun h' cl' hcl' => ?_,
        fun e' he' t' h' poster' ht => ?_⟩
      · obtain rfl | he' := List.mem_cons.mp he'
        · exact hnow.ge
        · exact (hinv.past e' he').trans hnow.ge
      · by_cases heq : h' = h
        · subst heq
          rw [hclaims, Function.update_self] at hcl'
          cases hcl'
        · rw [hclaims, Function.update_of_ne heq] at hcl'
          exact (hinv.writer h' cl' hcl').imp id fun hw =>
            hw.imp fun _ he => ⟨List.mem_cons_of_mem _ he.1, he.2⟩
      · obtain rfl | hold := List.mem_cons.mp he'
        · exact .inr (.inr (takes_stands ht))
        · obtain hexp | hrel | hst := hinv.held e' hold t' h' poster' ht
          · exact .inl (hexp.trans hnow.ge)
          · exact .inr (.inl hrel.cons)
          · by_cases heq : h' = h
            · subst heq
              obtain ⟨cl', hcl', -, -, t'', htoken', hevent, hwho⟩ := hst
              obtain rfl : cl' = cl := by
                rw [(claim?_some hcl).1] at hcl'
                exact (Option.some.inj hcl').symm
              rw [htoken] at htoken'
              obtain rfl := drop_owner hpre hs rfl hknown htook (Option.some.inj htoken') hevent hwho
              exact .inr (.inl ⟨_, List.mem_cons_self, poster, t.id, r, rfl⟩)
            · refine .inr (.inr (hst.cons ?_))
              rw [hclaims, Function.update_of_ne heq]
  | started t p tags hfresh hx =>
    obtain ⟨-, -, hpost⟩ := hx
    exact hinv.still rfl rfl (by rw [hpost]) (by rw [hpost])
  | finished t a r ha hends => exact hinv.still rfl rfl rfl le_rfl
  | env hx => exact hinv.still rfl rfl hx.keeps.1 hx.keeps.2.1
  | died t a ha hx =>
    obtain rfl : s' = s := hx
    exact hinv.still rfl rfl rfl le_rfl

end HashClaims

import BlindMarket.HashClaims.Held

/-!
# A hash claim protects the poster who built on it

From the return of a transaction until the claim it rests on is 24 hours old,
no one releases the claim, no other poster gets a transaction for the hash, and
no other poster lists it. The last two need that a request returns before its
own claim is over, and that no claim is taken between the check of a listing
and its writing.
-/
namespace HashClaims

open Async Prog Runs

variable {cfg : Config} {start s s' : State} {tr earlier later : List Ev} {e e' : Ev}
  {pool pool' : Pool Ans Code Answer Call State} {t t' : Call} {a : Answers Ans Code} {h : Hash}
  {poster : Address} {tx : UnsignedTx}

/-! ## The claim -/

/-- A request of the poster has returned a transaction for the hash, and claimed it less than 24
hours ago. -/
def Protected (earlier : List Ev) (now : Nat) (h : Hash) (poster : Address) : Prop :=
  ∃ t tx, (∃ e ∈ earlier, e.label = .finished t (.ok (.built tx))) ∧ tx.sender = poster ∧
    h ∈ tx.call.taskHashes ∧ ∃ e ∈ earlier, Takes e t h poster ∧
      now < e.pre.now + HASH_CLAIM_TTL_SECONDS

/-- A release that drops a claim. -/
def Drops (e : Ev) (t : Call) (h : Hash) : Prop :=
  (∃ poster token r, e.label = .ran t (.releaseTaskHashClaim h poster token) r) ∧
    e.post.claims h ≠ e.pre.claims h

structure ProtectsPosters (tr : List Ev) : Prop where
  kept : ∀ later e earlier, tr = later ++ e :: earlier → ∀ h poster,
    Protected earlier e.pre.now h poster → ∀ t, ¬ Drops e t h
  alone : ∀ later e earlier, tr = later ++ e :: earlier → ∀ h poster,
    Protected earlier e.pre.now h poster → ∀ t tx, e.label = .finished t (.ok (.built tx)) →
      h ∈ tx.call.taskHashes → tx.sender = poster
  listed : ∀ later e earlier, tr = later ++ e :: earlier → ∀ h poster,
    Protected earlier e.pre.now h poster → ∀ t user data chain event listing r,
      t.op = .indexTask user data chain event → e.label = .ran t (.setMeta listing) r →
      listing.taskId = h → poster ∈ user.callerAddresses
  unbuilt : ∀ e ∈ tr, ∀ t code, e.label = .finished t (.error code) → ∀ e' ∈ tr, ∀ tx,
    e'.label ≠ .ran t (.buildUnsignedTx tx) (.ok ())
  own : ∀ later e earlier, tr = later ++ e :: earlier → ∀ t h, Drops e t h →
    ∃ e' ∈ earlier, ∃ poster, Takes e' t h poster ∧ e'.post.claims h = e.pre.claims h

/-- What the last two need. -/
structure Careful (earlier : List Ev) (e : Ev) : Prop where
  prompt : ∀ t tx, e.label = .finished t (.ok (.built tx)) → ∀ e' ∈ earlier, ∀ h poster,
    Takes e' t h poster → e.pre.now < e'.pre.now + HASH_CLAIM_TTL_SECONDS
  unraced : ∀ t h poster, Takes e t h poster → ∀ t' user data chain event a claimedBy,
    t'.op = .indexTask user data chain event → known earlier t' = some a →
    ⟨.getTaskHashClaim h, .ok claimedBy⟩ ∈ a → (∀ listing r, ⟨.setMeta listing, r⟩ ∉ a) →
    poster ∈ user.callerAddresses

/-! ## Requests that return -/

theorem backend_exec (hrun : PoolRun (backend cfg) ⟨start, []⟩ tr pool) (he : e ∈ tr) {c : Cmd}
    {r : Except Code (Ans c)} (hlabel : e.label = .ran t c r) :
    ∃ x, respond x e.pre c = (r, e.post) := by
  obtain ⟨later, earlier, b, b', rfl, hrun, hstep, -⟩ := Run.split_mem hrun he
  cases hstep with
  | run l₁ l₂ t' c' k r' hx =>
    cases hlabel
    exact hx
  | _ => cases hlabel

/-- The claim a request was answered to hold was written. -/
theorem took_takes (hrun : PoolRun (backend cfg) ⟨start, []⟩ tr pool) (hknown : known tr t = some a)
    {fresh : Bool} (htook : Took a h poster t.id fresh) : ∃ e ∈ tr, Takes e t h poster := by
  obtain ⟨v, hmem, hmine, -⟩ := htook
  obtain ⟨e, he, hlabel⟩ := known_mem hknown hmem
  obtain ⟨x, hx⟩ := backend_exec hrun he hlabel
  exact ⟨e, he, ⟨_, hlabel⟩, claimed_stands hx hmine⟩

/-- Its end shows what a request knew. -/
theorem finished_ends (hrun : PoolRun (backend cfg) ⟨start, []⟩ (later ++ e :: earlier) pool)
    {r : Except Code Answer} (hlabel : e.label = .finished t r) :
    ∃ a b, PoolRun (backend cfg) ⟨start, []⟩ earlier b ∧ b.state = e.pre ∧
      known earlier t = some a ∧ Ends t a r := by
  obtain ⟨b, b', hearlier, hstep, -⟩ := hrun.split
  have hm := backend_move hearlier hstep
  have hpre := hstep.states.1.symm
  generalize b.state = s at hm
  generalize b'.state = s' at hm
  cases hm with
  | finished t' a r' hknown hends =>
    cases hlabel
    exact ⟨a, b, hearlier, hpre, hknown, hends⟩
  | _ => cases hlabel

theorem returned_unreleased (hrun : PoolRun (backend cfg) ⟨start, []⟩ tr pool) (he : e ∈ tr)
    (hlabel : e.label = .finished t (.ok (.built tx))) : ¬ ReleasedBy tr t h := by
  rintro ⟨e', he', poster, token, r, hrelease⟩
  obtain ⟨later, earlier, rfl⟩ := List.append_of_mem he
  obtain ⟨a, b, hrun', -, hknown, -, hnone⟩ := finished_ends hrun hlabel
  obtain he' | he' := List.mem_append.mp he'
  · exact backend_numbered.finished_last hrun hlabel he' _ _ hrelease
  · obtain rfl | he' := List.mem_cons.mp he'
    · rw [hlabel] at hrelease
      cases hrelease
    · exact hnone _ _ _ _ (backend_numbered.known_all hrun' hknown he' hrelease)

/-- A request that returned claimed its hashes, each of which stands while its claim is young. -/
theorem returned_took (hrun : PoolRun (backend cfg) ⟨start, []⟩ (later ++ e :: earlier) pool)
    (hlabel : e.label = .finished t (.ok (.built tx))) (hh : h ∈ tx.call.taskHashes) :
    ∃ e' ∈ earlier, Takes e' t h tx.sender := by
  obtain ⟨a, b, hrun', -, hknown, ⟨-, hbuilt⟩, -⟩ := finished_ends hrun hlabel
  obtain ⟨fresh, htook⟩ := hbuilt h hh
  exact took_takes hrun' hknown htook

/-! ## The claim stands -/

theorem stands_of_takes (hinv : Inv start tr s) (he : e ∈ tr) (htakes : Takes e t h poster)
    (hyoung : s.now < e.pre.now + HASH_CLAIM_TTL_SECONDS) (hkept : ¬ ReleasedBy tr t h) :
    ∃ cl, s.claim? h = some cl ∧ cl.poster = poster := by
  obtain hexp | hrel | ⟨cl, hcl, hposter, hexp, -⟩ := hinv.held e he t h poster htakes
  · omega
  · exact absurd hrel hkept
  · exact ⟨cl, claim?_of_claims hcl (by omega), hposter⟩

/-- While a poster is protected, the claim is theirs. -/
theorem protected_claim (hrun : PoolRun (backend cfg) ⟨start, []⟩ tr pool)
    (hp : Protected tr pool.state.now h poster) :
    ∃ cl, pool.state.claim? h = some cl ∧ cl.poster = poster := by
  obtain ⟨t, tx, ⟨e, he, hlabel⟩, -, -, e', he', htakes, hyoung⟩ := hp
  exact stands_of_takes (inv_run hrun) he' htakes hyoung (returned_unreleased hrun he hlabel)

/-- It is so just before a step as well as just after it. -/
theorem protected_kept (hrun : PoolRun (backend cfg) ⟨start, []⟩ (later ++ e :: earlier) pool)
    (hp : Protected earlier e.pre.now h poster) : ¬ Drops e t h := by
  rintro ⟨⟨poster', token, r, hlabel⟩, hne⟩
  obtain ⟨b, b', hbefore, hstep, -⟩ := hrun.split
  obtain ⟨hpre, hpost⟩ := hstep.states
  obtain ⟨x, hx⟩ := backend_exec (hbefore.snoc hstep) List.mem_cons_self hlabel
  have hnow := (respond_keeps hx).1
  obtain ⟨t', tx, ⟨e₁, he₁, hlabel₁⟩, -, -, e₂, he₂, htakes, hyoung⟩ := hp
  obtain ⟨cl, hcl, -⟩ := stands_of_takes (inv_run (hbefore.snoc hstep)) (List.mem_cons_of_mem _ he₂)
    htakes (by rw [← hpost, hnow]; exact hyoung)
    (returned_unreleased (hbefore.snoc hstep) (List.mem_cons_of_mem _ he₁) hlabel₁)
  rw [← hpost] at hcl
  cases respond_does hx with
  | still hclaims => exact hne (congrFun hclaims h)
  | drop _ _ _ cl' hcl' hposter htoken hclaims =>
    have hstands := (claim?_some hcl).1
    rw [hclaims, Function.update_self] at hstands
    cases hstands

/-! ## Other posters -/

theorem protected_alone (hrun : PoolRun (backend cfg) ⟨start, []⟩ (later ++ e :: earlier) pool)
    (hcareful : Careful earlier e) (hp : Protected earlier e.pre.now h poster)
    (hlabel : e.label = .finished t (.ok (.built tx))) (hh : h ∈ tx.call.taskHashes) :
    tx.sender = poster := by
  obtain ⟨b, b', hbefore, hstep, -⟩ := hrun.split
  obtain ⟨hpre, hpost⟩ := hstep.states
  obtain ⟨e', he', htakes⟩ := returned_took hrun hlabel hh
  have hyoung := hcareful.prompt t tx hlabel e' he' h tx.sender htakes
  rw [hpre] at hp hyoung
  have hkept : ¬ ReleasedBy earlier t h := fun hrel =>
    returned_unreleased (hbefore.snoc hstep) List.mem_cons_self hlabel hrel.cons
  obtain ⟨cl, hcl, hposter⟩ := stands_of_takes (inv_run hbefore) he' htakes hyoung hkept
  obtain ⟨cl', hcl', hposter'⟩ := protected_claim hbefore hp
  rw [hcl] at hcl'
  cases hcl'
  exact hposter.symm.trans hposter'

theorem protected_listed (hrun : PoolRun (backend cfg) ⟨start, []⟩ (later ++ e :: earlier) pool)
    (hcareful : Throughout Careful earlier) (hp : Protected earlier e.pre.now h poster)
    {user : AuthUser} {data : IndexTaskTerms} {chain : TaskChain} {event : TaskCreatedEvent}
    {listing : A2ATaskMeta} {r : Except Code Unit} (hop : t.op = .indexTask user data chain event)
    (hlabel : e.label = .ran t (.setMeta listing) r) (hid : listing.taskId = h) :
    poster ∈ user.callerAddresses := by
  subst hid
  obtain ⟨b, b', hbefore, hstep, -⟩ := hrun.split
  have hsnoc := hbefore.snoc hstep
  have hprestate := hstep.states.1
  obtain ⟨a, hknown, hasks⟩ : ∃ a, known earlier t = some a ∧ Asks t a (.setMeta listing) := by
    have hm := backend_move hbefore hstep
    generalize b.state = s at hm
    generalize b'.state = s' at hm
    cases hm with
    | ran t' a c r' hknown hasks hx =>
      cases hlabel
      exact ⟨a, hknown, hasks⟩
    | _ => cases hlabel
  obtain ⟨user', data', chain', event', claimedBy, hop', hread, hcallers⟩ := hasks
  rw [hop] at hop'
  cases hop'
  obtain ⟨t', tx, ⟨e₁, he₁, hlabel₁⟩, rfl, -, e₂, he₂, htakes, hyoung⟩ := hp
  obtain ⟨e₃, he₃, hlabel₃⟩ := known_mem hknown hread
  have hset : ∀ e₄ ∈ earlier, ∀ listing' r', e₄.label ≠ .ran t (.setMeta listing') r' :=
    fun e₄ he₄ listing' r' hlabel₄ => once_of_run (P := fun _ => OnceFor listing.taskId)
      backend_numbered (show PoolRun _ _ ([] ++ e :: earlier) _ from hsnoc)
      (fun _ _ _ _ _ hx => hx.2.1 ▸ once_prog) hlabel he₄ hlabel₄ trivial trivial
  obtain ⟨mid, first, rfl⟩ := List.append_of_mem he₃
  obtain he₂ | he₂ := List.mem_append.mp he₂
  · -- The claim came after the check, which the condition rules out.
    obtain ⟨mid₁, mid₂, rfl⟩ := List.append_of_mem he₂
    have hsplit : (mid₁ ++ e₂ :: mid₂) ++ e₃ :: first = (mid₁ ++ [e₂]) ++ (mid₂ ++ e₃ :: first) := by
      simp
    rw [hsplit] at hbefore hknown hset hcareful
    obtain ⟨a₂, hknown₂⟩ := backend_numbered.known_since hbefore hknown (e := e₃) (by simp)
      (by rw [hlabel₃]; rfl)
    obtain ⟨b₂, hrun₂, -⟩ := hbefore.cut
    refine (hcareful mid₁ e₂ (mid₂ ++ e₃ :: first) (by simp)).unraced t' listing.taskId tx.sender
      htakes t user data chain event a₂ claimedBy hop hknown₂
      (backend_numbered.known_all hrun₂ hknown₂ (by simp) hlabel₃) fun listing' r' hmem => ?_
    obtain ⟨e₄, he₄, hlabel₄⟩ := known_mem hknown₂ hmem
    exact hset e₄ (List.mem_append_right _ he₄) listing' r' hlabel₄
  · obtain rfl | he₂ := List.mem_cons.mp he₂
    · obtain ⟨⟨r', hlabel₂⟩, -⟩ := htakes
      rw [hlabel₃] at hlabel₂
      cases hlabel₂
    · -- The claim stood at the check.
      obtain ⟨b₃, b₃', hrun₃, hstep₃, -⟩ := hbefore.split
      obtain ⟨x, hx⟩ := backend_exec hbefore (by simp) hlabel₃
      have hpast := (inv_run hbefore).past e₃ (by simp)
      have hkept : ¬ ReleasedBy first t' listing.taskId := fun hrel =>
        returned_unreleased hbefore he₁ hlabel₁ (hrel.imp fun _ he =>
          ⟨List.mem_append_right _ (List.mem_cons_of_mem _ he.1), he.2⟩)
      obtain ⟨cl, hcl, hposter⟩ := stands_of_takes (inv_run hrun₃) he₂ htakes
        (by rw [← hstep₃.states.1]; rw [hprestate] at hyoung; omega) hkept
      rw [← hstep₃.states.1] at hcl
      have hread := claim_read hx
      rw [hcl, Option.map_some, hposter] at hread
      exact hcallers tx.sender hread

/-! ## The claim of the poster -/

theorem failed_unbuilt (hrun : PoolRun (backend cfg) ⟨start, []⟩ tr pool) (he : e ∈ tr) {code : Code}
    (hlabel : e.label = .finished t (.error code)) (he' : e' ∈ tr) :
    e'.label ≠ .ran t (.buildUnsignedTx tx) (.ok ()) := by
  intro hbuild
  obtain ⟨later, earlier, rfl⟩ := List.append_of_mem he
  obtain ⟨a, b, hrun', -, hknown, hnone, -⟩ := finished_ends hrun hlabel
  obtain he' | he' := List.mem_append.mp he'
  · exact backend_numbered.finished_last hrun hlabel he' _ _ hbuild
  · obtain rfl | he' := List.mem_cons.mp he'
    · rw [hlabel] at hbuild
      cases hbuild
    · exact hnone tx (backend_numbered.known_all hrun' hknown he' hbuild)

/-- A release drops what its own request wrote. -/
theorem drops_own (hrun : PoolRun (backend cfg) ⟨start, []⟩ (later ++ e :: earlier) pool)
    (hdrawn : start.Drawn) (hdrops : Drops e t h) :
    ∃ e' ∈ earlier, ∃ poster, Takes e' t h poster ∧ e'.post.claims h = e.pre.claims h := by
  obtain ⟨⟨poster, token, r, hlabel⟩, hne⟩ := hdrops
  obtain ⟨b, b', hbefore, hstep, -⟩ := hrun.split
  have hsnoc := hbefore.snoc hstep
  obtain ⟨hpre, -⟩ := hstep.states
  obtain ⟨x, hx⟩ := backend_exec hsnoc List.mem_cons_self hlabel
  have htoken : token = t.id := by
    have hm := backend_move hbefore hstep
    generalize b.state = s at hm
    generalize b'.state = s' at hm
    cases hm with
    | ran t' a c r' hknown hasks hx' =>
      cases hlabel
      exact hasks.2.1
    | _ => cases hlabel
  subst htoken
  cases respond_does hx with
  | still hclaims => exact absurd (congrFun hclaims h) hne
  | drop _ _ _ cl hcl hposter htoken hclaims =>
    have hcl := (claim?_some hcl).1
    obtain hold | ⟨e', he', t', htakes, hpost⟩ := (inv_run hbefore).writer h cl (hpre ▸ hcl)
    · have hlt := hdrawn h cl t.id hold htoken
      have hge : start.calls ≤ t.id :=
        backend_numbered.num_from hsnoc List.mem_cons_self (by rw [hlabel]; rfl)
      omega
    · have hid : t'.id = t.id := by
        have hnew := htakes.2
        rw [hpost] at hnew
        rw [Option.some.inj hnew] at htoken
        exact Option.some.inj htoken
      obtain ⟨⟨r', hlabel'⟩, -⟩ := id htakes
      obtain rfl : t' = t := backend_numbered.tag_unique hsnoc
        (List.mem_cons_self (a := e)) (List.mem_cons_of_mem e he') (by rw [hlabel]; rfl) (by rw [hlabel']; rfl)
        hid
      exact ⟨e', he', cl.poster, htakes, by rw [hpost, hcl]⟩

/-- In a run whose steps are careful, a hash claim protects the poster who built on it. -/
theorem claims_protect (hrun : PoolRun (backend cfg) ⟨start, []⟩ tr pool) (hdrawn : start.Drawn)
    (hcareful : Throughout Careful tr) : ProtectsPosters tr where
  kept := by
    rintro later e earlier rfl h poster hp t
    exact protected_kept hrun hp
  alone := by
    rintro later e earlier rfl h poster hp t tx hlabel hh
    exact protected_alone hrun (hcareful later e earlier rfl) hp hlabel hh
  listed := by
    rintro later e earlier rfl h poster hp t user data chain event listing r hop hlabel hid
    refine protected_listed hrun (fun later' e' earlier' heq => ?_) hp hop hlabel hid
    exact hcareful (later ++ e :: later') e' earlier' (by simp [heq])
  unbuilt e he t code hlabel e' he' tx := failed_unbuilt hrun he hlabel he'
  own := by
    rintro later e earlier rfl t h hdrops
    exact drops_own hrun hdrawn hdrops

/-! ## A listing that checked too early -/

def posting : Call := ⟨1, .createTask 1
  (some { taskHash := 5, amount := some 10, duration := some 7200, token := 7 })⟩

/-- Someone else's escrow of the same hash. -/
def indexing : Call := ⟨0, .indexTask { address := 2 } { taskHash := 5 } .arc
  { taskId := 3, taskHash := 5, agent := 2, amount := 10, token := 7 }⟩

abbrev Cues := List (Cue Call Turn Env)

/-- Up to the check of the claim, which finds none; then the poster claims the hash and gets a
transaction; and the listing is written. -/
def checkedEarly : List (Cue Call Turn Env) :=
  ([.enter indexing, .turn 0 {}, .turn 0 {}, .turn 0 {}, .enter posting] : Cues) ++
    (List.replicate 7 (.turn 0 {}) : Cues) ++ ([.leave 0, .turn 0 {}, .turn 0 {}] : Cues)

theorem checkedEarly_plays : ((stage demoConfig).play checkedEarly ⟨{}, []⟩).isSome = true := by
  decide

def returnsPosting (e : Ev) : Bool :=
  match e.label with
  | .finished t (.ok (.built tx)) =>
    decide (t = posting ∧ tx.sender = 1 ∧ 5 ∈ tx.call.taskHashes)
  | _ => false

def takesPosting (now : Nat) (e : Ev) : Bool :=
  match e.label with
  | .ran t (.claimTaskHash h poster token) _ =>
    decide (t = posting ∧ h = 5 ∧ poster = 1 ∧ token = posting.id ∧
      e.post.claims 5 = some (e.pre.newClaim 1 posting.id) ∧
      now < e.pre.now + HASH_CLAIM_TTL_SECONDS)
  | _ => false

/-- The last step lists the hash for another poster. -/
def listsOver : List Ev → Bool
  | [] => false
  | e :: earlier =>
    (match e.label with
      | .ran t (.setMeta m) _ => decide (t = indexing ∧ m.taskId = 5)
      | _ => false) &&
    earlier.any returnsPosting && earlier.any (takesPosting e.pre.now)

theorem listsOver_unprotected (htest : listsOver tr = true) : ¬ ProtectsPosters tr := by
  intro hprotects
  cases tr with
  | nil => cases htest
  | cons e earlier =>
    simp only [listsOver, Bool.and_eq_true, List.any_eq_true] at htest
    obtain ⟨⟨hlists, e₁, he₁, hreturns⟩, e₂, he₂, htakes⟩ := htest
    have hp : Protected earlier e.pre.now 5 1 := by
      simp only [returnsPosting] at hreturns
      split at hreturns
      · next t tx hlabel =>
        simp only [decide_eq_true_eq] at hreturns
        obtain ⟨rfl, hsender, hh⟩ := hreturns
        refine ⟨posting, tx, ⟨e₁, he₁, hlabel⟩, hsender, hh, e₂, he₂, ?_⟩
        simp only [takesPosting] at htakes
        split at htakes
        · next t' h poster token r hlabel' =>
          simp only [decide_eq_true_eq] at htakes
          obtain ⟨rfl, rfl, rfl, rfl, hpost, hyoung⟩ := htakes
          exact ⟨⟨⟨_, hlabel'⟩, hpost⟩, hyoung⟩
        · cases htakes
      · cases hreturns
    split at hlists
    · next t m r hlabel =>
      simp only [decide_eq_true_eq] at hlists
      obtain ⟨rfl, hid⟩ := hlists
      have hcaller := hprotects.listed [] e earlier rfl 5 1 hp indexing _ _ _ _ m r rfl hlabel hid
      revert hcaller
      decide
    · cases hlists

theorem checkedEarly_lists : listsOver (((stage demoConfig).play checkedEarly ⟨{}, []⟩).get
    checkedEarly_plays).1 = true := by decide

/-- A listing whose check came before the claim is written after the poster has the transaction. -/
theorem claims_protect_fails : ∃ tr pool, PoolRun (backend demoConfig) ⟨{}, []⟩ tr pool ∧
    ¬ ProtectsPosters tr :=
  ⟨_, _, Stage.play_get checkedEarly_plays, listsOver_unprotected checkedEarly_lists⟩

/-- A test of the condition. -/
def careful (earlier : List Ev) (e : Ev) : Bool :=
  match e.label with
  | .finished _ (.ok (.built _)) =>
    earlier.all fun e' => decide (e.pre.now < e'.pre.now + HASH_CLAIM_TTL_SECONDS)
  | .ran _ (.claimTaskHash _ _ _) _ =>
    earlier.all fun e' =>
      match e'.label with
      | .ran ⟨_, .indexTask _ _ _ _⟩ (.getTaskHashClaim _) _ => false
      | _ => true
  | _ => true

theorem careful_careful (htest : careful earlier e = true) : Careful earlier e where
  prompt t tx hlabel e' he' h poster _ := by
    simp only [careful, hlabel, List.all_eq_true, decide_eq_true_eq] at htest
    exact htest e' he'
  unraced t h poster htakes t' user data chain event a claimedBy hop hknown hread _ := by
    obtain ⟨⟨r, hlabel⟩, -⟩ := htakes
    obtain ⟨e', he', hlabel'⟩ := known_mem hknown hread
    obtain ⟨id, op⟩ := t'
    obtain rfl : op = .indexTask user data chain event := hop
    simp only [careful, hlabel, List.all_eq_true] at htest
    have hat := htest e' he'
    simp [hlabel'] at hat

def posting₀ : Call := ⟨0, posting.op⟩
def indexing₁ : Call := ⟨1, indexing.op⟩

/-- The listing checks after the claim, and is refused. -/
def checkedLate : List (Cue Call Turn Env) :=
  ([.enter posting₀] : Cues) ++ (List.replicate 7 (.turn 0 {}) : Cues) ++
    ([.leave 0, .enter indexing₁, .turn 0 {}, .turn 0 {}, .turn 0 {}, .leave 0] : Cues)

theorem checkedLate_plays : ((stage demoConfig).play checkedLate ⟨{}, []⟩).isSome = true := by decide

theorem checkedLate_careful : everywhere careful (((stage demoConfig).play checkedLate ⟨{}, []⟩).get
    checkedLate_plays).1 = true := by decide

theorem claims_protect_checkedLate : ProtectsPosters
    (((stage demoConfig).play checkedLate ⟨{}, []⟩).get checkedLate_plays).1 :=
  claims_protect (Stage.play_get checkedLate_plays)
    (fun _ _ _ hcl => by cases hcl)
    (throughout_of_everywhere (fun _ _ => careful_careful) checkedLate_careful)

end HashClaims

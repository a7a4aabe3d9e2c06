import BlindMarket.HashClaims.Claims

/-!
# What a request has been told before it acts

A request claims under its own token, releases what it took fresh, and lists
what it saw no one else claim. One that has built its transaction does not fail,
and a batch that fails has released every claim it knows it took.
-/
namespace HashClaims

open Async Prog Runs

variable {cfg : Config} {t : Call} {a a' : Answers Ans Code} {α β : Type} {poster : Address}
  {h : Hash}

/-! ## Grounds -/

def Call.poster? (t : Call) : Option Address :=
  match t.op with
  | .createTask poster _ => some poster
  | .createTasks poster _ => some poster
  | .indexTask _ _ _ _ => none

/-- The claim was taken, and answered so. -/
def Took (a : Answers Ans Code) (h : Hash) (poster : Address) (token : Nat) (fresh : Bool) : Prop :=
  ∃ v, ⟨.claimTaskHash h poster token, .ok v⟩ ∈ a ∧ v.mine = true ∧ v.fresh = fresh

def Asks (t : Call) (a : Answers Ans Code) : Cmd → Prop
  | .claimTaskHash _ poster token => t.poster? = some poster ∧ token = t.id
  | .releaseTaskHashClaim h poster token =>
    t.poster? = some poster ∧ token = t.id ∧ Took a h poster token true
  | .setMeta listing => ∃ user data chain event claimedBy,
    t.op = .indexTask user data chain event ∧
    (⟨.getTaskHashClaim listing.taskId, .ok claimedBy⟩ : (c : Cmd) × Except Code (Ans c)) ∈ a ∧
    ∀ holder ∈ claimedBy, holder ∈ user.callerAddresses
  | _ => True

/-- The transaction spends on hashes its sender claimed. -/
def Built (t : Call) (a : Answers Ans Code) (tx : UnsignedTx) : Prop :=
  t.poster? = some tx.sender ∧ ∀ h ∈ tx.call.taskHashes, ∃ fresh, Took a h tx.sender t.id fresh

def NoRelease (a : Answers Ans Code) : Prop :=
  ∀ h poster token r, ⟨.releaseTaskHashClaim h poster token, r⟩ ∉ a

def NoBuild (a : Answers Ans Code) : Prop := ∀ tx, ⟨.buildUnsignedTx tx, .ok ()⟩ ∉ a

/-- What it knows it took fresh, it has tried to release. -/
def AllReleased (t : Call) (a : Answers Ans Code) : Prop :=
  ∀ h poster, Took a h poster t.id true → ∃ r, ⟨.releaseTaskHashClaim h poster t.id, r⟩ ∈ a

def Ends (t : Call) (a : Answers Ans Code) : Except Code Answer → Prop
  | .ok (.built tx) => Built t a tx ∧ NoRelease a
  | .ok (.indexed _ _) => True
  | .error _ => NoBuild a ∧ ∀ poster body, t.op = .createTasks poster body → AllReleased t a

theorem asks_lasting : Lasting (Asks t) := by
  intro a a' c hsub hasks
  cases c with
  | releaseTaskHashClaim h poster token =>
    obtain ⟨hposter, htoken, v, hv, hmine⟩ := hasks
    exact ⟨hposter, htoken, v, hsub hv, hmine⟩
  | setMeta listing =>
    obtain ⟨user, data, chain, event, claimedBy, hop, hread, hcallers⟩ := hasks
    exact ⟨user, data, chain, event, claimedBy, hop, hsub hread, hcallers⟩
  | _ => exact hasks

/-! ## Commands that leave no trace -/

/-- Neither a claim, a release, a listing nor a build. -/
def Cmd.Plain : Cmd → Prop
  | .claimTaskHash _ _ _ | .releaseTaskHashClaim _ _ _ | .setMeta _ | .buildUnsignedTx _ => False
  | _ => True

theorem Cmd.Plain.asks {c : Cmd} (h : c.Plain) : Asks t a c := by
  cases c <;> first | exact trivial | exact h.elim

/-- Nothing but plain commands came on top. -/
structure Adds (a a' : Answers Ans Code) : Prop where
  keeps : a ⊆ a'
  plain : ∀ x ∈ a', x ∈ a ∨ x.1.Plain

theorem Adds.refl (a : Answers Ans Code) : Adds a a := ⟨List.Subset.refl a, fun _ => .inl⟩

theorem Adds.cons {c : Cmd} {r : Except Code (Ans c)} (h : Adds a a') (hc : c.Plain) :
    Adds a (⟨c, r⟩ :: a') where
  keeps := List.Subset.trans h.keeps (List.subset_cons_self _ _)
  plain x hx := by
    obtain rfl | hx := List.mem_cons.mp hx
    · exact .inr hc
    · exact h.plain x hx

theorem told_plain {p : Backend α} (hp : p.Issues Cmd.Plain) :
    p.Told (Asks t) (fun a' _ => Adds a a') a :=
  hp.told (I := fun a' => Adds a a') (.refl a) (fun _ _ _ hadds hc => hadds.cons hc)
    fun _ _ _ hc => hc.asks

theorem told_plain_bind {p : Backend α} {k : α → Backend β}
    {Q : Answers Ans Code → Except Code β → Prop} (hp : p.Issues Cmd.Plain)
    (hk : ∀ v a', Adds a a' → (k v).Told (Asks t) Q a')
    (he : ∀ e a', Adds a a' → Q a' (.error e)) : (p >>= k).Told (Asks t) Q a :=
  Told.bind (told_plain hp) (fun a' v _ hadds => hk v a' hadds) fun a' e _ hadds => he e a' hadds

/-- Nothing but plain commands. -/
def Quiet (a : Answers Ans Code) : Prop := ∀ x ∈ a, x.1.Plain

theorem Adds.quiet (h : Adds a a') (hquiet : Quiet a) : Quiet a' := fun x hx =>
  (h.plain x hx).elim (hquiet x) id

theorem Quiet.noRelease (hquiet : Quiet a) : NoRelease a := fun _ _ _ _ hmem => hquiet _ hmem

theorem Quiet.noBuild (hquiet : Quiet a) : NoBuild a := fun _ hmem => hquiet _ hmem

theorem Quiet.allReleased (hquiet : Quiet a) : AllReleased t a := fun _ _ ⟨_, hmem, _⟩ =>
  (hquiet _ hmem).elim

theorem Quiet.ends {e : Code} (hquiet : Quiet a) : Ends t a (.error e) :=
  ⟨hquiet.noBuild, fun _ _ _ => hquiet.allReleased⟩

theorem quiet_bind {p : Backend α} {k : α → Backend Answer} (hquiet : Quiet a)
    (hp : p.Issues Cmd.Plain) (hk : ∀ v a', Quiet a' → (k v).Told (Asks t) (Ends t) a') :
    (p >>= k).Told (Asks t) (Ends t) a :=
  told_plain_bind hp (fun v a' hadds => hk v a' (hadds.quiet hquiet))
    fun _ _ hadds => (hadds.quiet hquiet).ends

theorem quiet_throw {e : Code} (hquiet : Quiet a) :
    (throw e : Backend Answer).Told (Asks t) (Ends t) a := hquiet.ends

/-! ## Checks -/

theorem issues_refuseUnapprovedDelegation :
    (refuseUnapprovedDelegation poster).Issues Cmd.Plain := by
  refine (issues_call trivial).bind fun approved => ?_
  split <;> trivial

theorem issues_refuseHashInUse : (refuseHashInUse h).Issues Cmd.Plain := by
  refine Issues.bind (Issues.par (issues_call trivial) (issues_call trivial).attempt trivial)
    fun v => ?_
  obtain ⟨listed, escrowed⟩ := v
  dsimp only
  split <;> trivial

theorem issues_refuseUnusableVerifier {data : TaskTerms} {chain : TaskChain} :
    (refuseUnusableVerifier data chain).Issues Cmd.Plain := by
  unfold refuseUnusableVerifier
  split
  · trivial
  · refine (issues_call trivial).bind fun unsupported => ?_
    split
    · trivial
    · refine (issues_call trivial).bind fun notOptedIn => ?_
      split <;> trivial

theorem issues_recordPendingLock {token : Address} {chain : TaskChain} :
    (recordPendingLock token chain).Issues Cmd.Plain :=
  (issues_call trivial).attempt.bind fun _ => trivial

theorem issues_refuseUnsupportedOpen {chain : TaskChain} {terms : Option OpenTerms} :
    (refuseUnsupportedOpen chain terms).Issues Cmd.Plain := by
  cases terms with
  | none => trivial
  | some terms =>
    refine (issues_call trivial).bind fun supported => ?_
    split
    · trivial
    · split
      · trivial
      · refine (issues_call trivial).bind fun signer => ?_
        split <;> trivial

theorem issues_readRow {chain : TaskChain} {row : Checked} :
    (readRow poster chain row).Issues Cmd.Plain := by
  refine issues_refuseHashInUse.bind fun _ => (issues_call trivial).bind fun claimedBy => ?_
  split
  · trivial
  · exact issues_refuseUnusableVerifier

/-! ## Claims -/

/-- What a claim leaves of what was known. -/
structure Claiming (t : Call) (poster : Address) (h : Hash) (a a' : Answers Ans Code)
    (r : Except Code Bool) : Prop where
  keeps : a ⊆ a'
  took : ∀ fresh, r = .ok fresh → Took a' h poster t.id fresh
  only : ∀ x ∈ a', x ∈ a ∨ x.1.Plain ∨ ∃ r', x = ⟨.claimTaskHash h poster t.id, r'⟩ ∧
    ∀ v, r' = .ok v → v.mine = true → r = .ok v.fresh

theorem told_claimNewTaskHash (hposter : t.poster? = some poster) :
    (claimNewTaskHash h poster t.id).Told (Asks t) (Claiming t poster h a) a := by
  refine told_plain_bind issues_refuseHashInUse (fun _ a' hadds => ?_) fun e a' hadds => ?_
  · refine ⟨⟨hposter, rfl⟩, fun r => ?_⟩
    have honly : ∀ r' : Except Code Bool, (∀ v, r = .ok v → v.mine = true → r' = .ok v.fresh) →
        ∀ x ∈ (⟨.claimTaskHash h poster t.id, r⟩ :: a' : Answers Ans Code), x ∈ a ∨ x.1.Plain ∨
        ∃ r, x = ⟨.claimTaskHash h poster t.id, r⟩ ∧
        ∀ v, r = .ok v → v.mine = true → r' = .ok v.fresh := by
      intro r' hr' x hx
      obtain rfl | hx := List.mem_cons.mp hx
      · exact .inr (.inr ⟨r, rfl, hr'⟩)
      · exact (hadds.plain x hx).imp id .inl
    have hkeeps := List.Subset.trans hadds.keeps
      (List.subset_cons_self ⟨.claimTaskHash h poster t.id, r⟩ a')
    cases r with
    | error e => exact ⟨hkeeps, fun _ heq => (by cases heq), honly _ fun _ heq => by cases heq⟩
    | ok v =>
      show Told _ _ _ (if v.mine = false then throw Code.taskHashTaken else pure v.fresh)
      split
      · next hmine =>
        refine ⟨hkeeps, fun _ heq => (by cases heq), honly _ fun v' heq hmine' => ?_⟩
        cases heq
        rw [hmine] at hmine'
        cases hmine'
      · next hmine =>
        refine ⟨hkeeps, fun fresh heq => ?_, honly _ fun v' heq _ => ?_⟩
        · cases heq
          exact ⟨v, List.mem_cons_self, by simpa using hmine, rfl⟩
        · cases heq
          rfl
  · exact ⟨hadds.keeps, fun _ heq => (by cases heq), fun x hx => (hadds.plain x hx).imp id .inl⟩

/-! ## Posting one task -/

theorem Adds.noRelease (hadds : Adds a a') (hnone : NoRelease a) : NoRelease a' :=
  fun h poster token r hmem => (hadds.plain _ hmem).elim (hnone h poster token r) id

theorem Adds.noBuild (hadds : Adds a a') (hnone : NoBuild a) : NoBuild a' :=
  fun tx hmem => (hadds.plain _ hmem).elim (hnone tx) id

theorem Took.mono {token : Nat} {fresh : Bool} (hsub : a ⊆ a') (htook : Took a h poster token fresh) :
    Took a' h poster token fresh := htook.imp fun _ hv => ⟨hsub hv.1, hv.2⟩

/-- What a build leaves of what was known. -/
structure Building (t : Call) (a a' : Answers Ans Code) (r : Except Code Answer) : Prop where
  keeps : a ⊆ a'
  only : ∀ x ∈ a', x ∈ a ∨ x.1.Plain ∨ ∃ tx r', x = ⟨.buildUnsignedTx tx, r'⟩
  built : ∀ v, r = .ok v → ∃ tx, v = .built tx ∧ Built t a' tx
  failed : ∀ e, r = .error e → NoBuild a → NoBuild a'

theorem Building.noRelease {r : Except Code Answer} (hb : Building t a a' r) (hnone : NoRelease a) :
    NoRelease a' := by
  intro h poster token r' hmem
  obtain hmem | hplain | ⟨tx, r'', heq⟩ := hb.only _ hmem
  · exact hnone h poster token r' hmem
  · exact hplain
  · cases heq

theorem building_error {e : Code} (hadds : Adds a a') : Building t a a' (.error e) where
  keeps := hadds.keeps
  only x hx := (hadds.plain x hx).imp id .inl
  built v heq := by cases heq
  failed _ _ hnone := hadds.noBuild hnone

/-- The build itself, and accounting that never fails. -/
theorem told_build {tx : UnsignedTx} {p : Backend α} (hbuilt : Built t a tx)
    (hp : p.Issues Cmd.Plain) (hends : p.Ends fun r => ∃ v, r = .ok v) :
    (do
      call (Cmd.buildUnsignedTx tx)
      let _ ← p
      return Answer.built tx : Backend Answer).Told (Asks t) (Building t a) a := by
  refine ⟨trivial, fun r => ?_⟩
  cases r with
  | error e =>
    refine ⟨List.subset_cons_self _ _, fun x hx => ?_, fun v heq => (by cases heq),
      fun _ _ hnone tx' hmem => ?_⟩
    · obtain rfl | hx := List.mem_cons.mp hx
      · exact .inr (.inr ⟨tx, .error e, rfl⟩)
      · exact .inl hx
    · obtain heq | hmem := List.mem_cons.mp hmem
      · cases heq
      · exact hnone tx' hmem
  | ok v =>
    refine Told.bind (Told.ends (told_plain (a := ⟨.buildUnsignedTx tx, .ok v⟩ :: a) hp) hends)
      (fun a' _ _ hadds => ?_) fun a' e _ hadds => ?_
    · have hkeeps := List.Subset.trans
        (List.subset_cons_self ⟨Cmd.buildUnsignedTx tx, .ok v⟩ a) hadds.1.keeps
      refine ⟨hkeeps, fun x hx => ?_, fun v heq => ?_, fun e heq => by cases heq⟩
      · obtain hx | hx := hadds.1.plain x hx
        · obtain rfl | hx := List.mem_cons.mp hx
          · exact .inr (.inr ⟨tx, .ok v, rfl⟩)
          · exact .inl hx
        · exact .inr (.inl hx)
      · cases heq
        exact ⟨tx, rfl, hbuilt.1, fun h hh => (hbuilt.2 h hh).imp fun _ => Took.mono hkeeps⟩
    · obtain ⟨-, v', heq⟩ := hadds
      cases heq

theorem ends_recordPendingLock {token : Address} {chain : TaskChain} :
    (recordPendingLock token chain).Ends fun r => ∃ v, r = .ok v := by
  intro r
  cases r <;> exact ⟨(), rfl⟩

theorem told_buildTask {target : PostingTarget} {data : CreateTaskBody} {amount duration : Nat}
    {terms : Option OpenTerms} (hposter : t.poster? = some poster) {fresh : Bool}
    (htook : Took a data.taskHash poster t.id fresh) :
    (buildTask cfg target poster data amount duration terms).Told (Asks t) (Building t a) a := by
  unfold buildTask
  split
  · exact building_error (.refl a)
  · next token _ =>
    refine told_plain_bind issues_refuseUnusableVerifier (fun _ a' hadds => ?_)
      fun e a' hadds => building_error hadds
    have hbuilt : Built t a'
        (createTaskTx target poster token data.toTaskTerms amount duration terms) := by
      refine ⟨hposter, fun h hh => ⟨fresh, ?_⟩⟩
      obtain rfl : h = data.taskHash := by
        cases terms <;> simpa [createTaskTx, createTaskCall, EscrowCall.taskHashes] using hh
      exact htook.mono hadds.keeps
    refine (told_build hbuilt issues_recordPendingLock ends_recordPendingLock).mono
      (fun _ _ => id) fun a'' r hb => ?_
    · refine ⟨List.Subset.trans hadds.keeps hb.keeps, fun x hx => ?_, hb.built, fun e heq hnone =>
        hb.failed e heq (hadds.noBuild hnone)⟩
      obtain hx | hx := hb.only x hx
      · exact (hadds.plain x hx).imp id .inl
      · exact .inr hx

theorem told_createTask {body : Option CreateTaskBody} (hop : t.op = .createTask poster body) :
    (createTask cfg poster t.id body).Told (Asks t) (Ends t) [] := by
  have hposter : t.poster? = some poster := by rw [Call.poster?, hop]
  have hquiet : Quiet [] := fun x hx => by cases hx
  have hop' : ∀ {poster' body'}, t.op ≠ .createTasks poster' body' := by simp [hop]
  unfold createTask
  split
  · exact quiet_throw hquiet
  · next data =>
    refine quiet_bind hquiet issues_refuseUnapprovedDelegation fun _ a hquiet => ?_
    split
    · exact quiet_throw hquiet
    · exact quiet_throw hquiet
    · next amount duration target _ _ =>
      split
      · exact quiet_throw hquiet
      · next terms _ =>
        refine quiet_bind hquiet issues_refuseUnsupportedOpen fun _ a hquiet => ?_
        have hnone : ∀ {a' r}, Claiming t poster data.taskHash a a' r → NoRelease a' ∧ NoBuild a' := by
          intro a' r hc
          refine ⟨fun h poster token r' hmem => ?_, fun tx hmem => ?_⟩
          · obtain hmem | hplain | ⟨r'', heq, -⟩ := hc.only _ hmem
            · exact hquiet.noRelease h poster token r' hmem
            · exact hplain
            · cases heq
          · obtain hmem | hplain | ⟨r'', heq, -⟩ := hc.only _ hmem
            · exact hquiet.noBuild tx hmem
            · exact hplain
            · cases heq
        refine Told.bind (told_claimNewTaskHash hposter) (fun a' fresh _ hc => ?_)
          fun a' e _ hc => ⟨(hnone hc).2, fun _ _ h => absurd h hop'⟩
        refine (told_buildTask hposter (hc.took fresh rfl)).mono (fun _ _ => id) fun a'' r hb => ?_
        cases r with
        | ok v =>
          obtain ⟨tx, rfl, hbuilt⟩ := hb.built v rfl
          exact ⟨hbuilt, hb.noRelease (hnone hc).1⟩
        | error e => exact ⟨hb.failed e rfl (hnone hc).2, fun _ _ h => absurd h hop'⟩

end HashClaims

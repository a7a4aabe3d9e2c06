import BlindMarket.HashClaims.Programs

/-!
# Batches and listings

What a batch claimed is what it builds on, or what it releases. Every request
keeps to its grounds, and claims each hash at most once.
-/
namespace HashClaims

open Async Prog Runs

variable {cfg : Config} {t : Call} {a a' : Answers Ans Code} {poster : Address} {h : Hash}

/-! ## Rows -/

/-- No task refused means that each went through. -/
theorem rowErrors_nil {α : Type} {checked : List Checked} {outcomes : List (Except Code α)}
    (hrows : rowErrors checked outcomes = .ok []) :
    ∀ row r, (row, r) ∈ checked.zip outcomes → ∃ v, r = .ok v := by
  induction checked generalizing outcomes with
  | nil => simp
  | cons row rows ih =>
    cases outcomes with
    | nil => simp
    | cons r outcomes =>
      intro row' r' hmem
      cases r with
      | ok v =>
        obtain heq | hmem := List.mem_cons.mp hmem
        · cases heq
          exact ⟨v, rfl⟩
        · exact ih hrows row' r' hmem
      | error e =>
        exfalso
        simp only [rowErrors, Bind.bind, Except.bind] at hrows
        split at hrows
        · cases hrows
        · split at hrows <;> cases hrows

theorem claimedFresh_mem {checked : List Checked} {outcomes : List (Except Code Bool)} :
    h ∈ claimedFresh checked outcomes ↔
      ∃ row, (row, .ok true) ∈ checked.zip outcomes ∧ row.data.taskHash = h := by
  induction checked generalizing outcomes with
  | nil => simp [claimedFresh]
  | cons row rows ih =>
    cases outcomes with
    | nil => simp [claimedFresh]
    | cons r outcomes =>
      obtain e | fresh := r
      · simp [claimedFresh, ih]
      · cases fresh
        · simp [claimedFresh, ih]
        · simp only [claimedFresh, List.mem_cons, ih, List.zip_cons_cons, Prod.mk.injEq, and_true]
          constructor
          · rintro (rfl | ⟨row', hmem, rfl⟩)
            · exact ⟨row, .inl rfl, rfl⟩
            · exact ⟨row', .inr hmem, rfl⟩
          · rintro ⟨row', rfl | hmem, rfl⟩
            · exact .inl rfl
            · exact .inr ⟨row', hmem, rfl⟩

theorem zip_of_mem {α β : Type} {l : List α} {l' : List β} (hlen : l'.length = l.length) {x : α}
    (hx : x ∈ l) : ∃ y, (x, y) ∈ l.zip l' := by
  obtain ⟨n, hn, rfl⟩ := List.getElem_of_mem hx
  refine ⟨l'[n], ?_⟩
  rw [← List.getElem_zip (h := by simp [hlen, hn])]
  exact List.getElem_mem _

/-- The tasks of a batch that are checked have hashes of their own. -/
theorem checkRows_nodup {rows : List (Option TaskTerms)} {seen : List Hash} {index : Nat} :
    ((checkRows cfg poster seen index rows).2.map (·.data.taskHash)).Nodup ∧
      ∀ row ∈ (checkRows cfg poster seen index rows).2, row.data.taskHash ∉ seen := by
  induction rows generalizing seen index with
  | nil => simp [checkRows]
  | cons row rows ih =>
    cases row with
    | none => exact ih
    | some data =>
      simp only [checkRows]
      split
      · exact ih
      · split
        · exact ih
        · next hnew =>
          obtain ⟨hnodup, hseen⟩ := @ih (data.taskHash :: seen) (index + 1)
          simp only [List.mem_cons, not_or] at hseen
          split
          · exact ⟨hnodup, fun row hrow => (hseen row hrow).2⟩
          · simp only [List.map_cons, List.nodup_cons, List.mem_map, List.mem_cons, not_exists,
              not_and]
            refine ⟨⟨fun row hrow => (hseen row hrow).1, hnodup⟩, fun row hrow => ?_⟩
            obtain rfl | hrow := hrow
            · exact hnew
            · exact (hseen row hrow).2

/-! ## The claims of a batch -/

/-- What the claims of a batch leave of what was known. -/
structure Claims (t : Call) (poster : Address) (checked : List Checked)
    (outcomes : List (Except Code Bool)) (a : Answers Ans Code) : Prop where
  length : outcomes.length = checked.length
  noRelease : NoRelease a
  noBuild : NoBuild a
  took : ∀ row fresh, (row, .ok fresh) ∈ checked.zip outcomes →
    Took a row.data.taskHash poster t.id fresh
  known : ∀ h poster', Took a h poster' t.id true →
    poster' = poster ∧ h ∈ claimedFresh checked outcomes

theorem claims_of_settled {checked : List Checked} {outcomes : List (Except Code Bool)}
    (hquiet : Quiet a) (hs : Settled branches
      (fun row => Claiming t poster row.data.taskHash a) checked outcomes a a') :
    Claims t poster checked outcomes a' := by
  have hcover : ∀ x ∈ a', x.1.Plain ∨ ∃ row r b r', (row, r) ∈ checked.zip outcomes ∧ b ⊆ a' ∧
      x = ⟨.claimTaskHash row.data.taskHash poster t.id, r'⟩ ∧
      ∀ v, r' = .ok v → v.mine = true → r = .ok v.fresh := by
    intro x hx
    obtain hx | hx | ⟨row, r, b, hrow, hb, hx, hc⟩ := hs.cover x hx
    · exact .inl (hquiet x hx)
    · exact .inl (by rw [hx]; exact trivial)
    · obtain hx | hx | ⟨r', heq, hr'⟩ := hc.only x hx
      · exact .inl (hquiet x hx)
      · exact .inl hx
      · exact .inr ⟨row, r, b, r', hrow, hb, heq, hr'⟩
  refine ⟨hs.length, fun h poster token r hmem => ?_, fun tx hmem => ?_, fun row fresh hrow => ?_,
    fun h poster' ⟨v, hmem, hmine, hfresh⟩ => ?_⟩
  · obtain hplain | ⟨_, _, _, _, _, _, heq, _⟩ := hcover _ hmem
    · exact hplain
    · cases heq
  · obtain hplain | ⟨_, _, _, _, _, _, heq, _⟩ := hcover _ hmem
    · exact hplain
    · cases heq
  · obtain ⟨b, hb, hc⟩ := hs.parts row (.ok fresh) hrow
    exact (hc.took fresh rfl).mono hb
  · obtain hplain | ⟨row, r, b, r', hrow, hb, heq, hr'⟩ := hcover _ hmem
    · exact hplain.elim
    · cases heq
      have hr := hr' v rfl hmine
      rw [hfresh] at hr
      subst hr
      exact ⟨rfl, claimedFresh_mem.mpr ⟨row, hrow, rfl⟩⟩

theorem Claims.adds {checked : List Checked} {outcomes : List (Except Code Bool)}
    (hc : Claims t poster checked outcomes a) {r : Except Code Answer} (hb : Building t a a' r)
    {poster' : Address} (htook : Took a' h poster' t.id true) :
    poster' = poster ∧ h ∈ claimedFresh checked outcomes := by
  obtain ⟨v, hmem, hv⟩ := htook
  obtain hmem | hplain | ⟨tx, r', heq⟩ := hb.only _ hmem
  · exact hc.known h poster' ⟨v, hmem, hv⟩
  · exact hplain.elim
  · cases heq

/-! ## Building and releasing -/

theorem told_buildTasks {target : PostingTarget} {token : Address} {checked : List Checked}
    {outcomes : List (Except Code Bool)} (hposter : t.poster? = some poster)
    (hc : Claims t poster checked outcomes a) :
    (buildTasks target poster token checked outcomes).Told (Asks t) (Building t a) a := by
  unfold buildTasks
  split
  · exact building_error (.refl a)
  · exact building_error (.refl a)
  · next hrows =>
    have hbuilt : Built t a (createTasksTx target poster token checked) := by
      refine ⟨hposter, fun h hh => ?_⟩
      simp only [createTasksTx, EscrowCall.taskHashes, List.map_map, List.mem_map] at hh
      obtain ⟨row, hrow, rfl⟩ := hh
      obtain ⟨r, hr⟩ := zip_of_mem hc.length hrow
      obtain ⟨fresh, rfl⟩ := rowErrors_nil hrows row r hr
      exact ⟨fresh, hc.took row fresh hr⟩
    refine told_build hbuilt (issues_allSettled (fun p hp => ?_) trivial) ends_allSettled
    obtain ⟨row, -, rfl⟩ := List.mem_map.mp hp
    exact issues_recordPendingLock

/-- What a release leaves of what was known. -/
structure Releasing (t : Call) (poster : Address) (a : Answers Ans Code) (h : Hash)
    (a' : Answers Ans Code) (_ : Except Code Bool) : Prop where
  asked : ∃ r', ⟨.releaseTaskHashClaim h poster t.id, r'⟩ ∈ a'
  only : ∀ x ∈ a', x ∈ a ∨ ∃ r', x = ⟨.releaseTaskHashClaim h poster t.id, r'⟩

theorem told_releaseClaims {hashes : List Hash} (hposter : t.poster? = some poster)
    (htook : ∀ h ∈ hashes, Took a h poster t.id true) :
    (releaseClaims hashes poster t.id).Told (Asks t) (fun a' r => r = .ok () ∧
      (∀ h ∈ hashes, ∃ r', ⟨.releaseTaskHashClaim h poster t.id, r'⟩ ∈ a') ∧
      ∀ x ∈ a', x ∈ a ∨ x.1.Plain ∨
        ∃ h r', x = ⟨.releaseTaskHashClaim h poster t.id, r'⟩) a := by
  refine Told.bind (told_allSettled (Q := Releasing t poster a) asks_lasting (fun _ => trivial)
    fun h hh => ⟨⟨hposter, rfl, htook h hh⟩, fun r => ⟨⟨r, List.mem_cons_self⟩, fun x hx => ?_⟩⟩)
    ?_ ?_
  · obtain rfl | hx := List.mem_cons.mp hx
    · exact .inr ⟨r, rfl⟩
    · exact .inl hx
  · rintro a' rs hsuffix ⟨rs', heq, hs⟩
    cases heq
    refine ⟨rfl, fun h hh => ?_, fun x hx => ?_⟩
    · obtain ⟨r, hr⟩ := zip_of_mem hs.length hh
      obtain ⟨b, hb, hrel⟩ := hs.parts h r hr
      exact hrel.asked.imp fun _ hmem => hb hmem
    · obtain hx | hx | ⟨h, r, b, -, -, hx, hrel⟩ := hs.cover x hx
      · exact .inl hx
      · exact .inr (.inl (by rw [hx]; exact trivial))
      · obtain hx | ⟨r', heq⟩ := hrel.only x hx
        · exact .inl hx
        · exact .inr (.inr ⟨h, r', heq⟩)
  · rintro a' e hsuffix ⟨rs, heq, -⟩
    cases heq

theorem told_claimAndBuild {target : PostingTarget} {token : Address} {checked : List Checked}
    (hposter : t.poster? = some poster) (hquiet : Quiet a) :
    (claimAndBuild target poster token t.id checked).Told (Asks t) (Ends t) a := by
  refine Told.bind (told_allSettled asks_lasting (fun _ => trivial)
    fun row _ => told_claimNewTaskHash (h := row.data.taskHash) hposter) ?_ ?_
  · rintro a₁ outcomes hsuffix ⟨outcomes', heq, hs⟩
    cases heq
    have hc := claims_of_settled hquiet hs
    refine Told.bind (Told.attempt (R := fun a₂ r => ∃ r', r = .ok r' ∧ Building t a₁ a₂ r')
      (told_buildTasks hposter hc) fun a₂ r _ hb => ⟨r, rfl, hb⟩) ?_ ?_
    · rintro a₂ result - ⟨result', heq, hb⟩
      cases heq
      cases result with
      | ok answer =>
        obtain ⟨tx, rfl, hbuilt⟩ := hb.built answer rfl
        exact ⟨hbuilt, hb.noRelease hc.noRelease⟩
      | error e =>
        refine Told.bind (told_releaseClaims hposter fun h hh => ?_) ?_ ?_
        · obtain ⟨row, hrow, rfl⟩ := claimedFresh_mem.mp hh
          exact (hc.took row true hrow).mono hb.keeps
        · rintro a₃ - - ⟨-, hasked, honly⟩
          refine ⟨fun tx hmem => ?_, fun _ _ _ h poster' ⟨v, hmem, hv⟩ => ?_⟩
          · obtain hmem | hplain | ⟨h, r', heq⟩ := honly _ hmem
            · exact hb.failed e rfl hc.noBuild tx hmem
            · exact hplain
            · cases heq
          · obtain hmem | hplain | ⟨h, r', heq⟩ := honly _ hmem
            · obtain ⟨rfl, hfresh⟩ := hc.adds hb ⟨v, hmem, hv⟩
              exact hasked h hfresh
            · exact hplain.elim
            · cases heq
        · rintro a₃ e' - ⟨heq, -⟩
          cases heq
    · rintro a₂ e - ⟨r', heq, -⟩
      cases heq
  · rintro a₁ e - ⟨rs, heq, -⟩
    cases heq

theorem told_createTasks {body : Option CreateTasksBody} (hop : t.op = .createTasks poster body) :
    (createTasks cfg poster t.id body).Told (Asks t) (Ends t) [] := by
  have hposter : t.poster? = some poster := by rw [Call.poster?, hop]
  have hquiet : Quiet [] := fun x hx => by cases hx
  unfold createTasks
  split
  · exact quiet_throw hquiet
  · next request =>
    split
    · exact quiet_throw hquiet
    · refine quiet_bind hquiet issues_refuseUnapprovedDelegation fun _ a hquiet => ?_
      split
      · exact quiet_throw hquiet
      · next target _ =>
        split
        · exact quiet_throw hquiet
        · next token _ =>
          split
          · exact quiet_throw hquiet
          · refine quiet_bind hquiet (issues_call trivial) fun support a hquiet => ?_
            split
            · exact quiet_throw hquiet
            · split
              · exact quiet_throw hquiet
              · refine quiet_bind hquiet (issues_allSettled (fun p hp => ?_) trivial)
                  fun reads a hquiet => ?_
                · obtain ⟨row, -, rfl⟩ := List.mem_map.mp hp
                  exact issues_readRow
                · split
                  · exact quiet_throw hquiet
                  · split
                    · exact told_claimAndBuild hposter hquiet
                    · exact quiet_throw hquiet

/-! ## Listing -/

/-- Plain, or the listing of the hash. -/
def Lists (h : Hash) (c : Cmd) : Prop := c.Plain ∨ ∃ listing, c = .setMeta listing ∧ listing.taskId = h

theorem Cmd.Plain.lists {c : Cmd} (hc : c.Plain) : Lists h c := .inl hc

theorem Prog.issues_mono {α : Type} {P P' : Cmd → Prop} {p : Backend α} (hp : p.Issues P)
    (h : ∀ c, P c → P' c) : p.Issues P' := by
  induction p with
  | done r => trivial
  | await c k ih => exact ⟨h c hp.1, fun r => ih r (hp.2 r)⟩

section Listing

variable {user : AuthUser} {data : IndexTaskTerms} {chain : TaskChain} {event : TaskCreatedEvent}
  {existing : Option A2ATaskMeta}

theorem issues_refuseOtherTask : (refuseOtherTask data chain event existing).Issues Cmd.Plain := by
  cases existing with
  | none => trivial
  | some listing =>
    refine (issues_call trivial).attempt.bind fun indexed => ?_
    split
    · split <;> trivial
    · trivial

theorem issues_checkDesignatedVerifier :
    (checkDesignatedVerifier user data chain event).Issues Cmd.Plain := by
  unfold checkDesignatedVerifier
  split
  · trivial
  · split
    · trivial
    · split
      · trivial
      · split
        · trivial
        · refine (issues_call trivial).bind fun onChainVerifier => ?_
          split <;> trivial

theorem issues_checkService : (checkService cfg data chain event).Issues Cmd.Plain := by
  unfold checkService
  split
  · trivial
  · trivial
  · refine (issues_call trivial).bind fun svc => ?_
    split
    · trivial
    · split
      · trivial
      · split
        · trivial
        · split <;> trivial

theorem issues_checkTarget : (checkTarget data).Issues Cmd.Plain := by
  unfold checkTarget
  split
  · trivial
  · refine (issues_call trivial).bind fun target => ?_
    split
    · trivial
    · split
      · trivial
      · split <;> trivial

theorem issues_checkVerifierAgent : (checkVerifierAgent data).Issues Cmd.Plain := by
  unfold checkVerifierAgent
  split
  · trivial
  · refine (issues_call trivial).bind fun verifier => ?_
    split
    · trivial
    · refine (issues_call trivial).bind fun notOptedIn => ?_
      split <;> trivial

/-- The rule for a property of programs that plain commands, and the listing at the end, keep. -/
theorem listTask_rule {M : Backend Answer → Prop}
    (hplain : ∀ {α : Type} {p : Backend α} {k : α → Backend Answer}, p.Issues Cmd.Plain →
      (∀ v, M (k v)) → M (p >>= k))
    (hthrow : ∀ {e : Code}, M (throw e))
    (hset : M (do
      call (Cmd.setMeta (newMeta cfg user data chain event))
      return .indexed data.taskHash event.taskId)) :
    M (listTask cfg user data chain event existing) := by
  unfold listTask
  split
  · exact hthrow
  · refine hplain issues_refuseOtherTask fun _ => ?_
    split
    · exact hthrow
    · refine hplain (issues_call trivial) fun _ => hplain issues_checkDesignatedVerifier fun _ => ?_
      split
      · exact hthrow
      · refine hplain issues_checkService fun _ => hplain issues_checkTarget fun _ =>
          hplain issues_checkVerifierAgent fun _ => ?_
        split
        · exact hplain (issues_call trivial) fun _ => hset
        · exact hset

theorem issues_listTask :
    (listTask cfg user data chain event existing).Issues (Lists data.taskHash) :=
  listTask_rule (M := fun p => p.Issues (Lists data.taskHash))
    (fun hp hk => (Prog.issues_mono hp fun _ => Cmd.Plain.lists).bind hk) trivial
    ((issues_call (.inr ⟨_, rfl, rfl⟩)).bind fun _ => trivial)

theorem ends_listTask : (listTask cfg user data chain event existing).Ends fun r =>
    ∀ v, r = .ok v → v = .indexed data.taskHash event.taskId := by
  refine listTask_rule (fun {α p k} _ hk => ?_) (fun v heq => by cases heq) fun r => ?_
  · exact (ends_true p).bind (fun v _ => hk v) fun e _ v heq => by cases heq
  · cases r with
    | ok u =>
      intro v heq
      cases heq
      rfl
    | error e =>
      intro v heq
      cases heq

theorem told_indexTask (hop : t.op = .indexTask user data chain event) :
    (indexTaskFromEvent cfg user data chain event).Told (Asks t) (Ends t) [] := by
  have hquiet : Quiet [] := fun x hx => by cases hx
  unfold indexTaskFromEvent
  split
  · exact quiet_throw hquiet
  · split
    · exact quiet_throw hquiet
    · refine quiet_bind hquiet issues_refuseUnapprovedDelegation fun _ a hquiet =>
        quiet_bind hquiet (issues_call trivial) fun existing a hquiet => ?_
      split
      · exact quiet_throw hquiet
      · refine ⟨trivial, fun r => ?_⟩
        have hquiet' : Quiet (⟨.getTaskHashClaim data.taskHash, r⟩ :: a) :=
          ((Adds.refl a).cons (c := .getTaskHashClaim data.taskHash) trivial).quiet hquiet
        cases r with
        | error e => exact hquiet'.ends
        | ok claimedBy =>
          show Told _ _ _ (if _ then _ else _)
          split
          · exact quiet_throw hquiet'
          · next hmine =>
            refine (Told.ends (Issues.told (I := fun a' =>
                (⟨.getTaskHashClaim data.taskHash, .ok claimedBy⟩ :
                  (c : Cmd) × Except Code (Ans c)) ∈ a' ∧ NoBuild a') issues_listTask
              ⟨List.mem_cons_self, hquiet'.noBuild⟩ ?_ ?_) ends_listTask).mono (fun _ _ => id) ?_
            · rintro a' c r ⟨hread, hnone⟩ hc
              refine ⟨List.mem_cons_of_mem _ hread, fun tx hmem => ?_⟩
              obtain heq | hmem := List.mem_cons.mp hmem
              · cases heq
                obtain hplain | ⟨listing, heq, -⟩ := hc
                · exact hplain
                · cases heq
              · exact hnone tx hmem
            · rintro a' c ⟨hread, -⟩ (hplain | ⟨listing, rfl, hid⟩)
              · exact hplain.asks
              · refine ⟨user, data, chain, event, claimedBy, hop, hid ▸ hread, fun holder hh => ?_⟩
                obtain rfl : claimedBy = some holder := hh
                simpa using hmine
            · rintro a' r ⟨⟨-, hnone⟩, hends⟩
              cases r with
              | ok v =>
                rw [hends v rfl]
                exact trivial
              | error e => exact ⟨hnone, fun _ _ h => by simp [hop] at h⟩

end Listing

/-! ## Every request -/

theorem told_prog : (t.prog cfg).Told (Asks t) (Ends t) [] := by
  cases hop : t.op with
  | createTask poster body =>
    rw [Call.prog, hop]
    exact told_createTask hop
  | createTasks poster body =>
    rw [Call.prog, hop]
    exact told_createTasks hop
  | indexTask user data chain event =>
    rw [Call.prog, hop]
    exact told_indexTask hop

/-- A claim of the hash, or a listing. -/
def OnceFor (h : Hash) : Cmd → Prop
  | .claimTaskHash h' _ _ => h' = h
  | .setMeta _ => True
  | _ => False

theorem Cmd.Plain.not_onceFor {c : Cmd} (hc : c.Plain) : ¬ OnceFor h c := by
  cases c <;> first | exact id | exact hc.elim

theorem plain_never {α : Type} {p : Backend α} (hp : p.Issues Cmd.Plain) :
    p.Issues fun c => ¬ OnceFor h c := Prog.issues_mono hp fun _ hc => hc.not_onceFor

theorem plain_once {α β : Type} {p : Backend α} {k : α → Backend β} (hp : p.Issues Cmd.Plain)
    (hk : ∀ v, (k v).Once (OnceFor h)) : (p >>= k).Once (OnceFor h) := (plain_never hp).bind_once hk

theorem issues_claimNewTaskHash {h' : Hash} {token : Nat} (hne : h' ≠ h) :
    (claimNewTaskHash h' poster token).Issues fun c => ¬ OnceFor h c := by
  refine (plain_never issues_refuseHashInUse).bind fun _ =>
    (issues_call (c := Cmd.claimTaskHash h' poster token) hne).bind fun claim => ?_
  split <;> trivial

theorem once_claimNewTaskHash {h' : Hash} {token : Nat} :
    (claimNewTaskHash h' poster token).Once (OnceFor h) := by
  refine plain_once issues_refuseHashInUse fun _ r => ?_
  cases r with
  | error e => exact ⟨trivial, fun _ => trivial⟩
  | ok v =>
    show Prog.Once _ (if _ then _ else _) ∧ (_ → Prog.Issues _ (if _ then _ else _))
    split <;> exact ⟨trivial, fun _ => trivial⟩

theorem issues_build {α : Type} {tx : UnsignedTx} {p : Backend α} (hp : p.Issues Cmd.Plain) :
    (do
      call (Cmd.buildUnsignedTx tx)
      let _ ← p
      return Answer.built tx : Backend Answer).Issues fun c => ¬ OnceFor h c :=
  (issues_call id).bind fun _ => (plain_never hp).bind fun _ => trivial

theorem issues_buildTasks {target : PostingTarget} {token : Address} {checked : List Checked}
    {outcomes : List (Except Code Bool)} :
    (buildTasks target poster token checked outcomes).Issues fun c => ¬ OnceFor h c := by
  unfold buildTasks
  split
  · trivial
  · trivial
  · refine issues_build (issues_allSettled (fun p hp => ?_) trivial)
    obtain ⟨row, -, rfl⟩ := List.mem_map.mp hp
    exact issues_recordPendingLock

theorem once_claimAndBuild {target : PostingTarget} {token : Address} {claimToken : Nat}
    {checked : List Checked} (hnodup : (checked.map (·.data.taskHash)).Nodup) :
    (claimAndBuild target poster token claimToken checked).Once (OnceFor h) := by
  have hmap : (checked.map fun row => claimNewTaskHash row.data.taskHash poster claimToken) =
      (checked.map (·.data.taskHash)).map fun h => claimNewTaskHash h poster claimToken := by
    simp [List.map_map, Function.comp_def]
  unfold claimAndBuild
  rw [hmap]
  refine (once_allSettled hnodup (fun h' _ hne => issues_claimNewTaskHash hne)
    once_claimNewTaskHash id).bind fun outcomes => issues_buildTasks.attempt.bind fun result => ?_
  cases result with
  | ok answer => trivial
  | error e =>
    refine Issues.bind (Issues.bind (issues_allSettled (fun p hp => ?_) id) fun _ => trivial)
      fun _ => trivial
    obtain ⟨h', -, rfl⟩ := List.mem_map.mp hp
    exact issues_call id

theorem once_createTask {token : Nat} {body : Option CreateTaskBody} :
    (createTask cfg poster token body).Once (OnceFor h) := by
  unfold createTask
  split
  · trivial
  · refine plain_once issues_refuseUnapprovedDelegation fun _ => ?_
    split
    · trivial
    · trivial
    · split
      · trivial
      · refine plain_once issues_refuseUnsupportedOpen fun _ => once_claimNewTaskHash.bind fun _ => ?_
        unfold buildTask
        split
        · trivial
        · exact (plain_never issues_refuseUnusableVerifier).bind fun _ =>
            issues_build issues_recordPendingLock

theorem once_createTasks {token : Nat} {body : Option CreateTasksBody} :
    (createTasks cfg poster token body).Once (OnceFor h) := by
  unfold createTasks
  split
  · trivial
  · split
    · trivial
    · refine plain_once issues_refuseUnapprovedDelegation fun _ => ?_
      split
      · trivial
      · split
        · trivial
        · split
          · trivial
          · refine plain_once (issues_call trivial) fun support => ?_
            split
            · trivial
            · split
              · trivial
              · refine plain_once (issues_allSettled (fun p hp => ?_) trivial) fun reads => ?_
                · obtain ⟨row, -, rfl⟩ := List.mem_map.mp hp
                  exact issues_readRow
                · split
                  · trivial
                  · split
                    · exact once_claimAndBuild checkRows_nodup.1
                    · trivial

theorem once_indexTask {user : AuthUser} {data : IndexTaskTerms} {chain : TaskChain}
    {event : TaskCreatedEvent} : (indexTaskFromEvent cfg user data chain event).Once (OnceFor h) := by
  unfold indexTaskFromEvent
  split
  · trivial
  · split
    · trivial
    · refine plain_once issues_refuseUnapprovedDelegation fun _ =>
        plain_once (issues_call trivial) fun existing => ?_
      split
      · trivial
      · refine plain_once (issues_call trivial) fun claimedBy => ?_
        split
        · trivial
        · refine listTask_rule (M := fun p => p.Once (OnceFor h)) (fun hp hk => plain_once hp hk)
            trivial fun r => ?_
          cases r <;> exact ⟨trivial, fun _ => trivial⟩

/-- A request claims a hash at most once, and lists at most once. -/
theorem once_prog : (t.prog cfg).Once (OnceFor h) := by
  unfold Call.prog
  split
  · exact once_createTask
  · exact once_createTasks
  · exact once_indexTask

end HashClaims

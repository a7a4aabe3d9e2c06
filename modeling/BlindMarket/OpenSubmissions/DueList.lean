import BlindMarket.OpenSubmissions.Truth

/-!
# On the judge's list

A task met by the backend goes on its network's list, and leaves it only when it
is over, has an outcome, has no submissions, is left for the admin, or looked
unlisted to the judge. The last is the one that does not stay true: a task
listed after the judge looked is never looked at again.
-/
namespace OpenSubmissions

open Async Prog Runs
open BlindEscrow (Address Bytes32 OpenPhase Deployed)

variable {cfg : Config} {t : Call} {x : Turn} {s s' s₀ : State cfg} {c : Cmd}
  {r : Except Code (Ans c)} {a : Answers Ans Code} {ref : TaskRef} {record : OpenTaskRecord}
  {scope : Scope} {tr : List (Ev cfg)} {e : Ev cfg}
  {pool : Pool Ans Code Response Call (State cfg)}

/-! ## One step -/

theorem Does.due (h : Does t s c s') (hd : s.due ref) :
    s'.due ref ∨ c = .redis (.zremJudge ref) := by
  cases h with
  | same c h => exact .inl (by rwa [State.due, h.judgeDue])
  | schedule ref' atSec nx =>
    left
    simp only [State.due, setJudgeDue_judgeDue]
    split
    · rfl
    · exact hd
  | unschedule ref' =>
    by_cases heq : ref = ref'
    · exact .inr (by rw [heq])
    · left
      simpa only [State.due, setJudgeDue_judgeDue, if_neg heq] using hd
  | _ => exact .inl hd

theorem Does.backfilled (h : Does t s c s') (hb : s'.backfilled scope = true) :
    s.backfilled scope = true ∨ c = .redis (.markJudgeBackfilled scope) := by
  cases h with
  | same c h => exact .inl (by rwa [h.backfilled] at hb)
  | mark scope' =>
    by_cases heq : scope = scope'
    · exact .inr (by rw [heq])
    · simp only [Function.update_of_ne heq] at hb
      exact .inl hb
  | _ => exact .inl hb

/-- A scan is its own program's. -/
theorem Does.scans (h : Does t s c s') {id : Nat} (hid : id ≠ t.id) : s'.scans id = s.scans id := by
  cases h with
  | same c h => rw [h.scans]
  | scan cursor left => simp only [Function.update_of_ne hid]
  | _ => rfl

theorem Does.scans_of_ne (h : Does t s c s') (hc : ∀ cursor, c ≠ .redis (.scanRecords cursor)) :
    s'.scans = s.scans := by
  cases h with
  | same c h => exact h.scans
  | scan cursor left => exact absurd rfl (hc cursor)
  | _ => rfl

/-! ## What takes a task off the list -/

/-- The judge asked for the task's listing, and there was none. -/
def LookedInVain (tr : List (Ev cfg)) (ref : TaskRef) : Prop :=
  ∃ e ∈ tr, ∃ t record, t.op = .judge ∧ ref = cfg.taskRef record.chain record.taskId ∧
    e.label = .ran t (.listingOf record) (.ok none)

/-- Why a task may be off the list. -/
inductive Released (tr : List (Ev cfg)) (s : State cfg) (ref : TaskRef) : Prop where
  | outcome (h : (s.outcomes ref).isSome = true)
  | past (p : OpenPhase) (hp : (s.escrows ref.scope.chain).phase ref.taskId = .ok p)
      (hle : OpenPhase.adminResolve.rank ≤ p.rank)
  | empty (p : OpenPhase) (hp : (s.escrows ref.scope.chain).phase ref.taskId = .ok p)
      (hne : p ≠ .submissions)
      (hcount : (s.escrows ref.scope.chain).escrow.submissionCount ref.taskId = 0)
  | left (h : ref ∈ s.left)
  | unlisted (h : LookedInVain tr ref)

def Tended (tr : List (Ev cfg)) (s : State cfg) (ref : TaskRef) : Prop :=
  s.due ref ∨ Released tr s ref

theorem Released.later (h : Released tr s ref) (hs : Later s s') : Released (e :: tr) s' ref := by
  cases h with
  | outcome h => exact .outcome (hs.outcome ref h)
  | past p hp hle =>
    obtain ⟨p', hp', hle'⟩ := (hs.escrows ref.scope.chain).phase hp
    exact .past p' hp' (hle.trans hle')
  | empty p hp hne hcount =>
    obtain ⟨p', hp', hle⟩ := (hs.escrows ref.scope.chain).phase hp
    exact .empty p' hp' (rank_ne_submissions hne hle)
      (((hs.escrows ref.scope.chain).final hp hne).2.trans hcount)
  | left h => exact .left (hs.left ref h)
  | unlisted h =>
    obtain ⟨e', he', hlook⟩ := h
    exact .unlisted ⟨e', List.mem_cons_of_mem _ he', hlook⟩

/-- A look that gives a task up has found it released. -/
theorem GivenUp.released (h : GivenUp cfg a ref record) (hgenuine : Genuine s ref record)
    (hsound : Sound s) (htold : Answered t s a) (hjudge : t.op = .judge)
    (hknown : known tr t = some a) : Released tr s ref := by
  have hown : Own cfg ref := by
    rw [hgenuine.ref]
    exact own_taskRef cfg _ _
  have hchain : ref.scope.chain = record.chain := by rw [hgenuine.ref]; rfl
  have hid : ref.taskId = record.taskId := by rw [hgenuine.ref]; rfl
  cases h with
  | elsewhere h =>
    rw [hgenuine.scope] at h
    cases h
  | past phase hphase h =>
    obtain ⟨_, _, p, hp, hle⟩ := htold.mem h
    refine .past p (by rwa [hchain, hid]) (le_trans ?_ hle)
    obtain rfl | rfl := hphase <;> decide
  | another task hne h =>
    obtain ⟨a', hsuffix, hrecord⟩ := h
    obtain ⟨-, hsame⟩ := htold.suffix hsuffix (.inr ⟨ref, record, hown, hrecord, rfl, rfl⟩)
    exact absurd (hsame.symm.trans hgenuine.taskHash.symm) hne
  | empty phase hphase h =>
    obtain ⟨a', hsuffix, hmem⟩ := h
    obtain ⟨⟨p, hp, hne⟩, hcount⟩ := htold.suffix hsuffix phase hphase hmem
    exact .empty p (by rwa [hchain, hid]) hne (by rwa [hchain, hid])
  | unlisted h =>
    obtain ⟨e, he, hran⟩ := known_mem hknown h
    exact .unlisted ⟨e, he, t, record, hjudge, hgenuine.ref, hran⟩
  | left h =>
    obtain ⟨_, _, hleft⟩ := htold.mem h
    exact .left hleft
  | sent call basis tx hcall hsend hwait =>
    obtain ⟨_, _, sent, hsent, hsentChain, hsentCall⟩ := htold.mem hsend
    obtain ⟨_, _, mined, hmined, htrue⟩ := htold.mem hwait
    obtain rfl : sent = mined := Option.some.inj (hsent.symm.trans hmined)
    have hclosed := hsound.mined tx sent hsent htrue
    rw [hsentCall, hcall, hsentChain] at hclosed
    exact .past .closed (by rwa [hchain, hid]) (by decide)

theorem MayDrop.released (h : MayDrop cfg t a ref) (hsound : Sound s)
    (htold : Answered t s a) (hknown : known tr t = some a) : Released tr s ref := by
  cases h with
  | outcome outcome h =>
    obtain ⟨_, _, hsome⟩ := htold.mem h
    exact .outcome hsome
  | settled outcome saved h =>
    obtain ⟨_, _, hsome⟩ := htold.mem h
    exact .outcome hsome
  | givenUp record hjudge hdue hrecord h =>
    obtain ⟨scope, nowSec, limit, refs, hscope, hin, hmem⟩ := hdue
    obtain ⟨_, _, hshows⟩ := htold.mem hmem
    obtain ⟨_, _, hsaved⟩ := htold.mem hrecord
    have hown : Own cfg ref := own_of_mem (by rw [hshows ref hin]; exact hscope)
    exact h.released (hsound.record ref record hsaved hown) hsound htold hjudge hknown

/-- A task that is tended to stays so. -/
theorem Tended.ran (h : Tended tr s ref) (hsound : Sound s) (htold : Answered t s a)
    (hknown : known tr t = some a) (hasks : Asks cfg t a c)
    (hx : Does t s c s') : Tended (⟨.ran t c r, s, s'⟩ :: tr) s' ref := by
  obtain hdue | hreleased := h
  · obtain hdue | rfl := hx.due hdue
    · exact .inl hdue
    · have hreleased := MayDrop.released hasks hsound htold hknown
      exact .inr (hreleased.later hx.later)
  · exact .inr (hreleased.later hx.later)

theorem Tended.lapsed (h : Tended tr s ref) (hlapsed : Lapsed s s') (hs : Later s s') :
    Tended (e :: tr) s' ref := by
  obtain hdue | hreleased := h
  · left
    rwa [State.due, hlapsed.judgeDue]
  · exact .inr (hreleased.later hs)

/-- What schedules a task puts it on the list. -/
theorem respond_due {atSec : Nat} {nx : Bool}
    (h : respond t x s (.redis (.zaddJudge ref atSec nx)) = (.ok (), s')) : s'.due ref := by
  obtain ⟨-, rfl⟩ := respond_redis h
  simp only [redisEffect]
  split
  · next hpresent => exact hpresent.2
  · simp [State.due]

/-! ## Scans -/

/-- Some page of the scan had the task. -/
def Brought (a : Answers Ans Code) (ref : TaskRef) : Prop :=
  ∃ cursor page, ⟨.redis (.scanRecords cursor), .ok page⟩ ∈ a ∧ ref ∈ page.items

def Paged (a : Answers Ans Code) : Prop :=
  ∀ cursor r, ⟨.redis (.scanRecords cursor), r⟩ ∈ a → ∃ page, r = .ok page

/-- A scan of which no page was lost has brought the task or is still to bring it, and has brought
it once it is through. -/
def Scanned (s : State cfg) (t : Call) (a : Answers Ans Code) (ref : TaskRef) : Prop :=
  Paged a → (∃ cursor r, ⟨.redis (.scanRecords cursor), r⟩ ∈ a) →
    (Brought a ref ∨ ref ∈ s.scans t.id) ∧
      ((∃ cursor page, ⟨.redis (.scanRecords cursor), .ok page⟩ ∈ a ∧ page.cursor = 0) →
        Brought a ref)

theorem Brought.cons (h : Brought a ref) : Brought (⟨c, r⟩ :: a) ref := by
  obtain ⟨cursor, page, hpage, href⟩ := h
  exact ⟨cursor, page, List.mem_cons_of_mem _ hpage, href⟩

/-- A page with cursor 0 leaves nothing to bring. -/
theorem scanPage_through {cursor : Nat} {keys left : List TaskRef}
    (h : (scanPage x cursor keys left).1.cursor = 0) : (scanPage x cursor keys left).2 = [] := by
  by_contra hne
  have hcursor : (scanPage x cursor keys left).1.cursor = x.number + 1 := if_neg hne
  omega

/-- One page more. -/
theorem Scanned.page {cursor : Nat} {page : Page TaskRef} (h : Scanned s t a ref)
    (hasks : Asks cfg t a (.redis (.scanRecords cursor))) (hrecord : (s.record ref).isSome = true)
    (hx : respond t x s (.redis (.scanRecords cursor)) = (.ok page, s')) :
    Scanned s' t (⟨.redis (.scanRecords cursor), .ok page⟩ :: a) ref := by
  obtain ⟨hpage, rfl⟩ := respond_redis hx
  simp only [redisEffect] at hpage ⊢
  rintro hpaged -
  have hbefore : Paged a := fun cursor r hmem => hpaged cursor r (List.mem_cons_of_mem _ hmem)
  have hkeys : ref ∈ s.records.map (·.1) := by
    simp only [State.record, Option.isSome_map, List.find?_isSome, decide_eq_true_eq] at hrecord
    obtain ⟨r, hr, rfl⟩ := hrecord
    exact List.mem_map_of_mem hr
  have hstill : Brought a ref ∨
      ref ∈ if cursor = 0 then s.records.map (·.1) else s.scans t.id := by
    by_cases hstart : cursor = 0
    · exact .inr (by rwa [if_pos hstart])
    · rw [if_neg hstart]
      exact (h hbefore (hasks.resolve_left hstart)).1
  have hnew : Brought (⟨.redis (.scanRecords cursor), .ok page⟩ :: a) ref ∨
      ref ∈ (scanPage x cursor (s.records.map (·.1)) (s.scans t.id)).2 := by
    obtain hbrought | hkey := hstill
    · exact .inl hbrought.cons
    · by_cases hitem : ref ∈ page.items
      · exact .inl ⟨cursor, page, List.mem_cons_self, hitem⟩
      · right
        rw [hpage] at hitem
        exact List.mem_filter.mpr ⟨hkey, decide_eq_true hitem⟩
  refine ⟨by simpa using hnew, ?_⟩
  rintro ⟨cursor', page', hmem, hend⟩
  obtain heq | hmem := List.mem_cons.mp hmem
  · cases heq
    obtain hbrought | hleft := hnew
    · exact hbrought
    · rw [hpage] at hend
      rw [scanPage_through hend] at hleft
      exact absurd hleft List.not_mem_nil
  · exact (h hbefore ⟨cursor', _, hmem⟩).2 ⟨cursor', page', hmem, hend⟩ |>.cons

/-- Nothing else of a program moves its scan. -/
theorem Scanned.quiet (h : Scanned s t a ref) (hc : ∀ cursor, c ≠ .redis (.scanRecords cursor))
    (hscans : s'.scans t.id = s.scans t.id) : Scanned s' t (⟨c, r⟩ :: a) ref := by
  have hold : ∀ cursor r', ⟨.redis (.scanRecords cursor), r'⟩ ∈ (⟨c, r⟩ :: a : Answers Ans Code) →
      ⟨.redis (.scanRecords cursor), r'⟩ ∈ a := by
    intro cursor r' hmem
    obtain heq | hmem := List.mem_cons.mp hmem
    · cases heq
      exact absurd rfl (hc cursor)
    · exact hmem
  intro hpaged ⟨cursor, r', hmem⟩
  obtain ⟨hbrought, hend⟩ := h (fun cursor r' hmem => hpaged cursor r' (List.mem_cons_of_mem _ hmem))
    ⟨cursor, r', hold _ _ hmem⟩
  refine ⟨hbrought.imp Brought.cons fun hleft => by rwa [hscans], ?_⟩
  rintro ⟨cursor', page, hpage, hzero⟩
  exact (hend ⟨cursor', page, hold _ _ hpage, hzero⟩).cons

theorem Scanned.other (h : Scanned s t a ref) (hscans : s'.scans t.id = s.scans t.id) :
    Scanned s' t a ref := by
  intro hpaged hany
  obtain ⟨hbrought, hend⟩ := h hpaged hany
  exact ⟨hbrought.imp id fun hleft => by rwa [hscans], hend⟩

theorem Scanned.ran (h : Scanned s t a ref) (hasks : Asks cfg t a c)
    (hrecord : (s.record ref).isSome = true) (hx : respond t x s c = (r, s')) :
    Scanned s' t (⟨c, r⟩ :: a) ref := by
  by_cases hc : ∀ cursor, c ≠ .redis (.scanRecords cursor)
  · exact h.quiet hc (by rw [(respond_does hx).scans_of_ne hc])
  · obtain ⟨cursor, rfl⟩ := not_forall_not.mp hc
    cases r with
    | error code =>
      intro hpaged
      obtain ⟨page, hpage⟩ := hpaged cursor _ List.mem_cons_self
      cases hpage
    | ok page => exact h.page hasks hrecord hx

/-! ## The list -/

/-- What runs keep of the list, given what was on record at the start. -/
structure Scheduling (s₀ : State cfg) (tr : List (Ev cfg)) (s : State cfg) : Prop where
  heard : ∀ t a, known tr t = some a → ∀ ref, Scheduled a ref → Tended tr s ref
  unmet : ∀ t a, known tr t = some a → ∀ ref, ⟨.redis (.getRecord ref), .ok none⟩ ∈ a →
    s₀.record ref = none
  met : ∀ ref record, s.record ref = some record → s₀.record ref = none → Tended tr s ref
  scanned : ∀ t a, known tr t = some a → ∀ ref, (s₀.record ref).isSome = true →
    Scanned s t a ref
  passed : ∀ ref record, Own cfg ref → s₀.record ref = some record →
    s.backfilled ref.scope = true → Tended tr s ref

theorem Scheduled.cases (h : Scheduled (⟨c, r⟩ :: a) ref) : Scheduled a ref ∨
    (∃ atSec nx, (⟨c, r⟩ : (c : Cmd) × Except Code (Ans c)) =
      ⟨.redis (.zaddJudge ref atSec nx), .ok ()⟩) ∨
    ∃ outcome, (⟨c, r⟩ : (c : Cmd) × Except Code (Ans c)) =
      ⟨.redis (.getOutcome ref), .ok (some outcome)⟩ := by
  obtain ⟨atSec, nx, hmem⟩ | ⟨outcome, hmem⟩ := h
  · obtain heq | hmem := List.mem_cons.mp hmem
    · exact .inr (.inl ⟨atSec, nx, heq.symm⟩)
    · exact .inl (.inl ⟨atSec, nx, hmem⟩)
  · obtain heq | hmem := List.mem_cons.mp hmem
    · exact .inr (.inr ⟨outcome, heq.symm⟩)
    · exact .inl (.inr ⟨outcome, hmem⟩)

/-- An answer that schedules the task, or finds its outcome, has it tended to. -/
theorem Scheduled.tended (h : Scheduled (⟨c, r⟩ :: a) ref) (hx : respond t x s c = (r, s')) :
    Scheduled a ref ∨ Tended (e :: tr) s' ref := by
  obtain h | ⟨atSec, nx, heq⟩ | ⟨outcome, heq⟩ := h.cases
  · exact .inl h
  · cases heq
    exact .inr (.inl (respond_due hx))
  · cases heq
    have hlater := (respond_does hx).later
    obtain ⟨houtcome, -⟩ := respond_redis hx
    simp only [redisEffect] at houtcome
    exact .inr (.inr (.outcome (hlater.outcome ref (by rw [← houtcome]; rfl))))

/-- The pass over the saved tasks has tended to each one it marks as done. -/
theorem MayMark.tended (h : MayMark cfg a scope) (hi : Scheduling s₀ tr s)
    (hknown : known tr t = some a) (hsound : Sound s) (htold : Answered t s a) (hown : Own cfg ref)
    (hrecord : s₀.record ref = some record) (hscope : ref.scope = scope) : Tended tr s ref := by
  obtain ⟨cursor, page, hpage, hend⟩ := h.complete
  obtain ⟨cursor', page', hpage', href⟩ := (hi.scanned t a hknown ref (by rw [hrecord]; rfl)
    h.answered ⟨cursor, _, hpage⟩).2 ⟨cursor, page, hpage, hend⟩
  obtain hnone | ⟨record', helse, hmem⟩ | hscheduled := h.each cursor' page' hpage' ref href hscope
  · rw [hi.unmet t a hknown ref hnone] at hrecord
    cases hrecord
  · obtain ⟨_, _, hsaved⟩ := htold.mem hmem
    rw [(hsound.record ref record' hsaved hown).scope] at helse
    cases helse
  · exact hi.heard t a hknown ref hscheduled

theorem Scheduling.ran (hi : Scheduling s₀ tr s) (hstart : Later s₀ s) (hsound : Sound s)
    (hknown : known tr t = some a) (hids : ∀ t' a', known tr t' = some a' → t'.id = t.id → t' = t)
    (htold : Answered t s a) (hasks : Asks cfg t a c) (hx : respond t x s c = (r, s')) :
    Scheduling s₀ (⟨.ran t c r, s, s'⟩ :: tr) s' := by
  have hdoes := respond_does hx
  have htended : ∀ {ref}, Tended tr s ref → Tended (⟨.ran t c r, s, s'⟩ :: tr) s' ref :=
    fun h => h.ran hsound htold hknown hasks hdoes
  refine ⟨?_, ?_, ?_, ?_, ?_⟩
  · intro t' a' ha' ref hscheduled
    obtain ⟨rfl, rfl⟩ | ⟨-, ha'⟩ := known_answered hknown ha'
    · obtain hscheduled | htended' := hscheduled.tended hx
      · exact htended (hi.heard t' a hknown ref hscheduled)
      · exact htended'
    · exact htended (hi.heard t' a' ha' ref hscheduled)
  · intro t' a' ha' ref hmem
    obtain ⟨rfl, rfl⟩ | ⟨-, ha'⟩ := known_answered hknown ha'
    · obtain heq | hmem := List.mem_cons.mp hmem
      · cases heq
        have hnone : s.record ref = none := ((respond_redis hx).1).symm
        cases hrecord : s₀.record ref with
        | none => rfl
        | some record =>
          rw [hstart.record ref record hrecord] at hnone
          cases hnone
      · exact hi.unmet t' a hknown ref hmem
    · exact hi.unmet t' a' ha' ref hmem
  · intro ref record hrecord hnone
    obtain hrecord | rfl := hdoes.record_of hrecord
    · exact htended (hi.met ref record hrecord hnone)
    · exact htended (hi.heard t a hknown ref hasks.scheduled)
  · intro t' a' ha' ref hrecord
    obtain ⟨rfl, rfl⟩ | ⟨hne, ha'⟩ := known_answered hknown ha'
    · obtain ⟨record, hrecord'⟩ := Option.isSome_iff_exists.mp hrecord
      exact (hi.scanned t' a hknown ref hrecord).ran hasks
        (by rw [hstart.record ref record hrecord']; rfl) hx
    · exact (hi.scanned t' a' ha' ref hrecord).other
        (hdoes.scans fun hid => hne (hids t' a' ha' hid))
  · intro ref record hown hrecord hmarked
    obtain hmarked | rfl := hdoes.backfilled hmarked
    · exact htended (hi.passed ref record hown hrecord hmarked)
    · exact htended (MayMark.tended hasks hi hknown hsound htold hown hrecord rfl)

theorem Scheduling.lapsed (hi : Scheduling s₀ tr s) (hlapsed : Lapsed s s') (hs : Later s s')
    (hne : ∀ t (c : Cmd) (r : Except Code (Ans c)), e.label ≠ .ran t c r) :
    Scheduling s₀ (e :: tr) s' := by
  have htended : ∀ {ref}, Tended tr s ref → Tended (e :: tr) s' ref := fun h => h.lapsed hlapsed hs
  refine ⟨?_, ?_, ?_, ?_, ?_⟩
  · intro t a ha ref hscheduled
    obtain rfl | ha := known_silent hne ha
    · obtain ⟨_, _, hmem⟩ | ⟨_, hmem⟩ := hscheduled <;> cases hmem
    · exact htended (hi.heard t a ha ref hscheduled)
  · intro t a ha ref hmem
    obtain rfl | ha := known_silent hne ha
    · cases hmem
    · exact hi.unmet t a ha ref hmem
  · intro ref record hrecord hnone
    rw [State.record, hlapsed.records] at hrecord
    exact htended (hi.met ref record hrecord hnone)
  · intro t a ha ref hrecord
    obtain rfl | ha := known_silent hne ha
    · rintro - ⟨cursor, r, hmem⟩
      cases hmem
    · exact (hi.scanned t a ha ref hrecord).other (by rw [hlapsed.scans])
  · intro ref record hown hrecord hmarked
    rw [hlapsed.backfilled] at hmarked
    exact htended (hi.passed ref record hown hrecord hmarked)

theorem Initial.scheduling (h0 : Initial s₀) : Scheduling s₀ [] s₀ where
  heard t a ha := by cases ha
  unmet t a ha := by cases ha
  met ref record hrecord hnone := by
    rw [hnone] at hrecord
    cases hrecord
  scanned t a ha := by cases ha
  passed ref record hown hrecord hmarked := by
    rw [h0.fresh] at hmarked
    cases hmarked

theorem backend_schedules (h0 : Initial s₀) (h : PoolRun (backend cfg) ⟨s₀, []⟩ tr pool) :
    Scheduling s₀ tr pool.state := by
  refine Run.invariant (I := fun tr c => Scheduling s₀ tr c.state) h h0.scheduling ?_
  intro tr b e c hpre hi hs
  obtain ⟨-, hsound, hknown⟩ := backend_invariant (I := fun _ _ => True) hpre h0 trivial
    fun _ _ _ _ _ _ _ _ => trivial
  have hm : Move (backend cfg) (Asks cfg) (Ends cfg) tr b.state e c.state := by
    refine backend_numbered.move hpre hs ?_
    rintro tags s t p s' ⟨-, -, rfl, -⟩
    exact yields_prog cfg t
  obtain ⟨t, a, c, r, x, ha, hasks, hx, rfl⟩ | ⟨hlapsed, hlater, hne⟩ := backend_cases hm
  · exact hi.ran (run_later hpre) hsound ha
      (fun t' a' ha' hid => backend_numbered.known_unique hpre ha ha' hid) (hknown t a ha).2 hasks hx
  · exact hi.lapsed hlapsed hlater hne

/-! ## Listings -/

/-- No task becomes listed once the judge has looked for its listing. -/
def ListedInTime (earlier : List (Ev cfg)) (e : Ev cfg) : Prop :=
  ∀ ref, e.pre.listings ref = none → (e.post.listings ref).isSome = true →
    ¬ LookedInVain earlier ref

theorem unlisted_stays (h : PoolRun (backend cfg) ⟨s₀, []⟩ tr pool)
    (hlisted : Throughout ListedInTime tr) (hvain : LookedInVain tr ref) :
    pool.state.listings ref = none := by
  have hall : Throughout ListedInTime tr → LookedInVain tr ref → pool.state.listings ref = none := by
    refine Run.invariant (I := fun tr c => Throughout ListedInTime tr → LookedInVain tr ref →
      c.state.listings ref = none) h ?_ ?_
    · rintro - ⟨e, he, -⟩
      cases he
    · intro tr b e c _ hb hs hthroughout hvain
      obtain ⟨hpre, hpost⟩ := hs.states
      by_cases hbefore : LookedInVain tr ref
      · have hnone := hb hthroughout.tail hbefore
        have hstill := hthroughout.head ref (by rw [hpre]; exact hnone)
        rw [hpost] at hstill
        simpa using fun hsome => hstill hsome hbefore
      · obtain ⟨e', he', t, record, hjudge, href, hlabel⟩ := hvain
        obtain rfl | he' := List.mem_cons.mp he'
        · cases hs with
          | run l₁ l₂ t' cmd k r hx =>
            cases hlabel
            obtain ⟨x, hx⟩ := hx
            obtain ⟨hanswer, rfl⟩ := respond_ok hx
            rw [href]
            exact Except.ok.inj hanswer
          | _ => cases hlabel
        · exact absurd ⟨e', he', t, record, hjudge, href, hlabel⟩ hbefore
  exact hall hlisted hvain

/-- The escrow counts a submission it holds. -/
theorem Committed.counted {submitter : Address} {hash : Bytes32}
    (h : Committed s ref submitter hash) :
    (s.escrows ref.scope.chain).escrow.submissionCount ref.taskId ≠ 0 := by
  obtain ⟨-, heq, hne⟩ := h
  obtain ⟨l, -, hlength, hmem⟩ := (s.escrows ref.scope.chain).submitters ref.taskId
  have hin : submitter ∈ l := (hmem submitter).mpr (by rwa [heq])
  rw [← hlength]
  exact (List.length_pos_of_mem hin).ne'

/-- The task of a handled event is on record. -/
theorem handled_recorded {later earlier : List (Ev cfg)} {v : Response} {chain : TaskChain}
    {taskId count : Nat} {submitter : Address} {hash : Bytes32} (h0 : Initial s₀)
    (h : PoolRun (backend cfg) ⟨s₀, []⟩ (later ++ e :: earlier) pool)
    (hlabel : e.label = .finished t (.ok v))
    (hop : t.op = .handle chain (.openSubmission taskId submitter hash count)) :
    (pool.state.record (cfg.taskRef chain taskId)).isSome = true ∧
      Committed pool.state (cfg.taskRef chain taskId) submitter hash := by
  obtain ⟨a, ha, hshown, hready, htold⟩ := backend_finished h h0 hlabel
  refine ⟨?_, hready.committed hop⟩
  simp only [Shown, hop] at hshown
  obtain ⟨openTask, hopen, hclosed⟩ | ⟨⟨record, hmem⟩ | ⟨record, saved, hmem⟩, -⟩ := hshown
  · obtain ⟨_, _, hshows⟩ := htold.mem hopen
    rw [hshows (.inl ⟨_, hop, rfl⟩)] at hclosed
    cases hclosed
  · obtain ⟨_, _, hrecord⟩ := htold.mem hmem
    rw [hrecord]
    rfl
  · obtain ⟨_, _, hrecord⟩ := htold.mem hmem
    exact hrecord

/-- A listed task with a handled submission stays on its network's list while the escrow waits for
a judge and no outcome is recorded, unless the judge left it for the admin: in every run in which
no task is listed only after the judge has looked. One on record before the start is there once
the pass over its network is through. -/
theorem stays_due (h0 : Initial s₀) (h : PoolRun (backend cfg) ⟨s₀, []⟩ tr pool)
    (hlisted : Throughout ListedInTime tr) (e : Ev cfg) (he : e ∈ tr) (t : Call) (v : Response)
    (hlabel : e.label = .finished t (.ok v)) (chain : TaskChain) (taskId : Nat) (submitter : Address)
    (hash : Bytes32) (count : Nat)
    (hop : t.op = .handle chain (.openSubmission taskId submitter hash count))
    (hknown : s₀.record (cfg.taskRef chain taskId) = none ∨
      pool.state.backfilled (cfg.chainScope chain) = true)
    (hlisting : (pool.state.listings (cfg.taskRef chain taskId)).isSome = true) (p : OpenPhase)
    (hp : (pool.state.escrows chain).phase taskId = .ok p)
    (hbefore : p.rank < OpenPhase.adminResolve.rank)
    (hopen : pool.state.outcomes (cfg.taskRef chain taskId) = none) :
    pool.state.due (cfg.taskRef chain taskId) ∨ cfg.taskRef chain taskId ∈ pool.state.left := by
  have hschedules := backend_schedules h0 h
  obtain ⟨later, earlier, htr⟩ := List.append_of_mem he
  obtain ⟨hrecorded, hcommitted⟩ := handled_recorded h0 (htr ▸ h) hlabel hop
  have htended : Tended tr pool.state (cfg.taskRef chain taskId) := by
    obtain ⟨record, hrecord⟩ := Option.isSome_iff_exists.mp hrecorded
    cases hstart : s₀.record (cfg.taskRef chain taskId) with
    | none => exact hschedules.met _ record hrecord hstart
    | some record₀ =>
      refine hschedules.passed _ record₀ (own_taskRef cfg chain taskId) hstart ?_
      exact hknown.resolve_left (by simp [hstart])
  obtain hdue | hreleased := htended
  · exact .inl hdue
  · cases hreleased with
    | outcome h =>
      rw [hopen] at h
      cases h
    | past p' hp' hle =>
      have heq : p' = p := Except.ok.inj (hp'.symm.trans hp)
      rw [heq] at hle
      omega
    | empty p' hp' hne hcount => exact absurd hcount hcommitted.counted
    | left h => exact .inr h
    | unlisted hvain =>
      rw [unlisted_stays h hlisted hvain] at hlisting
      cases hlisting

/-! ## Two orders -/

/-- 20 submits, and the windows before the backup judge's pass. -/
def oneSubmission : List BlindEscrow.Cue :=
  demoOpen ++ [.send ⟨20, 0, .submitOpen 1 9⟩, .wait 183600]

def demoListing : A2ATaskMeta := ⟨some 10, some 11, some 8200, none⟩

/-- The submission's event, handled. -/
def recorded : List (Cue Call Turn Env) :=
  ([.enter ⟨0, 0, 0, .handle .base (.openSubmission 1 20 9 1)⟩] : Cues) ++ plain 0 14 ++
    ([.leave 0] : Cues)

def listedFirst : List (Cue Call Turn Env) := .move (.listing demoRef (some demoListing)) :: recorded

/-- The judge comes first, and the listing after it. -/
def listedLate : List (Cue Call Turn Env) :=
  recorded ++
  ([.enter ⟨1, 0, 0, .judge⟩, .turn 0 { number := 184600 }, .turn 0 { flag := true },
    .turn 0 {}, .turn 0 { refs := [demoRef] }] : Cues) ++ plain 0 12 ++
  ([.leave 0, .move (.listing demoRef (some demoListing))] : Cues)

/-- No listing has been looked for in vain. -/
def noneInVain (earlier : List (Ev demoConfig)) (_ : Ev demoConfig) : Bool :=
  earlier.all fun e => match e.label with
    | .ran _ (.listingOf _) (.ok none) => false
    | _ => true

theorem noneInVain_listedInTime {earlier : List (Ev demoConfig)} {e : Ev demoConfig}
    (h : noneInVain earlier e = true) : ListedInTime earlier e := by
  rintro ref - - ⟨e', he', t, record, -, -, hlabel⟩
  have hother := List.all_eq_true.mp h e' he'
  rw [hlabel] at hother
  cases hother

theorem listedFirst_plays :
    ((stage demoConfig).play listedFirst ⟨demoStart oneSubmission, []⟩).isSome = true := by decide

theorem listedLate_plays :
    ((stage demoConfig).play listedLate ⟨demoStart oneSubmission, []⟩).isSome = true := by decide

/-- 20's event is handled. -/
def handles20 (e : Ev demoConfig) : Bool :=
  match e.label with
  | .finished ⟨0, 0, 0, .handle .base (.openSubmission 1 20 9 1)⟩ (.ok _) => true
  | _ => false

theorem handles20_finished {e : Ev demoConfig} (h : handles20 e = true) :
    ∃ v, e.label = .finished ⟨0, 0, 0, .handle .base (.openSubmission 1 20 9 1)⟩ (.ok v) := by
  unfold handles20 at h
  split at h
  · next v hlabel => exact ⟨v, hlabel⟩
  · cases h

theorem stays_due_listedFirst :
    (((stage demoConfig).play listedFirst ⟨demoStart oneSubmission, []⟩).get
      listedFirst_plays).2.state.due demoRef ∨
    demoRef ∈ (((stage demoConfig).play listedFirst ⟨demoStart oneSubmission, []⟩).get
      listedFirst_plays).2.state.left := by
  have hhandled : (((stage demoConfig).play listedFirst ⟨demoStart oneSubmission, []⟩).get
      listedFirst_plays).1.any handles20 = true := by decide
  obtain ⟨e, he, hhandles⟩ := List.any_eq_true.mp hhandled
  obtain ⟨v, hlabel⟩ := handles20_finished hhandles
  exact stays_due (demoStart_initial oneSubmission) (Stage.play_get listedFirst_plays)
    (throughout_of_everywhere (fun _ _ => noneInVain_listedInTime) (by decide)) e he _ v hlabel
    .base 1 20 9 1 rfl (.inl rfl) (by decide) .backupPick (by decide) (by decide) (by decide)

/-- Listed after the judge has looked, the task is off the list while the backup judge's window
lasts, and was not left for the admin. -/
theorem stays_due_fails : ∃ tr pool,
    PoolRun (backend demoConfig) ⟨demoStart oneSubmission, []⟩ tr pool ∧
    (∃ e ∈ tr, ∃ v,
      e.label = .finished ⟨0, 0, 0, .handle .base (.openSubmission 1 20 9 1)⟩ (.ok v)) ∧
    (pool.state.listings demoRef).isSome = true ∧
    (pool.state.escrows .base).phase 1 = .ok .backupPick ∧ pool.state.outcomes demoRef = none ∧
    ¬ pool.state.due demoRef ∧ pool.state.left = [] ∧ pool.threads.length = 0 := by
  have hhandled : (((stage demoConfig).play listedLate ⟨demoStart oneSubmission, []⟩).get
      listedLate_plays).1.any handles20 = true := by decide
  obtain ⟨e, he, hhandles⟩ := List.any_eq_true.mp hhandled
  exact ⟨_, _, Stage.play_get listedLate_plays, ⟨e, he, handles20_finished hhandles⟩, by decide,
    by decide, by decide, by simp only [State.due]; decide, by decide, by decide⟩

end OpenSubmissions

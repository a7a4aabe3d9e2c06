import BlindMarket.ArcEvents.System

/-!
# The cancel and open-submission scans

One tick at a time is at its follow-ups, so what it read of a checkpoint
still stands when it sets it: what lies between has been handled by then.
-/
namespace ArcEvents

open Async Prog Runs

/-- The two scans that keep a checkpoint in Redis and handle what they find. -/
inductive Scan where
  | cancels | opens
  deriving DecidableEq, Repr

namespace Scan

def key : Scan → Key
  | cancels => .cancel
  | opens => .open

def filter : Scan → Filter
  | cancels => .taskCancelled
  | opens => .openEvents

/-- A log the scan's handler is called for. -/
def due : Scan → Log → Bool
  | cancels, ev => ev.args.isSome
  | opens, ev => ev.eventName.isSome

def handle : Scan → Log → Cmd
  | cancels, ev => .handleTaskCancelled ev
  | opens, ev => .handleOpenEvent ev

/-- The handler returned without error. -/
def handled : Scan → Log → (c : Cmd) × Except Failure (Ans c)
  | cancels, ev => ⟨.handleTaskCancelled ev, .ok ()⟩
  | opens, ev => ⟨.handleOpenEvent ev, .ok ()⟩

end Scan

variable {cfg : Config} {chain : Chain} {k : Scan}

abbrev Replies := Answers Ans Failure

/-! ## What a tick has been told -/

/-- Between entering the follow-ups and leaving them. -/
def entered : Replies → Bool
  | [] => false
  | ⟨.enterFollowUps, .ok true⟩ :: _ => true
  | ⟨.leaveFollowUps, _⟩ :: _ => false
  | _ :: h => entered h

/-- A command of the scan. -/
def Touches : Scan → Cmd → Prop
  | .cancels, .get .cancel => True
  | .cancels, .set .cancel _ => True
  | .cancels, .queryFilter _ .taskCancelled _ _ => True
  | .cancels, .handleTaskCancelled _ => True
  | .opens, .get .open => True
  | .opens, .set .open _ => True
  | .opens, .queryFilter _ .openEvents _ _ => True
  | .opens, .handleOpenEvent _ => True
  | .opens, .now => True
  | _, _ => False

def Untouched (k : Scan) (h : Replies) : Prop := ∀ a ∈ h, ¬ Touches k a.1

def Unset (k : Scan) (h : Replies) : Prop := ∀ v r, ⟨Cmd.set k.key v, r⟩ ∉ h

/-- Every range that was answered was answered in full, and the clock was read. -/
structure Truthful (chain : Chain) (h : Replies) : Prop where
  logs : ∀ archive filter fromBlock toBlock logs,
    ⟨Cmd.queryFilter archive filter fromBlock toBlock, .ok logs⟩ ∈ h →
      logs = chain.queryFilter filter fromBlock toBlock
  now : ∀ e, ⟨Cmd.now, .error e⟩ ∉ h

/-- The scan has its checkpoint and asks from the block after it. -/
structure Asks (k : Scan) (h : Replies) (fromBlock : Int) : Prop where
  unset : Unset k h
  got : ∃ checkpoint, ⟨Cmd.get k.key, .ok checkpoint⟩ ∈ h ∧
    ∀ v, checkpoint = some v → fromBlock = v + 1
  asked : ∀ archive f t r, ⟨Cmd.queryFilter archive k.filter f t, r⟩ ∈ h → f = fromBlock

/-- Everything from the block after the checkpoint up to a block has been handled. -/
def Scanned (chain : Chain) (k : Scan) (h : Replies) (v : Int) : Prop :=
  ∃ fromBlock toBlock archive, Asks k h fromBlock ∧
    ⟨Cmd.queryFilter archive k.filter fromBlock toBlock,
      .ok (chain.queryFilter k.filter fromBlock toBlock)⟩ ∈ h ∧
    fromBlock - 1 ≤ v ∧ v ≤ toBlock ∧
    ∀ ev ∈ chain.queryFilter k.filter fromBlock toBlock, ev.block ≤ v → k.due ev = true →
      k.handled ev ∈ h

/-- What a tick asks for, and what it knows when it does. -/
structure Proper (chain : Chain) (h : Replies) (c : Cmd) : Prop where
  enter : c = .enterFollowUps → ∀ k, Untouched k h
  leave : c = .leaveFollowUps → entered h = true
  setNx : ∀ key v, c = .setNx key v → key = .dispute
  touch : ∀ k, Touches k c → entered h = true
  query : ∀ k archive f t, c = .queryFilter archive k.filter f t → Asks k h f
  set : ∀ k v, c = .set k.key v → Truthful chain h → Scanned chain k h v

/-- The clock readings, newest first. -/
def times : Replies → List Int
  | [] => []
  | ⟨.now, .ok n⟩ :: h => n :: times h
  | _ :: h => times h

/-- At the first event the budget is not used up. -/
def InBudget (h : Replies) : Prop :=
  match (times h).reverse with
  | startedAt :: now :: _ => now - startedAt ≤ OPEN_SCAN_BUDGET_MS
  | _ => True

/-- The scan's handlers returned without error: all of them, or for open submissions those of the
first block, to which the budget left time. -/
def HandledFirst (chain : Chain) (fromBlock : Int) (h : Replies) : Scan → Prop
  | .cancels => ∀ ev r, ⟨Cmd.handleTaskCancelled ev, r⟩ ∈ h → r = .ok ()
  | .opens => (∀ ev r, ⟨Cmd.handleOpenEvent ev, r⟩ ∈ h → ev.block = fromBlock → r = .ok ()) ∧
      (chain.logs .openEvents fromBlock ≠ [] → InBudget h)

/-- The Redis commands of the scan and the handlers it needs went well. -/
structure Clear (chain : Chain) (k : Scan) (fromBlock : Int) (h : Replies) : Prop where
  get : ∀ e, ⟨Cmd.get k.key, .error e⟩ ∉ h
  set : ∀ v e, ⟨Cmd.set k.key v, .error e⟩ ∉ h
  handlers : HandledFirst chain fromBlock h k

/-- A scan that was told its logs has moved its checkpoint. -/
def Moves (chain : Chain) (k : Scan) (h : Replies) : Prop :=
  Truthful chain h → ∀ archive fromBlock toBlock logs,
    ⟨Cmd.queryFilter archive k.filter fromBlock toBlock, .ok logs⟩ ∈ h → Clear chain k fromBlock h →
      ∃ v, fromBlock ≤ v ∧ ⟨Cmd.set k.key v, .ok ()⟩ ∈ h

/-! ### Small facts -/

@[simp] theorem touches_get : Touches k (.get k.key) := by cases k <;> trivial

@[simp] theorem touches_set (v : Int) : Touches k (.set k.key v) := by cases k <;> trivial

@[simp] theorem touches_query (archive : Bool) (f t : Int) :
    Touches k (.queryFilter archive k.filter f t) := by cases k <;> trivial

@[simp] theorem touches_handle (ev : Log) : Touches k (k.handle ev) := by cases k <;> trivial

theorem Untouched.mono {h h' : Replies} (hu : Untouched k h') (hsuffix : h <:+ h') :
    Untouched k h := fun a ha => hu a (hsuffix.subset ha)

theorem entered_cons {c : Cmd} (r : Except Failure (Ans c)) (h : Replies)
    (henter : c ≠ .enterFollowUps) (hleave : c ≠ .leaveFollowUps) :
    entered (⟨c, r⟩ :: h) = entered h := by
  cases c <;> first | rfl | exact absurd rfl henter | exact absurd rfl hleave

theorem Truthful.mono {h h' : Replies} (ht : Truthful chain h') (hsuffix : h <:+ h') :
    Truthful chain h where
  logs archive filter f t logs hmem := ht.logs archive filter f t logs (hsuffix.subset hmem)
  now e hmem := ht.now e (hsuffix.subset hmem)

theorem Truthful.tail {a : (c : Cmd) × Except Failure (Ans c)} {h : Replies}
    (ht : Truthful chain (a :: h)) : Truthful chain h := ht.mono (List.suffix_cons _ _)

theorem Unset.cons {c : Cmd} {r : Except Failure (Ans c)} {h : Replies} (hu : Unset k h)
    (hc : ∀ v, c ≠ .set k.key v) : Unset k (⟨c, r⟩ :: h) := by
  intro v r' hmem
  rcases List.mem_cons.mp hmem with heq | hmem
  · cases heq
    exact hc v rfl
  · exact hu v r' hmem

theorem Untouched.unset {h : Replies} (hu : Untouched k h) : Unset k h :=
  fun v _ hmem => hu _ hmem (touches_set v)

theorem Asks.cons {c : Cmd} {r : Except Failure (Ans c)} {h : Replies} {f : Int}
    (ha : Asks k h f) (hset : ∀ v, c ≠ .set k.key v)
    (hquery : ∀ archive f' t, c = .queryFilter archive k.filter f' t → f' = f) :
    Asks k (⟨c, r⟩ :: h) f where
  unset := ha.unset.cons hset
  got := by
    obtain ⟨checkpoint, hmem, hfrom⟩ := ha.got
    exact ⟨checkpoint, List.mem_cons_of_mem _ hmem, hfrom⟩
  asked := by
    intro archive f' t r' hmem
    rcases List.mem_cons.mp hmem with heq | hmem
    · cases heq
      exact hquery archive f' t rfl
    · exact ha.asked archive f' t r' hmem

/-! ## What the scans do -/

/-- What a scan asks for, beside that it is a command of its own. -/
structure ScanProper (chain : Chain) (k : Scan) (h : Replies) (c : Cmd) : Prop where
  query : ∀ archive f t, c = .queryFilter archive k.filter f t → Asks k h f
  set : ∀ v, c = .set k.key v → Truthful chain h → Scanned chain k h v

def NoLogs (k : Scan) (h : Replies) : Prop :=
  ∀ archive f t logs, ⟨Cmd.queryFilter archive k.filter f t, .ok logs⟩ ∉ h

theorem NoLogs.moves {h : Replies} (hn : NoLogs k h) : Moves chain k h :=
  fun _ archive f t logs hmem => absurd hmem (hn archive f t logs)

theorem NoLogs.cons {c : Cmd} {r : Except Failure (Ans c)} {h : Replies} (hn : NoLogs k h)
    (hne : ∀ archive f t, c = .queryFilter archive k.filter f t → ∃ e, r = .error e) :
    NoLogs k (⟨c, r⟩ :: h) := by
  intro archive f t logs hmem
  rcases List.mem_cons.mp hmem with heq | hmem
  · cases heq
    obtain ⟨e, he⟩ := hne archive f t rfl
    cases he
  · exact hn archive f t logs hmem

theorem properOf_ne {h : Replies} {c : Cmd}
    (hquery : ∀ archive f t, c ≠ .queryFilter archive k.filter f t)
    (hset : ∀ v, c ≠ .set k.key v) : ScanProper chain k h c :=
  ⟨fun archive f t heq => absurd heq (hquery archive f t), fun v heq => absurd heq (hset v)⟩

/-- A query of the scan ends with the logs of its range, or has been told none. -/
theorem queryArcEscrowLogs_told {h : Replies} {f : Int} (t : Int) (ha : Asks k h f)
    (hn : NoLogs k h) : (queryArcEscrowLogs cfg k.filter f t).Told (ScanProper chain k)
      (fun h' r => Asks k h' f ∧ times h' = times h ∧ match r with
        | .ok logs => ∃ archive, ⟨Cmd.queryFilter archive k.filter f t, .ok logs⟩ ∈ h'
        | .error _ => NoLogs k h') h := by
  have hproper : ∀ {h : Replies} (archive : Bool), Asks k h f →
      ScanProper chain k h (.queryFilter archive k.filter f t) := by
    refine fun archive ha => ⟨fun archive' f' t' heq => ?_, fun v => nofun⟩
    cases heq
    exact ha
  have hcons : ∀ {h : Replies} (archive : Bool) (r : Except Failure (List Log)), Asks k h f →
      Asks k (⟨.queryFilter archive k.filter f t, r⟩ :: h) f := by
    refine fun archive r ha => ha.cons (fun v => nofun) fun archive' f' t' heq => ?_
    cases heq
    rfl
  have hnone : ∀ {h : Replies} (archive : Bool) (e : Failure), NoLogs k h →
      NoLogs k (⟨.queryFilter archive k.filter f t, .error e⟩ :: h) :=
    fun archive e hn => hn.cons fun _ _ _ _ => ⟨e, rfl⟩
  refine ⟨hproper false ha, fun r => ?_⟩
  rcases r with e | logs
  · cases e with
    | prunedHistory =>
      by_cases harchive : cfg.arcArchiveEscrow
      · simp only [done_andThen, harchive, if_true]
        refine ⟨hproper true (hcons false _ ha), fun r => ?_⟩
        refine ⟨hcons true r (hcons false _ ha), rfl, ?_⟩
        rcases r with e | logs
        · exact hnone true e (hnone false _ hn)
        · exact ⟨true, List.mem_cons_self⟩
      · simp only [done_andThen, harchive]
        exact ⟨hcons false _ ha, rfl, hnone false _ hn⟩
    | other => exact ⟨hcons false _ ha, rfl, hnone false _ hn⟩
  · exact ⟨hcons false _ ha, rfl, false, List.mem_cons_self⟩

theorem handleCancels_told (f : Int) : ∀ (events : List Log) {h : Replies}, Asks .cancels h f →
    (handleCancels events).Told (ScanProper chain .cancels)
      (fun h' r => Asks .cancels h' f ∧ match r with
        | .ok _ => ∀ ev ∈ events, ev.args.isSome → ⟨.handleTaskCancelled ev, .ok ()⟩ ∈ h'
        | .error _ => ∃ ev e, ⟨Cmd.handleTaskCancelled ev, .error e⟩ ∈ h') h := by
  intro events
  induction events with
  | nil => exact fun ha => ⟨ha, by simp⟩
  | cons ev events ih =>
    intro h ha
    by_cases hargs : ev.args.isSome
    · simp only [handleCancels, hargs, if_true]
      refine ⟨properOf_ne (fun _ _ _ => nofun) fun _ => nofun, fun r => ?_⟩
      have ha' : Asks .cancels (⟨.handleTaskCancelled ev, r⟩ :: h) f :=
        ha.cons (fun _ => nofun) fun _ _ _ => nofun
      rcases r with e | u
      · exact ⟨ha', ev, e, List.mem_cons_self⟩
      · refine (ih ha').suffix.mono (fun _ _ => id) fun h' r hq => ⟨hq.2.1, ?_⟩
        obtain ⟨hsuffix, -, hq⟩ := hq
        rcases r with e | u'
        · exact hq
        · intro ev' hev' hargs'
          rcases List.mem_cons.mp hev' with rfl | hev'
          · exact hsuffix.subset List.mem_cons_self
          · exact hq ev' hev' hargs'
    · simp only [handleCancels, hargs]
      refine (ih ha).mono (fun _ _ => id) fun h' r hq => ⟨hq.1, ?_⟩
      obtain ⟨-, hq⟩ := hq
      rcases r with e | u'
      · exact hq
      · intro ev' hev' hargs'
        rcases List.mem_cons.mp hev' with rfl | hev'
        · exact absurd hargs' hargs
        · exact hq ev' hev' hargs'

/-! ### Ranges of blocks -/

theorem mem_from {filter : Filter} {ev : Log} {n : Nat} {block : Int} :
    ev ∈ chain.from filter block n ↔
      block ≤ ev.block ∧ ev.block < block + n ∧ ev ∈ chain.logs filter ev.block := by
  induction n generalizing block with
  | zero =>
    simp only [Chain.from, List.not_mem_nil, false_iff]
    omega
  | succ n ih =>
    rw [Chain.from, List.mem_append, ih]
    constructor
    · rintro (hmem | ⟨hle, hlt, hmem⟩)
      · have hblock := chain.block_eq _ _ _ hmem
        subst hblock
        exact ⟨le_rfl, by omega, hmem⟩
      · exact ⟨by omega, by omega, hmem⟩
    · rintro ⟨hle, hlt, hmem⟩
      by_cases hblock : ev.block = block
      · exact .inl (hblock ▸ hmem)
      · exact .inr ⟨by omega, by omega, hmem⟩

theorem mem_queryFilter {filter : Filter} {f t : Int} {ev : Log} :
    ev ∈ chain.queryFilter filter f t ↔ f ≤ ev.block ∧ ev.block ≤ t ∧
      ev ∈ chain.logs filter ev.block := by
  rw [Chain.queryFilter, mem_from]
  constructor
  · rintro ⟨hle, hlt, hmem⟩
    exact ⟨hle, by omega, hmem⟩
  · rintro ⟨hle, hlt, hmem⟩
    exact ⟨hle, by omega, hmem⟩

theorem from_sorted (filter : Filter) (n : Nat) (block : Int) :
    (chain.from filter block n).Pairwise fun ev ev' => ev.block ≤ ev'.block := by
  induction n generalizing block with
  | zero => exact .nil
  | succ n ih =>
    refine List.pairwise_append.mpr ⟨?_, ih _, fun ev hev ev' hev' => ?_⟩
    · refine List.pairwise_of_forall_mem_list fun ev hev ev' hev' => ?_
      rw [chain.block_eq _ _ _ hev, chain.block_eq _ _ _ hev']
    · have hblock := chain.block_eq _ _ _ hev
      have hle := (mem_from.mp hev').1
      omega

/-! ### The cancel scan -/

theorem asks_got {h : Replies} (hu : Untouched k h) (checkpoint : Option Int) (indexedTo : Int) :
    Asks k (⟨.get k.key, .ok checkpoint⟩ :: h) ((checkpoint.map (· + 1)).getD indexedTo) where
  unset := hu.unset.cons fun _ => nofun
  got := by
    refine ⟨checkpoint, List.mem_cons_self, fun v hv => ?_⟩
    rw [hv]
    rfl
  asked := by
    intro archive f t r hmem
    rcases List.mem_cons.mp hmem with heq | hmem
    · cases heq
    · exact absurd (touches_query archive f t) (hu _ hmem)

theorem Untouched.noLogs {h : Replies} (hu : Untouched k h) : NoLogs k h :=
  fun archive f t _ hmem => hu _ hmem (touches_query archive f t)

/-- The set that ends a scan: its range is handled, and if it goes well the scan has moved. -/
theorem set_told {h : Replies} {f t : Int} {archive : Bool} {logs : List Log} (ha : Asks k h f)
    (hlogs : ⟨Cmd.queryFilter archive k.filter f t, .ok logs⟩ ∈ h) (hle : f ≤ t)
    (hhandled : ∀ ev ∈ logs, k.due ev = true → k.handled ev ∈ h) :
    (do let _ ← call (Cmd.set k.key t) : Listener Unit).Told (ScanProper chain k)
      (fun h' _ => Moves chain k h') h := by
  refine ⟨⟨fun _ _ _ => nofun, fun v heq htruth => ?_⟩, fun r => ?_⟩
  · cases heq
    have hlogs' := htruth.logs _ _ _ _ _ hlogs
    rw [hlogs'] at hlogs hhandled
    exact ⟨f, t, archive, ha, hlogs, by omega, le_rfl, fun ev hev _ => hhandled ev hev⟩
  · rcases r with e | u
    · intro _ archive' f' t' logs' _ hclear
      exact absurd List.mem_cons_self (hclear.set t e)
    · intro _ archive' f' t' logs' hmem _
      rcases List.mem_cons.mp hmem with heq | hmem
      · cases heq
      · rw [ha.asked _ _ _ _ hmem]
        exact ⟨t, hle, List.mem_cons_self⟩

theorem indexCancels_told {h : Replies} (indexedTo : Int) (hu : Untouched .cancels h) :
    (indexCancels cfg indexedTo).Told (ScanProper chain .cancels)
      (fun h' _ => Moves chain .cancels h') h := by
  unfold indexCancels
  by_cases harc : cfg.arcEscrow
  swap
  · simp only [harc]
    exact hu.noLogs.moves
  simp only [harc, Bool.not_true, Bool.false_eq_true, if_false]
  refine Told.bind (Q := fun h' _ => Moves chain .cancels h') (Told.attempt
    (Q := fun h' _ => Moves chain .cancels h') ?_ fun _ _ _ => id) (fun _ _ _ => id) fun _ _ _ => id
  refine ⟨properOf_ne (fun _ _ _ => nofun) fun _ => nofun, fun r => ?_⟩
  have hn : NoLogs .cancels (⟨.get .cancel, r⟩ :: h) := hu.noLogs.cons fun _ _ _ => nofun
  rcases r with e | checkpoint
  · exact hn.moves
  have ha := asks_got hu checkpoint indexedTo
  simp only [done_andThen]
  generalize (checkpoint.map (· + 1)).getD indexedTo = f at ha ⊢
  split
  · exact hn.moves
  · next hle =>
    refine (queryArcEscrowLogs_told _ ha hn).bind (fun h' logs _ hq => ?_)
      fun h' e _ hq => NoLogs.moves hq.2.2
    obtain ⟨ha', -, archive, hlogs⟩ := hq
    refine (handleCancels_told f logs ha').bind (fun h'' u hsuffix hq => ?_) fun h'' e _ hq => ?_
    · exact set_told hq.1 (hsuffix.subset hlogs) (by omega) hq.2
    · obtain ⟨-, ev, e', hmem⟩ := hq
      exact fun _ _ _ _ _ _ hclear => nomatch hclear.handlers ev _ hmem

/-! ### The open-submission scan -/

/-- An open-submission scan inside its range: what comes before `events` is handled. -/
structure Along (chain : Chain) (h : Replies) (f t : Int) (archive : Bool) (logs done events : List Log)
    (block startedAt : Int) : Prop where
  asks : Asks .opens h f
  told : ⟨Cmd.queryFilter archive .openEvents f t, .ok logs⟩ ∈ h
  split : logs = done ++ events
  handled : ∀ ev ∈ done, ev.eventName.isSome → ⟨.handleOpenEvent ev, .ok ()⟩ ∈ h
  block : Truthful chain h →
    (block = f - 1 ∧ times h = [startedAt]) ∨ (f ≤ block ∧ ∃ ev ∈ done, ev.block = block)

variable {h : Replies} {f t block startedAt : Int} {archive : Bool} {logs done events : List Log}
  {ev : Log}

theorem Along.mem (ha : Along chain h f t archive logs done (ev :: events) block startedAt)
    (htruth : Truthful chain h) : ev ∈ chain.logs .openEvents ev.block := by
  have hev : ev ∈ chain.queryFilter .openEvents f t := by
    rw [← htruth.logs _ _ _ _ _ ha.told, ha.split]
    simp
  exact (mem_queryFilter.mp hev).2.2

/-- In an answer that is true the next event is in the range and no earlier than those before. -/
theorem Along.sorted (ha : Along chain h f t archive logs done (ev :: events) block startedAt)
    (htruth : Truthful chain h) : f ≤ ev.block ∧ ev.block ≤ t ∧ block ≤ ev.block ∧
      ∀ ev' ∈ events, ev.block ≤ ev'.block := by
  have hlogs := htruth.logs _ _ _ _ _ ha.told
  have hev : ev ∈ chain.queryFilter .openEvents f t := by
    rw [← hlogs, ha.split]
    simp
  obtain ⟨hle, hlt, -⟩ := mem_queryFilter.mp hev
  have hsorted := @from_sorted chain .openEvents (t + 1 - f).toNat f
  rw [← Chain.queryFilter, ← hlogs, ha.split] at hsorted
  obtain ⟨-, hright, hcross⟩ := List.pairwise_append.mp hsorted
  refine ⟨hle, hlt, ?_, (List.pairwise_cons.mp hright).1⟩
  obtain ⟨hblock, -⟩ | ⟨-, ev', hev', rfl⟩ := ha.block htruth
  · omega
  · exact hcross ev' hev' ev List.mem_cons_self

/-- A checkpoint set just before the block of the next event. -/
theorem Along.scanned {h' : Replies}
    (ha : Along chain h f t archive logs done (ev :: events) block startedAt) (hsuffix : h <:+ h')
    (hasks : Asks .opens h' f) (htruth : Truthful chain h) :
    Scanned chain .opens h' (ev.block - 1) := by
  obtain ⟨hle, hlt, -, hrest⟩ := ha.sorted htruth
  have hlogs := htruth.logs _ _ _ _ _ ha.told
  have htold := ha.told
  rw [hlogs] at htold
  refine ⟨f, t, archive, hasks, hsuffix.subset htold, by omega, by omega,
    fun ev' hev' hblock hdue => hsuffix.subset ?_⟩
  replace hev' : ev' ∈ logs := hlogs ▸ hev'
  rw [ha.split] at hev'
  rcases List.mem_append.mp hev' with hev' | hev'
  · exact ha.handled ev' hev' hdue
  · rcases List.mem_cons.mp hev' with rfl | hev'
    · omega
    · have := hrest ev' hev'
      omega

/-- Answers that are not of the queries and sets leave the scan where it is. -/
theorem Along.cons {c : Cmd} {r : Except Failure (Ans c)}
    (ha : Along chain h f t archive logs done events block startedAt) (hset : ∀ v, c ≠ .set .open v)
    (hquery : ∀ archive f t, c ≠ .queryFilter archive .openEvents f t) (hnow : c ≠ .now) :
    Along chain (⟨c, r⟩ :: h) f t archive logs done events block startedAt where
  asks := ha.asks.cons hset fun archive f' t heq => absurd heq (hquery archive f' t)
  told := List.mem_cons_of_mem _ ha.told
  split := ha.split
  handled ev hev hdue := List.mem_cons_of_mem _ (ha.handled ev hev hdue)
  block htruth := by
    have htimes : times (⟨c, r⟩ :: h) = times h := by
      cases c <;> first | rfl | exact absurd rfl hnow
    rw [htimes]
    exact ha.block htruth.tail

/-- The scan goes on past an event. -/
theorem Along.next {h' : Replies} {block' : Int}
    (ha : Along chain h f t archive logs done (ev :: events) block startedAt) (hsuffix : h <:+ h')
    (hasks : Asks .opens h' f)
    (hev : ev.eventName.isSome → ⟨.handleOpenEvent ev, .ok ()⟩ ∈ h')
    (hblock : Truthful chain h' → f ≤ block' ∧ ev.block = block') :
    Along chain h' f t archive logs (done ++ [ev]) events block' startedAt where
  asks := hasks
  told := hsuffix.subset ha.told
  split := by rw [ha.split, List.append_assoc, List.singleton_append]
  handled ev' hev' hdue := by
    rcases List.mem_append.mp hev' with hev' | hev'
    · exact hsuffix.subset (ha.handled ev' hev' hdue)
    · cases List.mem_singleton.mp hev'
      exact hev hdue
  block htruth := .inr ⟨(hblock htruth).1, ev, by simp, (hblock htruth).2⟩

/-- How a run over the events of a range ends. -/
def OpensEnd (chain : Chain) (f t : Int) (archive : Bool) (logs : List Log) (h : Replies) :
    Except Failure Bool → Prop
  | .ok true => Asks .opens h f ∧
      ⟨Cmd.queryFilter archive .openEvents f t, .ok logs⟩ ∈ h ∧
      ∀ ev ∈ logs, ev.eventName.isSome → ⟨.handleOpenEvent ev, .ok ()⟩ ∈ h
  | _ => Moves chain .opens h

/-- The handler of one event, once the clock has been looked at. -/
theorem handleOpen_told {h' : Replies} {block' : Int}
    (ha : Along chain h f t archive logs done (ev :: events) block startedAt) (hsuffix : h <:+ h')
    (hasks : Asks .opens h' f) (hblock : Truthful chain h' → f ≤ block' ∧ ev.block = block') :
    (handleOpen f block' ev).Told (ScanProper chain .opens) (fun h r => match r with
      | .ok _ => Along chain h f t archive logs (done ++ [ev]) events block' startedAt
      | .error _ => Moves chain .opens h) h' := by
  unfold handleOpen
  by_cases hdue : ev.eventName.isSome
  swap
  · simp only [hdue]
    exact ha.next hsuffix hasks (fun h => absurd h hdue) hblock
  simp only [hdue, if_true]
  refine ⟨properOf_ne (fun _ _ _ => nofun) fun _ => nofun, fun r => ?_⟩
  have hasks' : Asks .opens (⟨.handleOpenEvent ev, r⟩ :: h') f :=
    hasks.cons (fun _ => nofun) fun _ _ _ => nofun
  have hsuffix' : h <:+ ⟨.handleOpenEvent ev, r⟩ :: h' := hsuffix.trans (List.suffix_cons _ _)
  rcases r with e | u
  swap
  · exact ha.next hsuffix' hasks' (fun _ => List.mem_cons_self) fun htruth => hblock htruth.tail
  simp only [done_andThen]
  have hlater : ∀ {l : Replies}, ⟨Cmd.handleOpenEvent ev, .error e⟩ ∈ l →
      HandledFirst chain f l .opens → Truthful chain h' → f ≤ block' - 1 := by
    intro l hmem hfirst htruth
    obtain ⟨hle, hev⟩ := hblock htruth
    have hne : ev.block ≠ f := fun heq => nomatch hfirst.1 ev _ hmem heq
    omega
  split
  · refine ⟨⟨fun _ _ _ => nofun, fun v heq htruth => ?_⟩, fun r => ?_⟩
    · cases heq
      rw [← (hblock htruth.tail).2]
      exact ha.scanned hsuffix' hasks' (htruth.mono hsuffix')
    · rcases r with e' | u
      · exact fun _ _ _ _ _ _ hclear => absurd List.mem_cons_self (hclear.set _ e')
      · intro htruth archive' f' t' logs' hmem hclear
        have hf : f' = f := by
          rcases List.mem_cons.mp hmem with heq | hmem
          · cases heq
          · exact hasks'.asked _ _ _ _ hmem
        subst hf
        exact ⟨_, hlater (List.mem_cons_of_mem _ List.mem_cons_self) hclear.handlers
          htruth.tail.tail, List.mem_cons_self⟩
  · intro htruth archive' f' t' logs' hmem hclear
    have hf := hasks'.asked _ _ _ _ hmem
    subst hf
    exact absurd (hlater List.mem_cons_self hclear.handlers htruth.tail) (by omega)

theorem handleOpens_told : ∀ (events : List Log) {h : Replies} {block : Int} {done : List Log},
    Along chain h f t archive logs done events block startedAt →
    (handleOpens f startedAt block events).Told (ScanProper chain .opens)
      (OpensEnd chain f t archive logs) h := by
  intro events
  induction events with
  | nil =>
    intro h block done ha
    refine ⟨ha.asks, ha.told, fun ev hev hdue => ha.handled ev ?_ hdue⟩
    rwa [ha.split, List.append_nil] at hev
  | cons ev events ih =>
    intro h block done ha
    have hrest : ∀ {h' : Replies} {block' : Int}, h <:+ h' → Asks .opens h' f →
        (Truthful chain h' → f ≤ block' ∧ ev.block = block') →
        (do handleOpen f block' ev; handleOpens f startedAt block' events : Listener Bool).Told
          (ScanProper chain .opens) (OpensEnd chain f t archive logs) h' :=
      fun hsuffix hasks hblock => (handleOpen_told ha hsuffix hasks hblock).bind
        (fun _ _ _ ha' => ih ha') fun _ _ _ hm => hm
    rw [handleOpens]
    by_cases hnew : ev.block > block
    · simp only [if_pos hnew]
      refine ⟨properOf_ne (fun _ _ _ => nofun) fun _ => nofun, fun r => ?_⟩
      rcases r with e | now
      · exact fun htruth => absurd List.mem_cons_self (htruth.now e)
      have hasks : Asks .opens (⟨.now, .ok now⟩ :: h) f :=
        ha.asks.cons (fun _ => nofun) fun _ _ _ => nofun
      by_cases hover : now - startedAt > OPEN_SCAN_BUDGET_MS
      · simp only [done_andThen, pure_eq_done, hover, decide_true, if_true]
        refine ⟨⟨fun _ _ _ => nofun, fun v heq htruth => ?_⟩, fun r => ?_⟩
        · cases heq
          exact ha.scanned (List.suffix_cons _ _) hasks htruth.tail
        rcases r with e | u
        · exact fun _ _ _ _ _ _ hclear => absurd List.mem_cons_self (hclear.set _ e)
        · intro htruth archive' f' t' logs' hmem hclear
          have hf : f' = f := by
            rcases List.mem_cons.mp hmem with heq | hmem
            · cases heq
            · exact hasks.asked _ _ _ _ hmem
          subst hf
          refine ⟨ev.block - 1, ?_, List.mem_cons_self⟩
          obtain ⟨hblock, htimes⟩ | ⟨hblock, -⟩ := ha.block htruth.tail.tail
          · obtain ⟨hle, -⟩ := ha.sorted htruth.tail.tail
            have hne : ev.block ≠ f' := by
              rintro rfl
              have hbudget : now - startedAt ≤ OPEN_SCAN_BUDGET_MS := by
                simpa [InBudget, times, htimes] using
                  hclear.handlers.2 (List.ne_nil_of_mem (ha.mem htruth.tail.tail))
              exact absurd hbudget (not_le.mpr hover)
            omega
          · omega
      · simp only [done_andThen, pure_eq_done, hover, decide_false, Bool.false_eq_true, if_false]
        exact hrest (List.suffix_cons _ _) hasks fun htruth => ⟨(ha.sorted htruth.tail).1, rfl⟩
    · simp only [if_neg hnew]
      refine hrest List.suffix_rfl ha.asks fun htruth => ?_
      obtain ⟨hle, -, hblock, -⟩ := ha.sorted htruth
      exact ⟨by omega, by omega⟩

theorem Untouched.times {h : Replies} (hu : Untouched .opens h) : times h = [] := by
  induction h with
  | nil => rfl
  | cons a h ih =>
    obtain ⟨c, r⟩ := a
    have htail := ih fun a ha => hu a (List.mem_cons_of_mem _ ha)
    cases c with
    | now => exact absurd trivial (hu _ List.mem_cons_self)
    | _ => exact htail

theorem indexOpenSubmissions_told {h : Replies} (indexedTo : Int) (hu : Untouched .opens h) :
    (indexOpenSubmissions cfg indexedTo).Told (ScanProper chain .opens)
      (fun h' _ => Moves chain .opens h') h := by
  unfold indexOpenSubmissions
  by_cases hoff : (!cfg.arcEscrow || !cfg.openSubmissionEnabled) = true
  · simp only [hoff, if_true]
    exact hu.noLogs.moves
  simp only [hoff]
  refine Told.bind (Q := fun h' _ => Moves chain .opens h') (Told.attempt
    (Q := fun h' _ => Moves chain .opens h') ?_ fun _ _ _ => id) (fun _ _ _ => id) fun _ _ _ => id
  refine ⟨properOf_ne (fun _ _ _ => nofun) fun _ => nofun, fun r => ?_⟩
  have hn : NoLogs .opens (⟨.get .open, r⟩ :: h) := hu.noLogs.cons fun _ _ _ => nofun
  rcases r with e | checkpoint
  · exact hn.moves
  have ha := asks_got hu checkpoint indexedTo
  simp only [done_andThen]
  generalize (checkpoint.map (· + 1)).getD indexedTo = f at ha ⊢
  split
  · exact hn.moves
  · next hle =>
    refine (queryArcEscrowLogs_told _ ha hn).bind (fun h' logs _ hq => ?_)
      fun h' e _ hq => NoLogs.moves hq.2.2
    obtain ⟨ha', htimes, archive, hlogs⟩ := hq
    refine ⟨properOf_ne (fun _ _ _ => nofun) fun _ => nofun, fun r => ?_⟩
    rcases r with e | startedAt
    · exact fun htruth => absurd List.mem_cons_self (htruth.now e)
    have halong : Along chain (⟨.now, .ok startedAt⟩ :: h') f _ archive logs [] logs (f - 1)
        startedAt := {
      asks := ha'.cons (fun _ => nofun) fun _ _ _ => nofun
      told := List.mem_cons_of_mem _ hlogs
      split := rfl
      handled := by simp
      block := fun _ => .inl ⟨rfl, by rw [times, htimes]; exact congrArg _ hu.times⟩ }
    refine (handleOpens_told logs halong).bind (fun h'' r _ hq => ?_) fun h'' e _ hq => hq
    cases r with
    | true => exact set_told hq.1 hq.2.1 (by omega) hq.2.2
    | false => exact hq

/-! ### A whole tick -/

theorem touches_unique {k' : Scan} {c : Cmd} (h : Touches k c) (h' : Touches k' c) : k = k' := by
  unfold Touches at h h'
  cases k <;> cases k' <;> first | rfl | (split at h <;> simp_all)

theorem issues_queryArcEscrowLogs {P : Cmd → Prop} {filter : Filter} {f t : Int}
    (hP : ∀ archive, P (.queryFilter archive filter f t)) :
    (queryArcEscrowLogs cfg filter f t).Issues P := by
  refine ⟨hP false, fun r => ?_⟩
  rcases r with e | logs
  · cases e with
    | prunedHistory =>
      by_cases harchive : cfg.arcArchiveEscrow
      · simp only [done_andThen, harchive, if_true]
        exact issues_call (hP true)
      · simp only [done_andThen, harchive]
        trivial
    | other => trivial
  · trivial

theorem issues_indexCancels (indexedTo : Int) :
    (indexCancels cfg indexedTo).Issues (Touches .cancels) := by
  have hcancels : ∀ events, (handleCancels events).Issues (Touches .cancels) := by
    intro events
    induction events with
    | nil => trivial
    | cons ev events ih =>
      by_cases hargs : ev.args.isSome
      · simp only [handleCancels, hargs, if_true]
        exact (issues_call trivial).bind fun _ => ih
      · simp only [handleCancels, hargs]
        exact ih
  unfold indexCancels
  by_cases harc : cfg.arcEscrow
  swap
  · simp only [harc]
    trivial
  simp only [harc, Bool.not_true, Bool.false_eq_true, if_false]
  refine Issues.bind (Issues.attempt ((issues_call trivial).bind fun checkpoint => ?_))
    fun _ => trivial
  split
  · trivial
  · refine (issues_queryArcEscrowLogs fun _ => trivial).bind fun logs => ?_
    exact (hcancels logs).bind fun _ => (issues_call trivial).bind fun _ => trivial

theorem issues_indexOpenSubmissions (indexedTo : Int) :
    (indexOpenSubmissions cfg indexedTo).Issues (Touches .opens) := by
  have hopen : ∀ f block ev, (handleOpen f block ev).Issues (Touches .opens) := by
    intro f block ev
    unfold handleOpen
    split
    · refine Issues.bind (Issues.attempt (issues_call trivial)) fun r => ?_
      cases r with
      | ok u => trivial
      | error e =>
        simp only
        split
        · exact (issues_call trivial).bind fun _ => trivial
        · trivial
    · trivial
  have hopens : ∀ f startedAt events block,
      (handleOpens f startedAt block events).Issues (Touches .opens) := by
    intro f startedAt events
    induction events with
    | nil => exact fun _ => trivial
    | cons ev events ih =>
      intro block
      rw [handleOpens]
      split
      · refine Issues.bind ((issues_call trivial).bind fun _ => trivial) fun isOver => ?_
        cases isOver with
        | true => exact (issues_call trivial).bind fun _ => trivial
        | false => exact (hopen _ _ _).bind fun _ => ih _
      · exact (hopen _ _ _).bind fun _ => ih _
  unfold indexOpenSubmissions
  split
  · trivial
  refine Issues.bind (Issues.attempt ((issues_call trivial).bind fun checkpoint => ?_))
    fun _ => trivial
  simp only
  split
  · trivial
  · refine (issues_queryArcEscrowLogs fun _ => trivial).bind fun logs => ?_
    refine (issues_call trivial).bind fun startedAt => (hopens _ _ _ _).bind fun done => ?_
    split
    · exact (issues_call trivial).bind fun _ => trivial
    · trivial

theorem Moves.cons {c : Cmd} {r : Except Failure (Ans c)} (hm : Moves chain k h)
    (hc : ¬ Touches k c) : Moves chain k (⟨c, r⟩ :: h) := by
  intro htruth archive f t logs hmem hclear
  have hmem' : ⟨Cmd.queryFilter archive k.filter f t, .ok logs⟩ ∈ h := by
    rcases List.mem_cons.mp hmem with heq | hmem
    · cases heq
      exact absurd (touches_query archive f t) hc
    · exact hmem
  obtain ⟨v, hle, hset⟩ := hm htruth.tail archive f t logs hmem' {
    get := fun e hget => hclear.get e (List.mem_cons_of_mem _ hget)
    set := fun v e hset => hclear.set v e (List.mem_cons_of_mem _ hset)
    handlers := by
      cases k with
      | cancels => exact fun ev r hev => hclear.handlers ev r (List.mem_cons_of_mem _ hev)
      | opens =>
        refine ⟨fun ev r hev => hclear.handlers.1 ev r (List.mem_cons_of_mem _ hev), fun hne => ?_⟩
        have hbudget := hclear.handlers.2 hne
        have htimes : times (⟨c, r⟩ :: h) = times h := by
          cases c <;> first | rfl | exact absurd trivial hc
        rwa [InBudget, htimes] at hbudget }
  exact ⟨v, hle, List.mem_cons_of_mem _ hset⟩

/-- A scan among the follow-ups leaves the other scan alone. -/
theorem scan_told {p : Listener Unit} (hent : entered h = true)
    (hp : p.Told (ScanProper chain k) (fun h' _ => Moves chain k h') h)
    (hi : p.Issues (Touches k)) : p.Told (Proper chain)
      (fun h' _ => Moves chain k h' ∧ entered h' = true ∧
        (∀ k' ≠ k, Untouched k' h → Untouched k' h') ∧
        ∀ k' ≠ k, Moves chain k' h → Moves chain k' h') h := by
  have haside := hi.told (T := fun h' c => entered h' = true ∧ Touches k c)
    (I := fun h' => entered h' = true ∧ (∀ k' ≠ k, Untouched k' h → Untouched k' h') ∧
      ∀ k' ≠ k, Moves chain k' h → Moves chain k' h')
    ⟨hent, fun _ _ => id, fun _ _ => id⟩ ?_ fun h' c hi hc => ⟨hi.1, hc⟩
  · refine (hp.and haside).mono (fun h' c hc => ?_) fun h' r hq => hq
    obtain ⟨hproper, hent', htouch⟩ := hc
    exact {
      enter := by rintro rfl; cases k <;> exact htouch.elim
      leave := by rintro rfl; cases k <;> exact htouch.elim
      setNx := by rintro key v rfl; cases k <;> exact htouch.elim
      touch := fun _ _ => hent'
      query := by
        rintro k' archive f t rfl
        cases touches_unique htouch (touches_query archive f t)
        exact hproper.query archive f t rfl
      set := by
        rintro k' v rfl
        cases touches_unique htouch (touches_set v)
        exact hproper.set v rfl }
  · intro h' c r ⟨hent', huntouched, hmoves⟩ hc
    have hnot : ∀ k' ≠ k, ¬ Touches k' c := fun k' hk hc' => hk (touches_unique hc' hc)
    refine ⟨?_, fun k' hk hu => ?_, fun k' hk hm => (hmoves k' hk hm).cons (hnot k' hk)⟩
    · rw [entered_cons r h']
      · exact hent'
      · rintro rfl
        cases k <;> exact hc.elim
      · rintro rfl
        cases k <;> exact hc.elim
    · intro a ha
      rcases List.mem_cons.mp ha with rfl | ha
      · exact hnot k' hk
      · exact huntouched k' hk hu a ha

/-- A command that is of no scan and moves no flag. -/
structure Aside (c : Cmd) : Prop where
  touch : ∀ k, ¬ Touches k c
  enter : c ≠ .enterFollowUps
  leave : c ≠ .leaveFollowUps
  setNx : ∀ key v, c = .setNx key v → key = .dispute

theorem Aside.proper {c : Cmd} (hc : Aside c) : Proper chain h c where
  enter heq := absurd heq hc.enter
  leave heq := absurd heq hc.leave
  setNx := hc.setNx
  touch k ht := absurd ht (hc.touch k)
  query := by
    rintro k archive f t rfl
    exact absurd (touches_query archive f t) (hc.touch k)
  set := by
    rintro k v rfl
    exact absurd (touches_set v) (hc.touch k)

theorem Untouched.cons {c : Cmd} {r : Except Failure (Ans c)} (hu : Untouched k h)
    (hc : ¬ Touches k c) : Untouched k (⟨c, r⟩ :: h) := by
  intro a ha
  rcases List.mem_cons.mp ha with rfl | ha
  · exact hc
  · exact hu a ha

theorem issues_indexOnce : (indexOnce cfg).Issues Aside := by
  have hplain : ∀ c : Cmd, (∀ k, ¬ Touches k c) → c ≠ .enterFollowUps → c ≠ .leaveFollowUps →
      (∀ key v, c ≠ .setNx key v) → Aside c :=
    fun c ht he hl hs => ⟨ht, he, hl, fun key v heq => absurd heq (hs key v)⟩
  have hnx : ∀ v, Aside (.setNx .dispute v) := by
    refine fun v => ⟨fun k => by cases k <;> exact id, nofun, nofun, fun key v' heq => ?_⟩
    cases heq
    rfl
  have hset : ∀ v, Aside (.set .events v) :=
    fun v => hplain _ (fun k => by cases k <;> exact id) nofun nofun nofun
  have hfrom : ∀ latest, (indexFrom cfg latest).Issues Aside := by
    intro latest
    refine Issues.bind (issues_call (hplain (.get .events)
      (fun k => by cases k <;> exact id) nofun nofun nofun)) fun checkpoint => ?_
    cases checkpoint with
    | some checkpoint => trivial
    | none => exact (issues_call (hnx _)).bind fun _ => (issues_call (hset _)).bind fun _ => trivial
  have hseed : ∀ fromBlock, (seedDisputes fromBlock).Issues Aside := by
    intro fromBlock
    refine Issues.bind (issues_call (hplain .disputeCheckpointSeeded
      (fun k => by cases k <;> exact id) nofun nofun nofun)) fun seeded => ?_
    cases seeded with
    | true => trivial
    | false =>
      exact (issues_call (hnx _)).bind fun _ => (issues_call (hplain .seedDisputeCheckpoint
        (fun k => by cases k <;> exact id) nofun nofun nofun)).bind fun _ => trivial
  have hrange : ∀ f t, (indexRange cfg f t).Issues Aside := by
    intro f t
    refine Issues.bind (issues_queryArcEscrowLogs fun archive => hplain _
      (fun k => by cases k <;> exact id) nofun nofun nofun) fun events => ?_
    simp only
    split
    · exact (issues_call (hset _)).bind fun _ => trivial
    · exact Issues.bind (issues_call (hplain (.indexHashes _)
        (fun k => by cases k <;> exact id) nofun nofun nofun)) fun _ =>
          (issues_call (hset _)).bind fun _ => trivial
  refine Issues.bind (issues_call (hplain .backgroundWritesAllowed
    (fun k => by cases k <;> exact id) nofun nofun nofun)) fun allowed => ?_
  split
  · trivial
  unfold indexTaskCreated
  split
  · trivial
  refine Issues.bind (Issues.attempt ?_) fun r => by cases r <;> trivial
  refine Issues.bind (issues_call (hplain .checkEscrowFingerprint
    (fun k => by cases k <;> exact id) nofun nofun nofun)) fun _ => ?_
  refine Issues.bind (issues_call (hplain .getBlockNumber
    (fun k => by cases k <;> exact id) nofun nofun nofun)) fun latest => ?_
  refine (hfrom latest).bind fun fromBlock => (hseed fromBlock).bind fun _ => ?_
  split
  · trivial
  · exact hrange _ _

/-- A tick knows what it sets, and moves the checkpoint of each scan whose range it was told. -/
theorem pollArcEscrowOnce_told :
    (pollArcEscrowOnce cfg).Told (Proper chain) (fun h _ => ∀ k, Moves chain k h) [] := by
  have hindex := (@issues_indexOnce cfg).told (T := Proper chain)
    (I := fun h => ∀ k, Untouched k h) (h := []) (by simp [Untouched])
    (fun h c r hi hc k => (hi k).cons (hc.touch k)) fun h c _ hc => hc.proper
  refine hindex.bind (fun h indexedTo _ hu => ?_) fun h e _ hu k => (hu k).noLogs.moves
  cases indexedTo with
  | none => exact fun k => (hu k).noLogs.moves
  | some indexedTo =>
    simp only
    refine ⟨⟨fun _ => hu, nofun, fun _ _ => nofun, fun k hk => ?_, fun _ _ _ _ => nofun,
      fun _ _ => nofun⟩, fun r => ?_⟩
    · cases k <;> exact hk.elim
    have hu' : ∀ k, Untouched k (⟨.enterFollowUps, r⟩ :: h) :=
      fun k => (hu k).cons (by cases k <;> exact id)
    rcases r with e | free
    · exact fun k => (hu' k).noLogs.moves
    cases free with
    | false => exact fun k => (hu' k).noLogs.moves
    | true =>
      have hdisputes : ∀ n, Aside (.indexDisputes n) := fun n =>
        ⟨fun k => by cases k <;> exact id, nofun, nofun, nofun⟩
      have hparked : Aside .retryParkedDisputes :=
        ⟨fun k => by cases k <;> exact id, nofun, nofun, nofun⟩
      refine ⟨(hdisputes _).proper, fun r => ?_⟩
      rcases r with e | u
      · exact fun k => ((hu' k).cons ((hdisputes _).touch k)).noLogs.moves
      refine ⟨hparked.proper, fun r => ?_⟩
      have hu'' : ∀ k, Untouched k (⟨.retryParkedDisputes, r⟩ :: ⟨.indexDisputes indexedTo, .ok u⟩ ::
          ⟨.enterFollowUps, .ok true⟩ :: h) :=
        fun k => ((hu' k).cons ((hdisputes _).touch k)).cons (hparked.touch k)
      rcases r with e | u'
      · exact fun k => (hu'' k).noLogs.moves
      refine (scan_told rfl (indexCancels_told indexedTo (hu'' .cancels))
        (issues_indexCancels indexedTo)).bind (fun h₁ _ _ hq => ?_) fun h₁ e _ hq k => ?_
      · obtain ⟨hcancels, hent, hopens, -⟩ := hq
        refine (scan_told hent (indexOpenSubmissions_told indexedTo (hopens .opens nofun (hu'' _)))
          (issues_indexOpenSubmissions indexedTo)).bind (fun h₂ _ _ hq => ?_) fun h₂ e _ hq k => ?_
        · obtain ⟨hm, hent, -, hkept⟩ := hq
          have hm : ∀ k, Moves chain k h₂ := by
            intro k
            cases k with
            | opens => exact hm
            | cancels => exact hkept .cancels nofun hcancels
          refine ⟨⟨nofun, fun _ => hent, fun _ _ => nofun, fun k hk => hent, fun _ _ _ _ => nofun,
            fun _ _ => nofun⟩, fun r => ?_⟩
          have hm' : ∀ k, Moves chain k (⟨.leaveFollowUps, r⟩ :: h₂) :=
            fun k => (hm k).cons (by cases k <;> exact id)
          rcases r with e | u''
          · exact hm'
          · exact hm'
        · cases k with
          | opens => exact hq.1
          | cancels => exact hq.2.2.2 .cancels nofun hcancels
      · cases k with
        | cancels => exact hq.1
        | opens => exact (hq.2.2.1 .opens nofun (hu'' _)).noLogs.moves

theorem op_told (op : Op) :
    (op.prog cfg).Told (Proper chain) (fun h _ => ∀ k, Moves chain k h) [] := by
  cases op with
  | pollArcEscrowOnce => exact pollArcEscrowOnce_told
  | forceArcTick =>
    refine Told.bind (issues_indexOnce.told (I := fun h => ∀ k, Untouched k h) (by simp [Untouched])
      (fun h c r hi hc k => (hi k).cons (hc.touch k)) fun h c _ hc => hc.proper)
      (fun h _ _ hu k => (hu k).noLogs.moves) fun h _ _ hu k => (hu k).noLogs.moves

end ArcEvents

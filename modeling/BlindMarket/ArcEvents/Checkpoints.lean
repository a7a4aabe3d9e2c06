import BlindMarket.ArcEvents.Scans

/-!
# No event is skipped

From the block where a scan stored its first checkpoint, everything up to the
checkpoint has been handled, and the checkpoint only goes up.
-/
namespace ArcEvents

open Async Prog Runs

variable {cfg : Config} {chain : Chain} {k : Scan} {c b : Pool Ans Failure Unit Call State}
  {tr : List Ev} {e : Ev}

/-- The first block of the newest range the scan asked for while it had no checkpoint stored. -/
def firstBlock (k : Scan) : List Ev → Option Int
  | [] => none
  | e :: tr =>
    match e.label with
    | .ran _ (.queryFilter _ filter fromBlock _) _ =>
      if filter = k.filter ∧ e.pre.checkpoints k.key = none then some fromBlock
      else firstBlock k tr
    | _ => firstBlock k tr

/-- The handler of an event has returned without error. -/
def Handled (k : Scan) (tr : List Ev) (ev : Log) : Prop :=
  ∃ e ∈ tr, ∃ t, e.label = .ran t (k.handled ev).1 (k.handled ev).2

/-! ## One tick at a time -/

/-- What a tick at its follow-ups has read still stands. -/
structure View (k : Scan) (tr : List Ev) (s : State) (a : Replies) : Prop where
  got : ∀ checkpoint, ⟨Cmd.get k.key, .ok checkpoint⟩ ∈ a → s.checkpoints k.key = checkpoint
  asked : s.checkpoints k.key = none → ∀ archive f t r,
    ⟨Cmd.queryFilter archive k.filter f t, r⟩ ∈ a → firstBlock k tr = some f

/-- A tick, what it has been told, and whether it is the one at its follow-ups. -/
structure Ticks (chain : Chain) (tr : List Ev) (s : State)
    (th : Thread Ans Failure Unit Call) (a : Replies) : Prop where
  heard : Heard th.tag tr a
  told : th.prog.Told (Proper chain) (fun h _ => ∀ k, Moves chain k h) a
  holds : entered a = true ↔ s.followUps = some th.tag
  view : entered a = true → ∀ k, Unset k a → View k tr s a

theorem firstBlock_query {t : Call} {archive : Bool} {f t' : Int}
    {r : Except Failure (Ans (.queryFilter archive k.filter f t'))} {s s' : State} :
    firstBlock k (⟨.ran t (.queryFilter archive k.filter f t') r, s, s'⟩ :: tr) =
      if s.checkpoints k.key = none then some f else firstBlock k tr := by
  simp [firstBlock]

theorem firstBlock_of_ne (h : ∀ t archive f t' r,
    e.label ≠ .ran t (.queryFilter archive k.filter f t') r) :
    firstBlock k (e :: tr) = firstBlock k tr := by
  rw [firstBlock]
  split
  · next t archive filter f t' r hlabel =>
    rw [if_neg]
    rintro ⟨rfl, -⟩
    exact h _ _ _ _ _ hlabel
  · rfl

theorem ran_thread {t : Call} {cmd : Cmd} {r : Except Failure (Ans cmd)}
    (hs : Async.Step (arc cfg chain) b e c) (hlabel : e.label = .ran t cmd r) :
    exec chain t e.pre cmd r e.post ∧ ∃ k, ⟨t, .await cmd k⟩ ∈ b.threads := by
  cases hs with
  | run l₁ l₂ t' cmd' k r' hx =>
    cases hlabel
    exact ⟨hx, k, by simp⟩
  | _ => cases hlabel

/-- A step that does not set the scan's checkpoint leaves it alone. -/
theorem checkpoints_kept (hs : Async.Step (arc cfg chain) b e c)
    (hproper : ∀ t c r, e.label = .ran t c r → (∀ v, c ≠ .set k.key v) ∧
      ∀ key v, c = .setNx key v → key = .dispute) :
    e.post.checkpoints k.key = e.pre.checkpoints k.key := by
  have hkey : k.key ≠ .dispute := by cases k <;> exact nofun
  cases hs with
  | run l₁ l₂ t cmd k' r hx =>
    obtain ⟨hset, hnx⟩ := hproper t cmd r rfl
    refine (exec_keeps hx).checkpoints k.key hkey hset ?_
    rintro v rfl
    exact hkey (hnx _ v rfl)
  | start l t p hx =>
    obtain ⟨-, -, rfl⟩ := hx
    rfl
  | finish l₁ l₂ t r => rfl
  | env l hx => exact hx.elim
  | die l₁ l₂ t p hx =>
    obtain rfl := hx
    rfl

/-- Who is at the follow-ups changes when a tick enters, leaves or dies. -/
theorem followUps_step (hs : Async.Step (arc cfg chain) b e c) :
    e.post.followUps = e.pre.followUps ∨
    (∃ t, e.label = .ran t .enterFollowUps (.ok true) ∧ e.pre.followUps = none ∧
      e.post.followUps = some t) ∨
    (∃ t r, e.label = .ran t .leaveFollowUps r ∧ e.post.followUps = none) ∨
    ∃ t, e.label = .died t ∧ e.pre.followUps = some t ∧ e.post.followUps = none := by
  cases hs with
  | @run s s' l₁ l₂ t cmd k' r hx =>
    by_cases henter : cmd = .enterFollowUps
    · subst henter
      simp only [arc, exec] at hx
      split at hx
      · next hnone =>
        obtain ⟨rfl, rfl⟩ := hx
        exact .inr (.inl ⟨t, rfl, hnone, rfl⟩)
      · obtain ⟨-, rfl⟩ := hx
        exact .inl rfl
    · by_cases hleave : cmd = .leaveFollowUps
      · subst hleave
        obtain ⟨-, rfl⟩ := hx
        exact .inr (.inr (.inl ⟨t, r, rfl, rfl⟩))
      · exact .inl ((exec_keeps hx).followUps henter hleave)
  | start l t p hx =>
    obtain ⟨-, -, rfl⟩ := hx
    exact .inl rfl
  | finish l₁ l₂ t r => exact .inl rfl
  | env l hx => exact hx.elim
  | @die s s' l₁ l₂ t p hx =>
    obtain rfl := hx
    by_cases hholder : s.followUps = some t
    · exact .inr (.inr (.inr ⟨t, rfl, hholder, if_pos hholder⟩))
    · exact .inl (if_neg hholder)

theorem holder_seen {t : Call} (h : PoolRun (arc cfg chain) ⟨{}, []⟩ tr c)
    (ht : c.state.followUps = some t) : ∃ e ∈ tr, e.label.tag? = some t := by
  refine Run.invariant (I := fun tr c => c.state.followUps = some t →
    ∃ e ∈ tr, e.label.tag? = some t) h nofun ?_ ht
  intro tr b e c _ hb hs ht
  obtain ⟨hpre, hpost⟩ := hs.states
  rw [← hpre] at hb
  rw [← hpost] at ht
  obtain hsame | ⟨t', hlabel, -, hholder⟩ | ⟨t', r, -, hholder⟩ | ⟨t', -, -, hholder⟩ :=
    followUps_step hs
  · obtain ⟨e', he', htag⟩ := hb (hsame ▸ ht)
    exact ⟨e', List.mem_cons_of_mem _ he', htag⟩
  · rw [hholder] at ht
    refine ⟨e, List.mem_cons_self, ?_⟩
    rw [hlabel]
    exact ht
  · rw [hholder] at ht
    cases ht
  · rw [hholder] at ht
    cases ht

/-! ### Its own commands -/

theorem Ticks.run {s s' : State} {t : Call} {cmd : Cmd} {k' : Except Failure (Ans cmd) → Listener Unit}
    {r : Except Failure (Ans cmd)} {a : Replies} (hx : exec chain t s cmd r s')
    (ha : Ticks chain tr s ⟨t, .await cmd k'⟩ a) :
    Ticks chain (⟨.ran t cmd r, s, s'⟩ :: tr) s' ⟨t, k' r⟩ (⟨cmd, r⟩ :: a) where
  heard := .ran cmd r ha.heard
  told := ha.told.2 r
  holds := by
    by_cases henter : cmd = .enterFollowUps
    · subst henter
      simp only [exec] at hx
      split at hx <;> obtain ⟨rfl, rfl⟩ := hx
      · exact iff_of_true rfl rfl
      · exact ha.holds
    by_cases hleave : cmd = .leaveFollowUps
    · subst hleave
      obtain ⟨rfl, rfl⟩ := hx
      exact iff_of_false (fun h => by cases h) (fun h => by cases h)
    rw [entered_cons r a henter hleave, (exec_keeps hx).followUps henter hleave]
    exact ha.holds
  view hent k hunset := by
    have hunset' : Unset k a := fun v r' hmem => hunset v r' (List.mem_cons_of_mem _ hmem)
    by_cases henter : cmd = .enterFollowUps
    · subst henter
      have hu := ha.told.1.enter rfl k
      refine ⟨fun checkpoint hmem => ?_, fun _ archive f t' r' hmem => ?_⟩
      · rcases List.mem_cons.mp hmem with heq | hmem
        · cases heq
        · exact absurd touches_get (hu _ hmem)
      · rcases List.mem_cons.mp hmem with heq | hmem
        · cases heq
        · exact absurd (touches_query archive f t') (hu _ hmem)
    have hleave : cmd ≠ .leaveFollowUps := by
      rintro rfl
      cases hent
    rw [entered_cons r a henter hleave] at hent
    have hv := ha.view hent k hunset'
    have hkey : k.key ≠ .dispute := by cases k <;> (intro h; cases h)
    have hsame : s'.checkpoints k.key = s.checkpoints k.key := by
      refine (exec_keeps hx).checkpoints k.key hkey ?_ ?_
      · rintro v rfl
        exact hunset v r List.mem_cons_self
      · rintro v rfl
        exact hkey (ha.told.1.setNx _ v rfl)
    refine ⟨fun checkpoint hmem => ?_, fun hnone archive f t' r' hmem => ?_⟩
    · rw [hsame]
      rcases List.mem_cons.mp hmem with heq | hmem
      · cases heq
        obtain ⟨hr | ⟨e, hr⟩, -⟩ := hx
        · exact (Except.ok.inj hr).symm
        · cases hr
      · exact hv.got checkpoint hmem
    · rw [hsame] at hnone
      by_cases hquery : ∃ archive f t', cmd = .queryFilter archive k.filter f t'
      · obtain ⟨archive', f', t'', rfl⟩ := hquery
        rw [firstBlock_query, if_pos hnone]
        rcases List.mem_cons.mp hmem with heq | hmem
        · cases heq
          rfl
        · rw [(ha.told.1.query k archive' f' t'' rfl).asked _ _ _ _ hmem]
      · rw [firstBlock_of_ne]
        · rcases List.mem_cons.mp hmem with heq | hmem
          · cases heq
            exact absurd ⟨archive, f, t', rfl⟩ hquery
          · exact hv.asked hnone archive f t' r' hmem
        · intro t₀ archive' f' t'' r'' heq
          cases heq
          exact hquery ⟨_, _, _, rfl⟩

/-! ### What the others do -/

/-- A command of a tick was proper, and the tick was at its follow-ups where it needs to be. -/
theorem ran_proper (hs : Async.Step (arc cfg chain) b e c)
    (hall : ∀ th ∈ b.threads, ∃ a, Ticks chain tr b.state th a) {t : Call} {cmd : Cmd}
    {r : Except Failure (Ans cmd)} (hlabel : e.label = .ran t cmd r) :
    ∃ a, Heard t tr a ∧ Proper chain a cmd ∧
      (entered a = true → e.pre.followUps = some t ∧ ∀ k, Unset k a → View k tr e.pre a) := by
  obtain ⟨-, k', hth⟩ := ran_thread hs hlabel
  obtain ⟨a, ha⟩ := hall _ hth
  rw [hs.states.1]
  exact ⟨a, ha.heard, ha.told.1, fun hent => ⟨ha.holds.mp hent, ha.view hent⟩⟩

/-- Another's step neither moves the follow-ups of a tick nor what it has read. -/
theorem Ticks.keep {th : Thread Ans Failure Unit Call} {a : Replies}
    (hs : Async.Step (arc cfg chain) b e c)
    (hall : ∀ th ∈ b.threads, ∃ a, Ticks chain tr b.state th a)
    (ha : Ticks chain tr b.state th a) (htag : e.label.tag? ≠ some th.tag) :
    Ticks chain (e :: tr) c.state th a where
  heard := .other (Label.tag?_ne htag) ha.heard
  told := ha.told
  holds := by
    obtain ⟨hpre, hpost⟩ := hs.states
    rw [ha.holds, ← hpre, ← hpost]
    have hother : ∀ {t : Call}, e.label.tag? = some t → t ≠ th.tag := by
      rintro t ht rfl
      exact htag ht
    obtain hsame | ⟨t, hlabel, hnone, hholder⟩ | ⟨t, r, hlabel, hholder⟩ |
      ⟨t, hlabel, hdied, hholder⟩ := followUps_step hs
    · rw [hsame]
    · rw [hnone, hholder]
      have ht : t ≠ th.tag := hother (by rw [hlabel]; rfl)
      simp [ht]
    · obtain ⟨a', -, hproper, hent⟩ := ran_proper hs hall hlabel
      rw [(hent (hproper.leave rfl)).1, hholder]
      have ht : t ≠ th.tag := hother (by rw [hlabel]; rfl)
      simp [ht]
    · rw [hdied, hholder]
      have ht : t ≠ th.tag := hother (by rw [hlabel]; rfl)
      simp [ht]
  view hent k hunset := by
    obtain ⟨hpre, hpost⟩ := hs.states
    have hv := ha.view hent k hunset
    have hholder := ha.holds.mp hent
    have hproper : ∀ t cmd r, e.label = .ran t cmd r → ¬ Touches k cmd ∧
        ∀ key v, cmd = .setNx key v → key = .dispute := by
      intro t cmd r hlabel
      obtain ⟨a', -, hproper, hent'⟩ := ran_proper hs hall hlabel
      refine ⟨fun htouch => htag ?_, hproper.setNx⟩
      rw [← hpre, (hent' (hproper.touch k htouch)).1] at hholder
      rw [hlabel]
      exact hholder
    have hsame : c.state.checkpoints k.key = b.state.checkpoints k.key := by
      rw [← hpre, ← hpost]
      refine checkpoints_kept hs fun t cmd r hlabel => ⟨?_, (hproper t cmd r hlabel).2⟩
      rintro v rfl
      exact (hproper t _ r hlabel).1 (touches_set v)
    have hfirst : firstBlock k (e :: tr) = firstBlock k tr :=
      firstBlock_of_ne fun t archive f t' r hlabel =>
        (hproper _ _ _ hlabel).1 (touches_query archive f t')
    exact ⟨fun checkpoint hmem => by rw [hsame]; exact hv.got checkpoint hmem,
      fun hnone archive f t r hmem => by
        rw [hfirst]
        exact hv.asked (hsame ▸ hnone) archive f t r hmem⟩

theorem ticks_run (h : PoolRun (arc cfg chain) ⟨{}, []⟩ tr c) :
    ∀ th ∈ c.threads, ∃ a, Ticks chain tr c.state th a := by
  refine arc_numbered.together (J := fun tr s th => ∃ a, Ticks chain tr s th a) h ?_ ?_ ?_
  · rintro tr l s t p s' hrun ⟨-, rfl, rfl⟩ hnew
    refine ⟨[], .other nofun (heard_nil hnew), op_told t.op, iff_of_false nofun ?_, nofun⟩
    intro hholder
    obtain ⟨e, he, htag⟩ := holder_seen hrun hholder
    exact hnew e he htag
  · rintro tr s t cmd k r s' hx ⟨a, ha⟩
    exact ⟨_, ha.run hx⟩
  · rintro tr b e c th - hs hall ⟨a, ha⟩ htag
    exact ⟨a, ha.keep hs hall htag⟩

theorem heard_truthful (h : PoolRun (arc cfg chain) ⟨{}, []⟩ tr c) {t : Call} {a : Replies}
    (ha : Heard t tr a) : Truthful chain a := by
  have hexec : ∀ {cmd : Cmd} {r : Except Failure (Ans cmd)}, ⟨cmd, r⟩ ∈ a →
      ∃ s s', exec chain t s cmd r s' := by
    intro cmd r hmem
    obtain ⟨e, he, hlabel⟩ := ha.mem.mp hmem
    obtain ⟨later, earlier, b, b', -, -, hstep, -⟩ := Run.split_mem h he
    exact ⟨_, _, (ran_thread hstep hlabel).1⟩
  refine ⟨fun archive filter f t' logs hmem => ?_, fun e hmem => ?_⟩
  · obtain ⟨s, s', hr | ⟨e, hr⟩, -⟩ := hexec hmem
    · exact Except.ok.inj hr
    · cases hr
  · obtain ⟨s, s', ⟨n, hr⟩, -⟩ := hexec hmem
    cases hr

/-! ## The checkpoints -/

/-- From the first block of the scan that found no checkpoint, all is handled up to it. -/
def Covered (chain : Chain) (k : Scan) (tr : List Ev) (s : State) : Prop :=
  ∀ v, s.checkpoints k.key = some v → ∃ first, firstBlock k tr = some first ∧
    ∀ block, first ≤ block → block ≤ v → ∀ ev ∈ chain.logs k.filter block, k.due ev = true →
      Handled k tr ev

theorem Handled.cons {ev : Log} (h : Handled k tr ev) : Handled k (e :: tr) ev := by
  obtain ⟨e', he', t, hlabel⟩ := h
  exact ⟨e', List.mem_cons_of_mem _ he', t, hlabel⟩

/-- One step keeps what is covered, and the checkpoint does not go down. -/
theorem Covered.step (h : PoolRun (arc cfg chain) ⟨{}, []⟩ tr b)
    (hs : Async.Step (arc cfg chain) b e c) (hb : Covered chain k tr b.state) :
    Covered chain k (e :: tr) c.state ∧ ∀ v, e.pre.checkpoints k.key = some v →
      ∃ v', v ≤ v' ∧ e.post.checkpoints k.key = some v' := by
  obtain ⟨hpre, hpost⟩ := hs.states
  rw [← hpre] at hb
  rw [← hpost]
  have hsame : e.post.checkpoints k.key = e.pre.checkpoints k.key →
      Covered chain k (e :: tr) e.post ∧ ∀ v, e.pre.checkpoints k.key = some v →
        ∃ v', v ≤ v' ∧ e.post.checkpoints k.key = some v' := by
    refine fun heq => ⟨fun v hv => ?_, fun v hv => ⟨v, le_rfl, heq.trans hv⟩⟩
    rw [heq] at hv
    obtain ⟨first, hfirst, hcovered⟩ := hb v hv
    refine ⟨first, ?_, fun block hle hlt ev hev hdue => (hcovered block hle hlt ev hev hdue).cons⟩
    rw [firstBlock]
    split
    · rw [if_neg fun hq => by simp [hv] at hq, hfirst]
    · exact hfirst
  have hall := ticks_run h
  by_cases hset : ∃ t v r, e.label = .ran t (.set k.key v) r
  swap
  · refine hsame (checkpoints_kept hs fun t cmd r hlabel => ⟨?_, ?_⟩)
    · rintro v rfl
      exact hset ⟨t, v, r, hlabel⟩
    · obtain ⟨a, -, hproper, -⟩ := ran_proper hs hall hlabel
      exact hproper.setNx
  obtain ⟨t, v, r, hlabel⟩ := hset
  obtain ⟨a, hheard, hproper, hent⟩ := ran_proper hs hall hlabel
  obtain ⟨-, hview⟩ := hent (hproper.touch k (touches_set v))
  obtain ⟨f, t', archive, hasks, hquery, hle, hlt, hhandled⟩ :=
    hproper.set k v rfl (heard_truthful h hheard)
  obtain ⟨checkpoint, hget, hfrom⟩ := hasks.got
  have hv := hview k hasks.unset
  have hstored := hv.got checkpoint hget
  -- What lies after the stored checkpoint has been handled by this tick.
  have hnew : ∀ block, f ≤ block → block ≤ v → ∀ ev ∈ chain.logs k.filter block, k.due ev = true →
      Handled k (e :: tr) ev := by
    intro block hfb hbv ev hev hdue
    obtain rfl := chain.block_eq _ _ _ hev
    obtain ⟨e', he', hran⟩ := hheard.mem.mp
      (hhandled ev (mem_queryFilter.mpr ⟨hfb, by omega, hev⟩) hbv hdue)
    exact ⟨e', List.mem_cons_of_mem _ he', t, hran⟩
  have hmoved : e.post = e.pre.setCheckpoint k.key v →
      Covered chain k (e :: tr) e.post ∧ ∀ v, e.pre.checkpoints k.key = some v →
        ∃ v', v ≤ v' ∧ e.post.checkpoints k.key = some v' := by
    intro heq
    have hpost' : e.post.checkpoints k.key = some v := by simp [heq]
    have hfirst' : firstBlock k (e :: tr) = firstBlock k tr :=
      firstBlock_of_ne fun _ _ _ _ _ hq => by
        rw [hlabel] at hq
        cases hq
    refine ⟨fun v' hv' => ?_, fun w hw => ⟨v, ?_, hpost'⟩⟩
    · cases hpost'.symm.trans hv'
      cases checkpoint with
      | none => exact ⟨f, hfirst'.trans (hv.asked hstored _ _ _ _ hquery), hnew⟩
      | some w =>
        have hfw := hfrom w rfl
        obtain ⟨first, hfirst, hcovered⟩ := hb w hstored
        refine ⟨first, hfirst'.trans hfirst, fun block hle hlt ev hev hdue => ?_⟩
        by_cases hold : block ≤ w
        · exact (hcovered block hle hold ev hev hdue).cons
        · exact hnew block (by omega) hlt ev hev hdue
    · have hfw := hfrom w (hstored.symm.trans hw)
      omega
  have hx := (ran_thread hs hlabel).1
  obtain ⟨-, hx⟩ | ⟨-, hx | hx⟩ := hx
  · exact hmoved hx
  · exact hsame (by rw [hx])
  · exact hmoved hx

theorem covered_run (h : PoolRun (arc cfg chain) ⟨{}, []⟩ tr c) :
    Covered chain k tr c.state ∧ ∀ e ∈ tr, ∀ v, e.post.checkpoints k.key = some v →
      ∃ v', v ≤ v' ∧ c.state.checkpoints k.key = some v' := by
  refine Run.invariant (I := fun tr c => Covered chain k tr c.state ∧ ∀ e ∈ tr, ∀ v,
    e.post.checkpoints k.key = some v → ∃ v', v ≤ v' ∧ c.state.checkpoints k.key = some v') h
    ⟨nofun, by simp⟩ ?_
  intro tr b e c hrun ⟨hb, hevents⟩ hs
  obtain ⟨hpre, hpost⟩ := hs.states
  obtain ⟨hc, hup⟩ := hb.step hrun hs
  refine ⟨hc, fun e' he' v hv => ?_⟩
  rw [← hpost]
  rcases List.mem_cons.mp he' with rfl | he'
  · exact ⟨v, le_rfl, hv⟩
  · obtain ⟨v', hle, hv'⟩ := hevents e' he' v hv
    rw [← hpre] at hv'
    obtain ⟨v'', hle', hv''⟩ := hup v' hv'
    exact ⟨v'', hle.trans hle', hv''⟩

/-- The scans skip nothing from the first block of the one that stored the first checkpoint, never
go back, and a tick that was told its range moves on where its handlers went well. -/
theorem scans_skip_nothing (cfg : Config) (chain : Chain) (tr : List Ev)
    (c : Pool Ans Failure Unit Call State) (h : PoolRun (arc cfg chain) ⟨{}, []⟩ tr c) (k : Scan) :
    (∀ v, c.state.checkpoints k.key = some v → ∃ first, firstBlock k tr = some first ∧
      ∀ block, first ≤ block → block ≤ v → ∀ ev ∈ chain.logs k.filter block, k.due ev = true →
        Handled k tr ev) ∧
    (∀ e ∈ tr, ∀ v, e.post.checkpoints k.key = some v →
      ∃ v', v ≤ v' ∧ c.state.checkpoints k.key = some v') ∧
    ∀ later e earlier t r a, tr = later ++ e :: earlier → e.label = .finished t r →
      Heard t earlier a → ∀ archive fromBlock toBlock logs,
        ⟨Cmd.queryFilter archive k.filter fromBlock toBlock, .ok logs⟩ ∈ a →
        Clear chain k fromBlock a → ∃ v, fromBlock ≤ v ∧ c.state.checkpoints k.key = some v := by
  obtain ⟨hcovered, hup⟩ := covered_run (k := k) h
  refine ⟨hcovered, hup, ?_⟩
  rintro later e earlier t r a rfl hlabel ha archive f t' logs hquery hclear
  obtain ⟨a', ha', hmoves⟩ := told_finished (P := fun _ => Proper chain)
    (Q := fun _ h _ => ∀ k, Moves chain k h) arc_numbered h
    (by rintro tags s t p s' ⟨-, rfl, -⟩; exact op_told t.op) hlabel
  obtain rfl := ha.unique ha'
  obtain ⟨b, b', hearlier, -, -⟩ := h.split
  obtain ⟨v, hle, hset⟩ := hmoves k (heard_truthful hearlier ha) archive f t' logs hquery hclear
  obtain ⟨e', he', hran⟩ := ha.mem.mp hset
  have he'' : e' ∈ later ++ e :: earlier := by simp [he']
  obtain ⟨later', earlier', b, b', -, -, hstep, -⟩ := Run.split_mem h he''
  obtain ⟨⟨-, hpost⟩ | ⟨⟨e, hr⟩, -⟩, -⟩ := ran_thread hstep hran
  · obtain ⟨v', hle', hv'⟩ := hup e' he'' v (by simp [hpost])
    exact ⟨v', hle.trans hle', hv'⟩
  · cases hr

/-! ## Where a scan starts, and where it stops -/

/-- How a command is answered: it fails, or it names a number. -/
structure Choice where
  fails : Option Failure := none
  number : Int := 0

def answer {α : Type} (x : Choice) (a : α) : Except Failure α :=
  match x.fails with
  | some e => .error e
  | none => .ok a

theorem answer_cases {α : Type} (x : Choice) (a : α) :
    answer x a = .ok a ∨ ∃ e, answer x a = .error e := by
  unfold answer
  split
  · exact .inr ⟨_, rfl⟩
  · exact .inl rfl

/-- A command that fails does nothing. -/
def respond (chain : Chain) (t : Call) (x : Choice) (s : State) :
    (c : Cmd) → Except Failure (Ans c) × State
  | .backgroundWritesAllowed => (.ok true, s)
  | .checkEscrowFingerprint => (.ok (), s)
  | .getBlockNumber => (answer x x.number, s)
  | .get key => (answer x (s.checkpoints key), s)
  | .set key block => (answer x (), if x.fails.isSome then s else s.setCheckpoint key block)
  | .setNx key block =>
    (answer x (), if x.fails.isSome then s
      else if s.checkpoints key = none then s.setCheckpoint key block else s)
  | .disputeCheckpointSeeded => (.ok s.seeded, s)
  | .seedDisputeCheckpoint => (.ok (), { s with seeded := true })
  | .queryFilter _ filter f t' => (answer x (chain.queryFilter filter f t'), s)
  | .indexHashes pairs => (.ok (), s.indexHashes pairs)
  | .enterFollowUps =>
    if s.followUps = none then (.ok true, { s with followUps := some t }) else (.ok false, s)
  | .leaveFollowUps => (.ok (), { s with followUps := none })
  | .indexDisputes _ => (.ok (), s)
  | .retryParkedDisputes => (.ok (), s)
  | .handleTaskCancelled _ => (answer x (), s)
  | .handleOpenEvent _ => (answer x (), s)
  | .now => (.ok x.number, s)

theorem exec_respond (t : Call) (x : Choice) (s : State) (c : Cmd) :
    exec chain t s c (respond chain t x s c).1 (respond chain t x s c).2 := by
  have hfails : ∀ {α : Type} {a : α} {s s' : State}, (answer x a = .ok a ∧
      (if x.fails.isSome then s else s') = s') ∨
      (∃ e, answer x a = .error e) ∧ ((if x.fails.isSome then s else s') = s ∨
        (if x.fails.isSome then s else s') = s') := by
    intro α a s s'
    unfold answer
    cases x.fails with
    | none => exact .inl ⟨rfl, rfl⟩
    | some e => exact .inr ⟨⟨e, rfl⟩, .inl rfl⟩
  cases c with
  | backgroundWritesAllowed => exact ⟨⟨true, rfl⟩, rfl⟩
  | get key => exact ⟨answer_cases x _, rfl⟩
  | set key block => exact hfails
  | setNx key block => exact hfails
  | queryFilter archive filter f t' => exact ⟨answer_cases x _, rfl⟩
  | indexHashes pairs => exact .inl ⟨rfl, rfl⟩
  | enterFollowUps =>
    simp only [exec, respond]
    split <;> exact ⟨rfl, rfl⟩
  | indexDisputes n => exact ⟨rfl, .inl rfl⟩
  | now => exact ⟨⟨x.number, rfl⟩, rfl⟩
  | getBlockNumber | handleTaskCancelled | handleOpenEvent => exact rfl
  | _ => exact ⟨rfl, rfl⟩

def stage (cfg : Config) (chain : Chain) : Stage (arc cfg chain) Choice Empty where
  respond := respond chain
  enter s t :=
    if t.id = s.calls then some (t.op.prog cfg, { s with calls := s.calls + 1 }) else none
  move m := m.elim
  kill t s := { s with
    seeded := false
    followUps := if s.followUps = some t then none else s.followUps }
  exec := exec_respond
  start := by
    intro tags s t p s' h
    split at h
    · next hid =>
      cases h
      exact ⟨hid, rfl, rfl⟩
    · cases h
  env m := m.elim
  die _ _ := rfl

/-- A tick of `n` commands that finds a head; some of them are answered otherwise than by what
there is. -/
def tick (id : Nat) (head : Int) (n : Nat) (answers : List (Nat × Choice)) :
    List (Cue Call Choice Empty) :=
  [.enter ⟨id, .pollArcEscrowOnce⟩] ++
    (List.range n).map (fun i => .turn 0 ((answers.lookup i).getD { number := head })) ++ [.leave 0]

/-- One event, in one block. -/
def eventAt (k : Scan) (block : Int) : Chain where
  logs filter b :=
    if filter = k.filter ∧ b = block then
      [{ block := b, index := 0, eventName := some [], args := some { taskId := 1 } }]
    else []
  block_eq filter b ev hev := by
    split at hev
    · cases List.mem_singleton.mp hev
      rfl
    · cases hev

/-- The query of the first scan fails, and the next one starts at the head it finds. -/
def startsOver : List (Cue Call Choice Empty) :=
  tick 0 100 21 [(15, { fails := some .other })] ++ tick 1 101 18 []

theorem startsOver_plays :
    ((stage {} (eventAt .cancels 100)).play startsOver ⟨{}, []⟩).isSome = true := by decide

/-- The handler of an event in the second block of the range fails. -/
def failsLater : List (Cue Call Choice Empty) :=
  tick 0 100 22 [] ++ tick 1 102 18 [(12, { fails := some .other })]

theorem failsLater_plays :
    ((stage {} (eventAt .cancels 102)).play failsLater ⟨{}, []⟩).isSome = true := by decide

/-- The clock runs past the budget before the first event. -/
def runsLate : List (Cue Call Choice Empty) :=
  tick 0 100 22 [] ++ tick 1 101 19 [(15, { number := 0 }), (16, { number := 20000 })]

theorem runsLate_plays :
    ((stage {} (eventAt .opens 101)).play runsLate ⟨{}, []⟩).isSome = true := by decide

/-- The first block either scan asked for. -/
def firstAsked : List Ev → Option Int
  | [] => none
  | e :: tr => (firstAsked tr).orElse fun _ =>
    match e.label with
    | .ran _ (.queryFilter _ filter fromBlock _) _ =>
      if filter = .taskCreated then none else some fromBlock
    | _ => none

def isHandler (e : Ev) : Bool :=
  match e.label with
  | .ran _ (.handleTaskCancelled _) _ => true
  | .ran _ (.handleOpenEvent _) _ => true
  | _ => false

def redisFailed (e : Ev) : Bool :=
  match e.label with
  | .ran _ (.get _) (.error _) => true
  | .ran _ (.set _ _) (.error _) => true
  | _ => false

def handlerFailed (block : Int) (e : Ev) : Bool :=
  match e.label with
  | .ran _ (.handleTaskCancelled ev) (.error _) => ev.block = block
  | .ran _ (.handleOpenEvent ev) (.error _) => ev.block = block
  | _ => false

theorem Handled.isHandler {ev : Log} (h : Handled k tr ev) : tr.any isHandler = true := by
  obtain ⟨e, he, t, hlabel⟩ := h
  refine List.any_eq_true.mpr ⟨e, he, ?_⟩
  cases k <;> (unfold ArcEvents.isHandler; rw [hlabel]; rfl)

/-- A tick comes to its end with its range told, no Redis command failed and no handler of the first
pending block, and the checkpoint is where it was. -/
def StaysBehind (k : Scan) : Prop :=
  ∃ (chain : Chain) (tr : List Ev) (c : Pool Ans Failure Unit Call State) (t : Call)
    (toBlock : Int), PoolRun (arc {} chain) ⟨{}, []⟩ tr c ∧
    (∃ e ∈ tr, e.label = .finished t (.ok ())) ∧
    (∃ e ∈ tr, e.label = .ran t (.queryFilter false k.filter 101 toBlock)
      (.ok (chain.queryFilter k.filter 101 toBlock))) ∧
    tr.any redisFailed = false ∧ tr.any (handlerFailed 101) = false ∧
    c.state.checkpoints k.key = some 100

theorem staysBehind_cancels : StaysBehind .cancels :=
  ⟨eventAt .cancels 102, _, _, ⟨1, .pollArcEscrowOnce⟩, 102, Stage.play_get failsLater_plays,
    ⟨_, List.mem_of_getElem? (i := 0) rfl, rfl⟩, ⟨_, List.mem_of_getElem? (i := 7) rfl, rfl⟩,
    by decide, by decide, by decide⟩

theorem staysBehind_opens : StaysBehind .opens :=
  ⟨eventAt .opens 101, _, _, ⟨1, .pollArcEscrowOnce⟩, 101, Stage.play_get runsLate_plays,
    ⟨_, List.mem_of_getElem? (i := 0) rfl, rfl⟩, ⟨_, List.mem_of_getElem? (i := 5) rfl, rfl⟩,
    by decide, by decide, by decide⟩

/-- A scan that failed before it had a checkpoint starts over past what it asked for; the cancel
scan waits for the whole of its range, and the open one for the clock. -/
theorem scans_skip_startsOver :
    (∃ (chain : Chain) (tr : List Ev) (c : Pool Ans Failure Unit Call State) (ev : Log),
      PoolRun (arc {} chain) ⟨{}, []⟩ tr c ∧ firstAsked tr = some 100 ∧
      c.state.checkpoints .cancel = some 101 ∧ ev ∈ chain.logs .taskCancelled 100 ∧
      ev.args.isSome = true ∧ ¬ Handled .cancels tr ev) ∧
    StaysBehind .cancels ∧ StaysBehind .opens := by
  refine ⟨⟨eventAt .cancels 100, _, _, _, Stage.play_get startsOver_plays, by decide, by decide,
    List.mem_of_getElem? (i := 0) rfl, rfl, fun h => ?_⟩, staysBehind_cancels, staysBehind_opens⟩
  have hnone : (((stage {} (eventAt .cancels 100)).play startsOver ⟨{}, []⟩).get
    startsOver_plays).1.any isHandler = false := by decide
  rw [h.isHandler] at hnone
  cases hnone

/-- The second tick handles the event it finds. -/
def inTurn : List (Cue Call Choice Empty) := tick 0 100 22 [] ++ tick 1 101 19 []

theorem inTurn_plays :
    ((stage {} (eventAt .cancels 101)).play inTurn ⟨{}, []⟩).isSome = true := by decide

theorem scans_skip_nothing_inTurn : Covered (eventAt .cancels 101) .cancels
    (((stage {} (eventAt .cancels 101)).play inTurn ⟨{}, []⟩).get inTurn_plays).1
    (((stage {} (eventAt .cancels 101)).play inTurn ⟨{}, []⟩).get inTurn_plays).2.state :=
  (scans_skip_nothing {} (eventAt .cancels 101) _ _ (Stage.play_get inTurn_plays) .cancels).1

end ArcEvents

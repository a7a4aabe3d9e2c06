import BlindMarket.A2AStore.System

/-!
# Wrapped keys

A listing is one value: a merge of wrapped keys and a re-index both read it
and write the whole of it back. A slice that was merged stays as long as every
write of the listing carries the slices that are stored when it is made.
-/
namespace A2AStore

open Async Prog Runs

variable {t : Text}

/-! ## The calls -/

/-- The writers of the wrapped keys of a listing. -/
inductive KeyOp where
  | mergeWrappedKeys (taskId : Text) (additions : List (Text × Text))
  | reindex (posted : A2ATaskMeta)

def KeyOp.taskId : KeyOp → Text
  | .mergeWrappedKeys taskId _ => taskId
  | .reindex posted => posted.taskId

/-- A merge answers whether there was a listing. -/
def KeyOp.prog : KeyOp → Store Bool
  | .mergeWrappedKeys taskId additions => do
    let m ← A2AStore.mergeWrappedKeys taskId additions
    return m.isSome
  | .reindex posted => do
    A2AStore.reindex posted
    return false

abbrev keyStore (t : Text) : System Ans Failure Bool (Call KeyOp) State :=
  store (fun op => toLowerCase op.taskId = t) KeyOp.prog

abbrev KeyEvent := Event Ans Failure Bool (Call KeyOp) State

/-- The slice a listing holds for an address. -/
def A2ATaskMeta.slice (m : A2ATaskMeta) (addr : Text) : Option Text :=
  m.wrappedKeys.bind (· addr)

def Redis.slice (r : Redis) (t addr : Text) : Option Text := (r.metas t).bind (·.slice addr)

/-- The slice an addition names last for an address. -/
def added (additions : List (Text × Text)) : WrappedKeys :=
  additions.foldl (fun keys entry => Function.update keys (toLowerCase entry.1) (some entry.2))
    fun _ => none

/-- The slice a call brings for an address. -/
def KeyOp.slice : KeyOp → Text → Option Text
  | .mergeWrappedKeys _ additions, addr => added additions addr
  | .reindex posted, addr => posted.slice addr

theorem foldl_update (additions : List (Text × Text)) (keys : WrappedKeys) (addr : Text) :
    additions.foldl (fun keys entry => Function.update keys (toLowerCase entry.1) (some entry.2))
      keys addr = (added additions addr).orElse fun _ => keys addr := by
  unfold added
  induction additions using List.reverseRecOn with
  | nil => rfl
  | append_singleton additions entry ih =>
    simp only [List.foldl_append, List.foldl_cons, List.foldl_nil]
    by_cases haddr : addr = toLowerCase entry.1
    · subst haddr
      simp
    · simp only [Function.update_of_ne haddr, ih]

theorem added_ne_none {additions : List (Text × Text)} {entry : Text × Text}
    (h : entry ∈ additions) : added additions (toLowerCase entry.1) ≠ none := by
  unfold added
  induction additions using List.reverseRecOn with
  | nil => simp at h
  | append_singleton additions last ih =>
    simp only [List.foldl_append, List.foldl_cons, List.foldl_nil]
    by_cases haddr : toLowerCase entry.1 = toLowerCase last.1
    · simp [haddr]
    · rw [Function.update_of_ne haddr]
      rcases List.mem_append.mp h with h | h
      · exact ih h
      · cases List.mem_singleton.mp h
        exact absurd rfl haddr

/-! ## What a call writes -/

abbrev Replies := Answers Ans Failure

/-- The listing an answer is about and what it held. -/
def listing : ((c : Cmd) × Except Failure (Ans c)) → Option (Text × Option A2ATaskMeta)
  | ⟨.getMeta key, .ok m⟩ => some (key, m)
  | _ => none

/-- The slice for an address in the newest answer that had one. -/
def seen (t addr : Text) : Replies → Option Text
  | [] => none
  | a :: h =>
    match listing a with
    | some (key, m) =>
      if key = t then (m.bind (·.slice addr)).orElse fun _ => seen t addr h else seen t addr h
    | none => seen t addr h

/-- What a call that was told `h` writes for an address. -/
def KeyOp.written (op : KeyOp) (t addr : Text) (h : Replies) : Option Text :=
  match op with
  | .mergeWrappedKeys .. => (op.slice addr).orElse fun _ => seen t addr h
  | .reindex .. => (seen t addr h).orElse fun _ => op.slice addr

/-- Nothing was found under a mixed-case key only. -/
def Plain (t : Text) (h : Replies) : Prop :=
  (∀ key m, toLowerCase key = t → key ≠ t → some (key, some m) ∉ h.map listing) ∨
    some (t, none) ∉ h.map listing

/-- A listing is written under the lower-case key, with the keys the call has seen. -/
def WritesSeen (t : Text) (op : KeyOp) (h : Replies) : Cmd → Prop
  | .write (.setMeta key m) =>
    Plain t h → key = t ∧ ∀ addr, m.slice addr = op.written t addr h
  | .eval _ => False
  | _ => True

/-- A call that answers yes has written the listing. -/
def EndsWritten (t : Text) (h : Replies) (r : Except Failure Bool) : Prop :=
  r = .ok true → Plain t h → ∃ m r', ⟨Cmd.write (.setMeta t m), r'⟩ ∈ h

theorem mergeWrappedKeys_told (taskId : Text) (additions : List (Text × Text)) :
    (KeyOp.mergeWrappedKeys taskId additions).prog.Told
      (WritesSeen (toLowerCase taskId) (.mergeWrappedKeys taskId additions))
      (EndsWritten (toLowerCase taskId)) [] := by
  have hkey : KEY.meta (toLowerCase taskId) = toLowerCase taskId := toLowerCase_idem taskId
  have herror : ∀ {h : Replies} {e : Failure}, EndsWritten (toLowerCase taskId) h (.error e) :=
    fun h => nomatch h
  refine ⟨trivial, fun r => ?_⟩
  rcases r with e | m
  · exact herror
  cases m with
  | some m =>
    refine ⟨fun _ => ⟨rfl, fun addr => ?_⟩, fun r => ?_⟩
    · simp only [A2ATaskMeta.slice, Option.bind_some, foldl_update, KeyOp.written, KeyOp.slice,
        seen, listing, hkey, if_true]
      cases m.wrappedKeys with
      | none => rfl
      | some keys => cases hslice : keys addr <;> simp [hslice]
    · exact fun _ _ => ⟨_, _, List.mem_cons_self⟩
  | none =>
    by_cases hid : toLowerCase taskId ≠ taskId
    · simp only [done_andThen, if_pos hid]
      refine ⟨trivial, fun r => ?_⟩
      rcases r with e | m
      · exact herror
      cases m with
      | some m =>
        have hmixed : ∀ h : Replies, ¬ Plain (toLowerCase taskId)
            (h ++ [⟨.getMeta taskId, .ok (some m)⟩,
              ⟨.getMeta (KEY.meta (toLowerCase taskId)), .ok none⟩]) := by
          rintro h (hplain | hplain)
          · exact hplain taskId m rfl (Ne.symm hid) (by simp [listing])
          · exact hplain (by simp [listing, hkey])
        exact ⟨fun hplain => absurd hplain (hmixed []),
          fun r _ hplain => absurd hplain (hmixed [_])⟩
      | none => exact fun h => nomatch h
    · simp only [done_andThen, if_neg hid]
      exact fun h => nomatch h

/-- A command that is about no listing but the one it writes. -/
def Writes (m : A2ATaskMeta) : Cmd → Prop
  | .write (.setMeta key m') => key = toLowerCase m.taskId ∧ m'.wrappedKeys = m.wrappedKeys
  | .getMeta _ => False
  | .eval _ => False
  | _ => True

theorem issues_setMeta (m : A2ATaskMeta) : (setMeta m).Issues (Writes m) := by
  have hwrites : ∀ b : Bool,
      (exec (setMetaWrites m (toLowerCase m.taskId) b)).Issues (Writes m) := by
    refine fun b => issues_exec fun w hw => ?_
    cases w with
    | setMeta key m' =>
      simp only [setMetaWrites, List.mem_append, List.mem_singleton, Write.setMeta.injEq] at hw
      obtain (((⟨rfl, rfl⟩ | hw) | hw) | hw) | hw := hw
      · exact ⟨toLowerCase_idem _, rfl⟩
      · split at hw <;> simp at hw
      · split at hw
        · simp at hw
        · split at hw <;> simp at hw
      · cases hposter : (given m.posterAddress).map KEY.poster <;> simp [hposter, saddGiven] at hw
      · cases hverifier : (given m.verifierAddress).map KEY.verifier <;>
          simp [hverifier, saddGiven] at hw
    | _ => trivial
  refine (issues_call trivial).bind fun b => ?_
  simp only
  split
  · exact (issues_call trivial).bind fun b => hwrites _
  · exact hwrites _

@[simp] theorem plain_nil : Plain t [] := .inr (by simp)

theorem Plain.tail {a : (c : Cmd) × Except Failure (Ans c)} {h : Replies} (hp : Plain t (a :: h)) :
    Plain t h := by
  rcases hp with hp | hp
  · exact .inl fun key m hkey hne hmem => hp key m hkey hne (List.mem_cons_of_mem _ hmem)
  · exact .inr fun hmem => hp (List.mem_cons_of_mem _ hmem)

theorem seen_cons_of_none {a : (c : Cmd) × Except Failure (Ans c)} (ha : listing a = none)
    (addr : Text) (h : Replies) : seen t addr (a :: h) = seen t addr h := by
  simp only [seen, ha]

theorem Writes.listing {m : A2ATaskMeta} {c : Cmd} (hc : Writes m c)
    (r : Except Failure (Ans c)) : listing ⟨c, r⟩ = none := by
  cases c with
  | getMeta key => exact hc.elim
  | _ => rfl

theorem setMeta_told {op : KeyOp} {h : Replies} {m : A2ATaskMeta} (ht : toLowerCase m.taskId = t)
    (hm : Plain t h → ∀ addr, m.slice addr = op.written t addr h) :
    (setMeta m).Told (WritesSeen t op) (fun _ _ => True) h := by
  have hwritten : ∀ {h' : Replies}, (∀ addr, seen t addr h' = seen t addr h) →
      ∀ addr, op.written t addr h' = op.written t addr h := by
    intro h' hseen addr
    cases op <;> simp only [KeyOp.written, hseen]
  refine ((issues_setMeta m).told (I := fun h' => (Plain t h' → Plain t h) ∧
    ∀ addr, seen t addr h' = seen t addr h) ⟨id, fun _ => rfl⟩ ?_ ?_).mono (fun _ _ => id) fun _ _ _ => trivial
  · intro h' c r hi hc
    refine ⟨fun hp => hi.1 hp.tail, fun addr => ?_⟩
    rw [seen_cons_of_none (hc.listing r), hi.2]
  · intro h' c hi hc
    cases c with
    | write w =>
      cases w with
      | setMeta key m' =>
        obtain ⟨rfl, hkeys⟩ := hc
        refine fun hp => ⟨ht, fun addr => ?_⟩
        rw [hwritten hi.2, ← hm (hi.1 hp), A2ATaskMeta.slice, hkeys, A2ATaskMeta.slice]
      | _ => trivial
    | eval script => exact hc
    | _ => trivial

/-- A `getMeta` after `h` returned `m` and left its caller with `h'`. -/
structure Reads (t : Text) (h h' : Replies) (m : Option A2ATaskMeta) : Prop where
  plain : Plain t h' → Plain t h
  seen : Plain t h' → ∀ addr,
    seen t addr h' = (m.bind (·.slice addr)).orElse fun _ => A2AStore.seen t addr h

theorem getMeta_told {op : KeyOp} (taskId : Text) (h : Replies) :
    (getMeta taskId).Told (WritesSeen (toLowerCase taskId) op)
      (fun h' r => match r with
        | .ok m => Reads (toLowerCase taskId) h h' m
        | .error _ => True) h := by
  refine ⟨trivial, fun r => ?_⟩
  rcases r with e | m
  · trivial
  cases m with
  | some m =>
    refine ⟨fun hp => hp.tail, fun _ addr => ?_⟩
    simp [seen, listing, KEY.meta]
  | none =>
    by_cases hid : toLowerCase taskId ≠ taskId
    · simp only [done_andThen, if_pos hid]
      refine ⟨trivial, fun r => ?_⟩
      rcases r with e | m
      · trivial
      refine ⟨fun hp => hp.tail.tail, fun hp addr => ?_⟩
      cases m with
      | some m =>
        rcases hp with hp | hp
        · exact absurd (by simp [listing]) (hp taskId m rfl (Ne.symm hid))
        · exact absurd (by simp [listing, KEY.meta]) hp
      | none => simp [seen, listing, KEY.meta, Ne.symm hid]
    · simp only [done_andThen, if_neg hid]
      refine ⟨fun hp => hp.tail, fun _ addr => ?_⟩
      simp [seen, listing, KEY.meta]

theorem reindex_told (posted : A2ATaskMeta) :
    (KeyOp.reindex posted).prog.Told (WritesSeen (toLowerCase posted.taskId) (.reindex posted))
      (EndsWritten (toLowerCase posted.taskId)) [] := by
  refine Told.bind (Q := fun _ _ => True) ?_ (fun _ _ _ _ => nofun)
    fun _ _ _ _ => nofun
  refine (getMeta_told posted.taskId []).bind (fun h m _ hm => ?_) fun _ _ _ _ => trivial
  cases m with
  | none =>
    simp only [Option.isSome_none, Bool.false_eq_true, if_false, pure_eq_done, bind_eq,
      done_andThen]
    refine setMeta_told rfl fun hp addr => ?_
    have hseen : seen (toLowerCase posted.taskId) addr h = none := hm.seen hp addr
    simp only [KeyOp.written, hseen]
    cases hposted : posted.wrappedKeys <;>
      simp [A2ATaskMeta.slice, KeyOp.slice, hposted, spread]
  | some m =>
    simp only [Option.isSome_some, if_true]
    refine (getMeta_told posted.taskId h).bind (fun h' latest _ hlatest => ?_)
      fun _ _ _ _ => trivial
    simp only [pure_eq_done, bind_eq, done_andThen]
    refine setMeta_told rfl fun hp addr => ?_
    have hseen : seen (toLowerCase posted.taskId) addr h = (m.slice addr).orElse fun _ => none :=
      hm.seen (hlatest.plain hp) addr
    have hslice : latest.bind (·.slice addr) = (latest.bind (·.wrappedKeys)).bind (· addr) :=
      (Option.bind_assoc _ _ _).symm
    simp only [KeyOp.written, hlatest.seen hp addr, hslice, hseen]
    cases hposted : posted.wrappedKeys <;> cases hold : m.wrappedKeys <;>
      cases hlater : latest.bind (·.wrappedKeys) <;>
      simp [A2ATaskMeta.slice, KeyOp.slice, hposted, hold, spread, Option.or_assoc]

/-- What every call of the store is told and writes. -/
theorem keyOp_told (op : KeyOp) :
    op.prog.Told (WritesSeen (toLowerCase op.taskId) op) (EndsWritten (toLowerCase op.taskId)) [] := by
  cases op with
  | mergeWrappedKeys taskId additions => exact mergeWrappedKeys_told taskId additions
  | reindex posted => exact reindex_told posted

/-! ## Runs -/

variable {s₀ : State} {tr later earlier : List KeyEvent}
  {b c : Pool Ans Failure Bool (Call KeyOp) State} {e : KeyEvent} {call : Call KeyOp}

/-- Where the task has a listing, it has one under its lower-case key. -/
def LowerKeyed (t : Text) (r : Redis) : Prop :=
  r.metas t = none → ∀ key, toLowerCase key = t → r.metas key = none

def Wrote (t : Text) (call : Call KeyOp) (e : KeyEvent) : Prop :=
  ∃ m r, e.label = .ran call (.write (.setMeta t m)) r

/-- The slice for an address is the call's own. -/
def KeyOp.Brings (op : KeyOp) (t addr : Text) (h : Replies) : Prop :=
  op.slice addr ≠ none ∧
    match op with
    | .mergeWrappedKeys .. => True
    | .reindex .. => seen t addr h = none

/-- A call writes the listing with every slice that is stored, or with its own in its place. -/
def Carries (t : Text) (tr : List KeyEvent) (e : KeyEvent) : Prop :=
  ∀ call m r, e.label = .ran call (.write (.setMeta t m)) r → ∀ h, Heard call tr h →
    ∀ addr v, e.pre.redis.slice t addr = some v →
      seen t addr h = some v ∨ call.op.Brings t addr h

/-- A slice is stored that the call wrote, or one that wrote the listing after it. -/
def Holds (t addr : Text) (call : Call KeyOp) (tr : List KeyEvent) (r : Redis) : Prop :=
  ∃ v, r.slice t addr = some v ∧ ∃ later e earlier writer, tr = later ++ e :: earlier ∧
    Wrote t writer e ∧ writer.op.slice addr = some v ∧
    (writer = call ∨ ∃ e' ∈ earlier, Wrote t call e')

theorem start_told (tags : List (Call KeyOp)) (s : State) (call : Call KeyOp) (p : Store Bool)
    (s' : State) (hx : (keyStore t).start tags s call p s') :
    p.Told (WritesSeen t call.op) (EndsWritten t) [] := by
  obtain ⟨-, rfl, rfl, -⟩ := hx
  exact keyOp_told call.op

theorem ran_told (h : PoolRun (keyStore t) ⟨s₀, []⟩ (later ++ e :: earlier) c) {cmd : Cmd}
    {r : Except Failure (Ans cmd)} (hlabel : e.label = .ran call cmd r) :
    ∃ a, Heard call earlier a ∧ WritesSeen t call.op a cmd :=
  told_ran (P := fun call : Call KeyOp => WritesSeen t call.op) (Q := fun _ => EndsWritten t)
    store_numbered h start_told hlabel

theorem step_told (h : PoolRun (keyStore t) ⟨s₀, []⟩ tr b) (hs : Async.Step (keyStore t) b e c)
    {cmd : Cmd} {r : Except Failure (Ans cmd)} (hlabel : e.label = .ran call cmd r) :
    ∃ a, Heard call tr a ∧ WritesSeen t call.op a cmd :=
  ran_told (show PoolRun (keyStore t) ⟨s₀, []⟩ ([] ++ e :: tr) c from .snoc h hs) hlabel

theorem ran_respond (h : PoolRun (keyStore t) ⟨s₀, []⟩ tr c) (he : e ∈ tr) {cmd : Cmd}
    {r : Except Failure (Ans cmd)} (hlabel : e.label = .ran call cmd r) :
    r = .ok (respond e.pre.redis cmd).1 := by
  obtain ⟨later, earlier, b, b', -, -, hstep, -⟩ := Run.split_mem h he
  obtain ⟨-, hnone⟩ | ⟨call', cmd', hran, -⟩ := store_step hstep
  · exact absurd hlabel (hnone call cmd r)
  · rw [hran] at hlabel
    cases hlabel
    rfl

theorem metas_ne_none (cmd : Cmd) {r : Redis} (hcmd : ∀ script, cmd ≠ .eval script)
    (h : r.metas t ≠ none) : (respond r cmd).2.metas t ≠ none := by
  cases cmd with
  | write w =>
    cases w with
    | setMeta key m =>
      by_cases hkey : t = key
      · simp [respond, Write.apply, hkey]
      · simpa [respond, Write.apply, Function.update_of_ne hkey] using h
    | _ => exact h
  | eval script => exact absurd rfl (hcmd script)
  | _ => exact h

theorem heard_listing (h : PoolRun (keyStore t) ⟨s₀, []⟩ tr c) {a : Replies} (ha : Heard call tr a)
    {key : Text} {m : Option A2ATaskMeta} (hmem : some (key, m) ∈ a.map listing) :
    ∃ e ∈ tr, e.pre.redis.metas key = m := by
  obtain ⟨⟨cmd, r⟩, hmem, heq⟩ := List.mem_map.mp hmem
  cases cmd with
  | getMeta key' =>
    rcases r with e | m'
    · cases heq
    cases heq
    obtain ⟨e, he, hlabel⟩ := ha.mem.mp hmem
    exact ⟨e, he, (Except.ok.inj (ran_respond h he hlabel)).symm⟩
  | _ => cases heq

theorem metas_run (h0 : s₀.redis.metas t ≠ none) (h : PoolRun (keyStore t) ⟨s₀, []⟩ tr c) :
    (∀ e ∈ tr, e.pre.redis.metas t ≠ none) ∧ c.state.redis.metas t ≠ none := by
  refine Run.invariant (I := fun tr c =>
    (∀ e ∈ tr, e.pre.redis.metas t ≠ none) ∧ c.state.redis.metas t ≠ none) h ⟨by simp, h0⟩ ?_
  intro tr b e c hrun ⟨hevents, hb⟩ hs
  obtain ⟨hpre, hpost⟩ := hs.states
  rw [← hpre] at hb
  rw [← hpost]
  refine ⟨fun e' he' => ?_, ?_⟩
  · rcases List.mem_cons.mp he' with rfl | he'
    · exact hb
    · exact hevents e' he'
  · obtain ⟨hredis, -⟩ | ⟨call, cmd, hlabel, hredis⟩ := store_step hs
    · rwa [hredis]
    · obtain ⟨a, -, ha⟩ := step_told hrun hs hlabel
      rw [hredis]
      exact metas_ne_none cmd (fun script heq => by rw [heq] at ha; exact ha) hb

theorem mixed_run (h0 : ∀ key, toLowerCase key = t → s₀.redis.metas key = none)
    (h : PoolRun (keyStore t) ⟨s₀, []⟩ tr c) : ∀ key, toLowerCase key = t → key ≠ t →
      (∀ e ∈ tr, e.pre.redis.metas key = none) ∧ c.state.redis.metas key = none := by
  refine Run.invariant (I := fun tr c => ∀ key, toLowerCase key = t → key ≠ t →
    (∀ e ∈ tr, e.pre.redis.metas key = none) ∧ c.state.redis.metas key = none) h
    (fun key hkey _ => ⟨by simp, h0 key hkey⟩) ?_
  intro tr b e c hrun hb hs key hkey hne
  obtain ⟨hpre, hpost⟩ := hs.states
  obtain ⟨hevents, hb'⟩ := hb key hkey hne
  rw [← hpre] at hb'
  rw [← hpost]
  refine ⟨fun e' he' => ?_, ?_⟩
  · rcases List.mem_cons.mp he' with rfl | he'
    · exact hb'
    · exact hevents e' he'
  · obtain ⟨hredis, -⟩ | ⟨call, cmd, hlabel, hredis⟩ := store_step hs
    · rwa [hredis]
    · obtain ⟨a, hheard, ha⟩ := step_told hrun hs hlabel
      have hplain : Plain t a := by
        refine .inl fun key' m hkey' hne' hmem => ?_
        obtain ⟨e', he', hfound⟩ := heard_listing hrun hheard hmem
        rw [(hb key' hkey' hne').1 e' he'] at hfound
        cases hfound
      rw [hredis]
      cases cmd with
      | write w =>
        cases w with
        | setMeta key' m =>
          obtain ⟨rfl, -⟩ := ha hplain
          simpa [respond, Write.apply, Function.update_of_ne hne] using hb'
        | _ => exact hb'
      | eval script => exact ha.elim
      | _ => exact hb'

/-- No call finds a listing under a mixed-case key only. -/
theorem heard_plain (h0 : LowerKeyed t s₀.redis) (h : PoolRun (keyStore t) ⟨s₀, []⟩ tr c)
    {a : Replies} (ha : Heard call tr a) : Plain t a := by
  by_cases hnone : s₀.redis.metas t = none
  · refine .inl fun key m hkey hne hmem => ?_
    obtain ⟨e, he, hfound⟩ := heard_listing h ha hmem
    rw [(mixed_run (h0 hnone) h key hkey hne).1 e he] at hfound
    cases hfound
  · refine .inr fun hmem => ?_
    obtain ⟨e, he, hfound⟩ := heard_listing h ha hmem
    exact (metas_run hnone h).1 e he hfound

/-- What a call writes for an address it brings, and for one it does not. -/
theorem KeyOp.written_cases (op : KeyOp) (t addr : Text) (a : Replies) :
    (op.Brings t addr a ∧ op.written t addr a = op.slice addr) ∨
      (¬ op.Brings t addr a ∧ ∀ v, seen t addr a = some v → op.written t addr a = some v) := by
  by_cases hbrings : op.Brings t addr a
  · refine .inl ⟨hbrings, ?_⟩
    obtain ⟨hslice, hseen⟩ := hbrings
    obtain ⟨v, hv⟩ := Option.ne_none_iff_exists'.mp hslice
    cases op with
    | mergeWrappedKeys taskId additions => simp [KeyOp.written, hv]
    | reindex posted =>
      replace hseen : seen t addr a = none := hseen
      simp [KeyOp.written, hseen]
  · refine .inr ⟨hbrings, fun v hv => ?_⟩
    cases op with
    | mergeWrappedKeys taskId additions =>
      have hnone : (KeyOp.mergeWrappedKeys taskId additions).slice addr = none := by
        by_contra hne
        exact hbrings ⟨hne, trivial⟩
      simp [KeyOp.written, hnone, hv]
    | reindex posted => simp [KeyOp.written, hv]

theorem Holds.cons {addr : Text} {r r' : Redis} (hh : Holds t addr call tr r)
    (hslice : r'.slice t addr = r.slice t addr) : Holds t addr call (e :: tr) r' := by
  obtain ⟨v, hv, later, e', earlier, writer, rfl, hwrote⟩ := hh
  exact ⟨v, by rw [hslice, hv], e :: later, e', earlier, writer, rfl, hwrote⟩

/-- One step keeps the slices of the merges that have written. -/
theorem Holds.step (h0 : LowerKeyed t s₀.redis) (h : PoolRun (keyStore t) ⟨s₀, []⟩ tr b)
    (hs : Async.Step (keyStore t) b e c) (hcarries : Carries t tr e) {addr : Text}
    {taskId : Text} {additions : List (Text × Text)}
    (hop : call.op = .mergeWrappedKeys taskId additions) (hadd : added additions addr ≠ none)
    (hb : (∃ e ∈ tr, Wrote t call e) → Holds t addr call tr b.state.redis)
    (hwrote : ∃ e' ∈ e :: tr, Wrote t call e') : Holds t addr call (e :: tr) c.state.redis := by
  obtain ⟨hpre, hpost⟩ := hs.states
  rw [← hpre] at hb
  rw [← hpost]
  have hbefore : ¬ Wrote t call e → Holds t addr call tr e.pre.redis := by
    intro hno
    obtain ⟨e', he', hw⟩ := hwrote
    rcases List.mem_cons.mp he' with rfl | he'
    · exact absurd hw hno
    · exact hb ⟨e', he', hw⟩
  by_cases hwriter : ∃ writer, Wrote t writer e
  · obtain ⟨writer, m, r, hlabel⟩ := hwriter
    obtain ⟨a, hheard, ha⟩ := step_told h hs hlabel
    obtain ⟨-, hm⟩ := ha (heard_plain h0 h hheard)
    have hpost' : e.post.redis.slice t addr = m.slice addr := by
      obtain ⟨-, hnone⟩ | ⟨call', cmd, hran, hredis⟩ := store_step hs
      · exact absurd hlabel (hnone _ _ _)
      · rw [hran] at hlabel
        cases hlabel
        simp [hredis, Redis.slice, respond, Write.apply]
    obtain ⟨hbrings, hwritten⟩ | ⟨hbrings, hwritten⟩ := writer.op.written_cases t addr a
    · obtain ⟨v, hv⟩ := Option.ne_none_iff_exists'.mp hbrings.1
      refine ⟨v, by rw [hpost', hm, hwritten, hv], [], e, tr, writer, rfl, ⟨m, r, hlabel⟩, hv, ?_⟩
      obtain ⟨e', he', hw⟩ := hwrote
      rcases List.mem_cons.mp he' with rfl | he'
      · obtain ⟨m', r', hlabel'⟩ := hw
        rw [hlabel] at hlabel'
        cases hlabel'
        exact .inl rfl
      · exact .inr ⟨e', he', hw⟩
    · have hno : ¬ Wrote t call e := by
        rintro ⟨m', r', hlabel'⟩
        rw [hlabel] at hlabel'
        cases hlabel'
        rw [hop] at hbrings
        exact hbrings ⟨hadd, trivial⟩
      obtain ⟨v, hv, later, e', earlier, writer', rfl, hw⟩ := hbefore hno
      have hseen := (hcarries writer m r hlabel a hheard addr v hv).resolve_right hbrings
      exact ⟨v, by rw [hpost', hm, hwritten v hseen], e :: later, e', earlier, writer', rfl, hw⟩
  · refine (hbefore fun hw => hwriter ⟨call, hw⟩).cons ?_
    obtain ⟨hredis, -⟩ | ⟨call', cmd, hran, hredis⟩ := store_step hs
    · rw [hredis]
    · obtain ⟨a, -, ha⟩ := step_told h hs hran
      rw [hredis]
      cases cmd with
      | write w =>
        cases w with
        | setMeta key m =>
          have hkey : t ≠ key := by
            rintro rfl
            exact hwriter ⟨call', m, _, hran⟩
          simp [Redis.slice, respond, Write.apply, Function.update_of_ne hkey]
        | _ => rfl
      | eval script => exact ha.elim
      | _ => rfl

/-- Once a merge has answered yes, each address it added has its slice, or a later one, as long as
every write of the listing carries the slices stored then. -/
theorem wrapped_key_stays (t : Text) (s₀ : State) (tr : List KeyEvent)
    (c : Pool Ans Failure Bool (Call KeyOp) State) (h0 : LowerKeyed t s₀.redis)
    (h : PoolRun (store (fun op => toLowerCase op.taskId = t) KeyOp.prog) ⟨s₀, []⟩ tr c)
    (hcarries : ∀ later e earlier, tr = later ++ e :: earlier → Carries t earlier e)
    (call : Call KeyOp) (taskId : Text) (additions : List (Text × Text))
    (hop : call.op = .mergeWrappedKeys taskId additions) (e : KeyEvent) (he : e ∈ tr)
    (hlabel : e.label = .finished call (.ok true)) (entry : Text × Text)
    (hentry : entry ∈ additions) : Holds t (toLowerCase entry.1) call tr c.state.redis := by
  have hrun : (∃ e ∈ tr, Wrote t call e) →
      Holds t (toLowerCase entry.1) call tr c.state.redis := by
    refine Run.invariant (I := fun tr c =>
      (∀ later e earlier, tr = later ++ e :: earlier → Carries t earlier e) →
      (∃ e ∈ tr, Wrote t call e) → Holds t (toLowerCase entry.1) call tr c.state.redis)
      h (by simp) ?_ hcarries
    intro tr b e c hrun hb hs hcarries
    refine Holds.step h0 hrun hs (hcarries [] e tr rfl) hop (added_ne_none hentry)
      (hb fun later e' earlier heq => ?_)
    exact hcarries (e :: later) e' earlier (by rw [heq]; rfl)
  refine hrun ?_
  obtain ⟨later, earlier, rfl⟩ := List.append_of_mem he
  obtain ⟨a, hheard, ha⟩ := told_finished (P := fun call : Call KeyOp => WritesSeen t call.op)
    (Q := fun _ => EndsWritten t) store_numbered h start_told hlabel
  obtain ⟨b, b', hearlier, -⟩ := h.split
  obtain ⟨m, r, hmem⟩ := ha rfl (heard_plain h0 hearlier hheard)
  obtain ⟨e', he', hlabel'⟩ := hheard.mem.mp hmem
  exact ⟨e', by simp [he'], m, r, hlabel'⟩

/-! ## Two merges at once -/

def keyStage (t : Text) : Stage (keyStore t) Unit Empty :=
  storeStage (fun op => decide (toLowerCase op.taskId = t)) fun _ => of_decide_eq_true

/-- A listing with no wrapped keys. -/
def demoListing : State where
  redis := {
    states := fun _ => none
    metas := fun k => if k = ['t'] then some { taskId := ['t'] } else none
    sets := fun _ => ∅ }

def wrapTo (id : Nat) (addr : Text) : Call KeyOp := ⟨id, .mergeWrappedKeys ['t'] [(addr, ['s'])]⟩

/-- One merge after the other. -/
def mergesInTurn : List (Cue (Call KeyOp) Unit Empty) :=
  [.enter (wrapTo 0 ['a']), .turn 0 (), .turn 0 (), .leave 0, .enter (wrapTo 1 ['b']), .turn 0 (),
    .turn 0 (), .leave 0]

theorem mergesInTurn_plays :
    ((keyStage ['t']).play mergesInTurn ⟨demoListing, []⟩).isSome = true := by decide

theorem mergesInTurn_carries (later : List KeyEvent) (e : KeyEvent) (earlier : List KeyEvent)
    (htr : (((keyStage ['t']).play mergesInTurn ⟨demoListing, []⟩).get mergesInTurn_plays).1 =
      later ++ e :: earlier) : Carries ['t'] earlier e := by
  intro call m r hlabel h hh addr v hv
  have htail : e :: earlier ∈ [_, _, _, _, _, _, _, _, _] :=
    (List.mem_tails _ _).mpr ⟨later, htr.symm⟩
  simp only [List.mem_cons, List.not_mem_nil, or_false] at htail
  obtain htail | htail | htail | htail | htail | htail | htail | htail | htail := htail
  all_goals
    cases htail
    try (cases hlabel; done)
  · cases hlabel
    have hnone : ∀ {e : KeyEvent}, e.label.tag?.map Call.id ≠ some 1 →
        ∀ (c : Cmd) (r : Except Failure (Ans c)), e.label ≠ .ran (wrapTo 1 ['b']) c r := by
      intro e hne c r heq
      rw [heq] at hne
      exact hne rfl
    have htold : h = [_] := hh.unique (.ran _ _ (.other (by simp) (.other (hnone (by decide))
      (.other (hnone (by decide)) (.other (hnone (by decide)) (.other (hnone (by decide)) .nil))))))
    refine .inl ?_
    rw [htold]
    exact congrArg (fun o : Option Text => o.orElse fun _ => none) hv
  · cases hv

/-- After both have answered, the first one's address has its slice. -/
theorem wrapped_key_stays_mergesInTurn :
    Holds ['t'] ['a'] (wrapTo 0 ['a'])
      (((keyStage ['t']).play mergesInTurn ⟨demoListing, []⟩).get mergesInTurn_plays).1
      (((keyStage ['t']).play mergesInTurn ⟨demoListing, []⟩).get
        mergesInTurn_plays).2.state.redis :=
  wrapped_key_stays ['t'] demoListing _ _ (by simp [LowerKeyed, demoListing])
    (Stage.play_get mergesInTurn_plays) mergesInTurn_carries (wrapTo 0 ['a']) ['t'] [(['a'], ['s'])]
    rfl _ (List.mem_of_getElem? (i := 4) rfl) rfl (['a'], ['s']) (by simp)

/-- Both read before either writes. -/
def mergesAtOnce : List (Cue (Call KeyOp) Unit Empty) :=
  [.enter (wrapTo 0 ['a']), .turn 0 (), .enter (wrapTo 1 ['b']), .turn 0 (), .turn 1 (), .leave 1,
    .turn 0 (), .leave 0]

theorem mergesAtOnce_plays :
    ((keyStage ['t']).play mergesAtOnce ⟨demoListing, []⟩).isSome = true := by decide

/-- The slice of the first merge is lost, although the merge has answered yes. -/
theorem wrapped_key_lost_mergesAtOnce :
    ∃ (tr : List KeyEvent) (c : Pool Ans Failure Bool (Call KeyOp) State),
      PoolRun (keyStore ['t']) ⟨demoListing, []⟩ tr c ∧
      (∃ e ∈ tr, e.label = .finished (wrapTo 0 ['a']) (.ok true)) ∧
      c.state.redis.slice ['t'] ['a'] = none := by
  exact ⟨_, _, Stage.play_get mergesAtOnce_plays,
    ⟨_, List.mem_of_getElem? (i := 2) rfl, rfl⟩, by decide⟩

end A2AStore

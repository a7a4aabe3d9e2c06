import BlindMarket.Notifications.System

/-!
# What a call has been told before it writes

A marking writes what it has read, marked; a rebuild is a delete and a write of
the marked copies, with nothing of its own between them.
-/
namespace Notifications

open Async Prog Runs

variable {t : Call} {a : Answers Ans Failure} {address : Address} {α : Type}

/-- The answers of a `markAllRead` that has deleted the list it read and not written it back. -/
def Rebuilding (a : Answers Ans Failure) (address : Address) (items : List Notification) : Prop :=
  ∃ r, a = [⟨.del address, r⟩, ⟨.lrange address, .ok items⟩]

/-- What a call may ask for, given its answers. -/
def Asks (t : Call) (a : Answers Ans Failure) : Cmd → Prop
  | .lpush _ notif => notif.read = false ∧ ∀ other items, ¬ Rebuilding a other items
  | .lset address idx notif => ∃ items old, a = [⟨.lrange address, .ok items⟩] ∧
      items[idx]? = some old ∧ notif = old.mark ∧ t.op = .markRead address notif.id
  | .del address => ∃ items, a = [⟨.lrange address, .ok items⟩] ∧ t.op = .markAllRead address
  | .rpush address notifs => ∃ items, Rebuilding a address items ∧
      notifs = items.map Notification.mark
  | .lrange _ => a = []
  | .ltrim _ stop => stop = FEED_CAP - 1 ∧ ∀ other items, ¬ Rebuilding a other items
  | _ => ∀ other items, ¬ Rebuilding a other items

/-- How a call may end. -/
def Ends (t : Call) (a : Answers Ans Failure) (r : Except Failure Outcome) : Prop :=
  (∀ other items, ¬ Rebuilding a other items) ∧
  match t.op, r with
  | .markRead address id, .ok (.marked true) =>
    (∃ items n, a = [⟨.lrange address, .ok items⟩] ∧ n ∈ items ∧ n.id = id ∧ n.read = true) ∨
    ∃ idx n rest, a = ⟨.lset address idx n, .ok ()⟩ :: rest ∧ n.id = id ∧ n.read = true
  | .markAllRead address, .ok _ =>
    (∃ items, a = [⟨.lrange address, .ok items⟩] ∧ ∀ n ∈ items, n.read = true) ∨
    ∃ r', ⟨.del address, r'⟩ ∈ a
  | _, _ => True

/-! ## Pushes -/

/-- The commands of a push. -/
def Pushes : Cmd → Prop
  | .lpush _ notif => notif.read = false
  | .ltrim _ stop => stop = FEED_CAP - 1
  | .expire _ _ | .setOnce _ => True
  | _ => False

/-- Nothing has been deleted. -/
def NoDelete (a : Answers Ans Failure) : Prop := ∀ address r, ⟨.del address, r⟩ ∉ a

theorem NoDelete.not_rebuilding (h : NoDelete a) (address : Address) (items : List Notification) :
    ¬ Rebuilding a address items := by
  rintro ⟨r, rfl⟩
  exact h address r List.mem_cons_self

theorem NoDelete.asks {c : Cmd} (h : NoDelete a) (hc : Pushes c) : Asks t a c := by
  cases c with
  | lpush other notif => exact ⟨hc, h.not_rebuilding⟩
  | ltrim other stop => exact ⟨hc, h.not_rebuilding⟩
  | expire other seconds => exact h.not_rebuilding
  | setOnce dedupeKey => exact h.not_rebuilding
  | _ => exact hc.elim

theorem NoDelete.cons {c : Cmd} (h : NoDelete a) (hc : Pushes c) (r : Except Failure (Ans c)) :
    NoDelete (⟨c, r⟩ :: a) := by
  intro address r' hmem
  rcases List.mem_cons.1 hmem with heq | hmem
  · cases heq
    exact hc
  · exact h address r' hmem

/-- A program that only pushes. -/
theorem told_of_pushes {p : Store α} (h : p.Issues Pushes) :
    p.Told (Asks t) (fun a _ => NoDelete a) [] :=
  h.told (I := NoDelete) (by simp [NoDelete]) (fun _ _ r ha hc => ha.cons hc r)
    fun _ _ ha hc => ha.asks hc

theorem issues_pipeline {cmds : List Cmd} (h : ∀ c ∈ cmds, Pushes c) :
    (pipeline cmds).Issues Pushes := by
  induction cmds with
  | nil => trivial
  | cons c cmds ih => exact ⟨h c (by simp), fun _ => ih fun c' hc' => h c' (by simp [hc'])⟩

theorem pushes_pushCmds (input : Input) (id : NoticeId) :
    ∀ c ∈ pushCmds address (input.notif id), Pushes c := by
  simp [pushCmds, Pushes, Input.notif]

theorem issues_notify (input : Input) (id : NoticeId) :
    (notify address input id).Issues Pushes :=
  (issues_pipeline (pushes_pushCmds input id)).bind fun _ => trivial

theorem issues_notifyOnce (dedupeKey : String) (input : Input) (id : NoticeId) :
    (notifyOnce dedupeKey address input id).Issues Pushes := by
  refine (issues_call trivial).bind fun first => ?_
  cases first with
  | false => trivial
  | true => exact (issues_notify input id).bind fun _ => trivial

theorem issues_claim (batch : List OnceNotice) : (claim batch).Issues Pushes := by
  induction batch with
  | nil => trivial
  | cons n batch ih => exact ⟨trivial, fun _ => ih.andThen fun _ => trivial⟩

theorem issues_sendBatch (batch : List OnceNotice) : (sendBatch batch).Issues Pushes := by
  refine (issues_claim batch).bind fun fresh => ?_
  split
  · trivial
  · refine (issues_pipeline fun c hc => ?_).bind fun _ => trivial
    obtain ⟨n, -, hc⟩ := List.mem_flatMap.1 hc
    exact pushes_pushCmds n.input n.id c hc

theorem issues_sendBatches (batches : List (List OnceNotice)) (sent : Nat) :
    (sendBatches batches sent).Issues Pushes := by
  induction batches generalizing sent with
  | nil => trivial
  | cons batch batches ih => exact (issues_sendBatch batch).bind fun _ => ih _

/-! ## Markings -/

theorem not_rebuilding_nil (items : List Notification) : ¬ Rebuilding [] address items := by
  rintro ⟨r, h⟩
  cases h

theorem not_rebuilding_lrange {r : Except Failure (List Notification)} {other : Address}
    (items : List Notification) : ¬ Rebuilding [⟨.lrange other, r⟩] address items := by
  rintro ⟨r', h⟩
  simp at h

theorem told_markRead {id : NoticeId} (h : t.op = .markRead address id) :
    t.op.prog.Told (Asks t) (Ends t) [] := by
  rw [h]
  refine ⟨rfl, fun r => ?_⟩
  cases r with
  | error e => exact ⟨fun _ => not_rebuilding_lrange, by simp [h]⟩
  | ok items =>
    dsimp only [Prog.andThen]
    split
    · exact ⟨fun _ => not_rebuilding_lrange, by simp [h]⟩
    · next idx hidx =>
      split
      · exact ⟨fun _ => not_rebuilding_lrange, by simp [h]⟩
      · next notif hnotif =>
        have hid : notif.id = id := by
          obtain ⟨hlt, hid, -⟩ := List.findIdx?_eq_some_iff_getElem.1 hidx
          rw [List.getElem?_eq_getElem hlt] at hnotif
          cases hnotif
          simpa using hid
        split
        · next hread =>
          refine ⟨fun _ => not_rebuilding_lrange, ?_⟩
          rw [h]
          exact .inl ⟨items, notif, rfl, List.mem_of_getElem? hnotif, hid, hread⟩
        · refine ⟨⟨items, notif, rfl, hnotif, rfl, by rw [h]; simp [hid]⟩, fun r => ?_⟩
          have hset (items' : List Notification) (other : Address) :
              ¬ Rebuilding [⟨.lset address idx { notif with read := true }, r⟩,
                ⟨.lrange address, .ok items⟩] other items' := by
            rintro ⟨r', hr'⟩
            simp at hr'
          cases r with
          | error e => exact ⟨fun other items' => hset items' other, by simp [h]⟩
          | ok _ =>
            refine ⟨fun other items' => hset items' other, ?_⟩
            rw [h]
            exact .inr ⟨idx, _, _, rfl, hid, rfl⟩

theorem told_markAllRead (h : t.op = .markAllRead address) :
    t.op.prog.Told (Asks t) (Ends t) [] := by
  rw [h]
  refine ⟨rfl, fun r => ?_⟩
  cases r with
  | error e => exact ⟨fun _ => not_rebuilding_lrange, by simp [h]⟩
  | ok items =>
    by_cases hunread : (items.filter fun n => !n.read).length = 0
    · have hdone : Ends t [⟨.lrange address, .ok items⟩] (.ok (.markedAll 0)) := by
        refine ⟨fun _ => not_rebuilding_lrange, ?_⟩
        rw [h]
        refine .inl ⟨items, rfl, fun n hn => ?_⟩
        have hnone := List.filter_eq_nil_iff.1 (List.length_eq_zero_iff.1 hunread) n hn
        simpa using hnone
      change Prog.Told _ _ _ (Prog.bind (if (items.filter fun n => !n.read).length = 0
        then pure 0 else _) _)
      rw [if_pos hunread]
      exact hdone
    · have hlength : 0 < items.length := by
        refine List.length_pos_iff.2 ?_
        rintro rfl
        exact hunread rfl
      change Prog.Told _ _ _ (Prog.bind (if (items.filter fun n => !n.read).length = 0
        then pure 0 else (do
          pipeline (.del address ::
            ((if 0 < items.length then [.rpush address (items.map Notification.mark)] else []) ++
              [.expire address FEED_TTL_S]))
          return (items.filter fun n => !n.read).length)) _)
      rw [if_neg hunread, if_pos hlength]
      refine ⟨⟨items, rfl, h⟩, fun r => ?_⟩
      refine ⟨⟨items, ⟨r, rfl⟩, rfl⟩, fun r' => ?_⟩
      refine ⟨fun other items' => ?_, fun r'' => ⟨fun other items' => ?_, ?_⟩⟩
      · rintro ⟨r₁, hr₁⟩
        simp at hr₁
      · rintro ⟨r₁, hr₁⟩
        simp at hr₁
      · rw [h]
        exact .inr ⟨r, by simp⟩

theorem told_op (t : Call) : t.op.prog.Told (Asks t) (Ends t) [] := by
  have hpush {p : Store Outcome} (hp : p.Issues Pushes)
      (hop : ∀ a r, NoDelete a → Ends t a r) : p.Told (Asks t) (Ends t) [] :=
    (told_of_pushes hp).mono (fun _ _ h => h) hop
  cases hop : t.op with
  | notify toAddress input id =>
    refine hpush ((issues_notify input id).bind fun _ => trivial) fun a r ha => ?_
    exact ⟨ha.not_rebuilding, by simp [hop]⟩
  | notifyOnce dedupeKey toAddress input id =>
    refine hpush ((issues_notifyOnce dedupeKey input id).bind fun _ => trivial) fun a r ha => ?_
    exact ⟨ha.not_rebuilding, by simp [hop]⟩
  | notifyOnceMany notices =>
    refine hpush ((issues_sendBatches _ 0).bind fun _ => trivial) fun a r ha => ?_
    exact ⟨ha.not_rebuilding, by simp [hop]⟩
  | markRead address id => exact hop ▸ told_markRead hop
  | markAllRead address => exact hop ▸ told_markAllRead hop

end Notifications

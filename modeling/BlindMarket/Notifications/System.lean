import BlindMarket.Notifications.Code
import BlindMarket.Support.Knowledge

/-!
# Feeds under way

Any number of calls over one Redis, one command at a time. No command fails but
a write at an index that is not there, no feed goes without a push for the 30
days it is kept, and a call that dies leaves what it has written.
-/
namespace Notifications

open Async Prog Runs

inductive Op
  | notify (toAddress : Address) (input : Input) (id : NoticeId)
  | notifyOnce (dedupeKey : String) (toAddress : Address) (input : Input) (id : NoticeId)
  | notifyOnceMany (notices : List OnceNotice)
  | markRead (address : Address) (id : NoticeId)
  | markAllRead (address : Address)
  deriving DecidableEq, Repr

structure Call where
  id : Nat
  op : Op
  deriving DecidableEq, Repr

inductive Outcome
  | notified (notif : Option Notification)
  | sentOnce (sent : Bool)
  | sent (count : Nat)
  | marked (found : Bool)
  | markedAll (unread : Nat)
  deriving DecidableEq, Repr

def Op.prog : Op → Store Outcome
  | .notify toAddress input id => do return .notified (← Notifications.notify toAddress input id)
  | .notifyOnce dedupeKey toAddress input id => do
    return .sentOnce (← Notifications.notifyOnce dedupeKey toAddress input id)
  | .notifyOnceMany notices => do return .sent (← Notifications.notifyOnceMany notices)
  | .markRead address id => do return .marked (← Notifications.markRead address id)
  | .markAllRead address => do return .markedAll (← Notifications.markAllRead address)

structure State where
  feed : Address → List Notification := fun _ => []
  once : List String := []
  calls : Nat := 0

def State.put (s : State) (address : Address) (items : List Notification) : State :=
  { s with feed := Function.update s.feed address items }

@[simp] theorem State.feed_put (s : State) (address : Address) (items : List Notification) :
    (s.put address items).feed address = items := by simp [State.put]

theorem State.feed_put_ne (s : State) {address other : Address} (h : other ≠ address)
    (items : List Notification) : (s.put address items).feed other = s.feed other := by
  simp [State.put, h]

@[simp] theorem State.calls_put (s : State) (address : Address) (items : List Notification) :
    (s.put address items).calls = s.calls := rfl

def respond (s : State) : (c : Cmd) → Except Failure (Ans c) × State
  | .lpush address notif =>
    (.ok ((s.feed address).length + 1), s.put address (notif :: s.feed address))
  | .ltrim address stop => (.ok (), s.put address ((s.feed address).take (stop + 1)))
  | .expire _ _ => (.ok (), s)
  | .lrange address => (.ok (s.feed address), s)
  | .lset address idx notif =>
    if idx < (s.feed address).length then
      (.ok (), s.put address ((s.feed address).set idx notif))
    else (.error .noSuchIndex, s)
  | .del address => (.ok (), s.put address [])
  | .rpush address notifs =>
    (.ok ((s.feed address).length + notifs.length), s.put address (s.feed address ++ notifs))
  | .setOnce dedupeKey =>
    if dedupeKey ∈ s.once then (.ok false, s)
    else (.ok true, { s with once := dedupeKey :: s.once })

def store : Async.System Ans Failure Outcome Call State where
  exec _ s c r s' := respond s c = (r, s')
  start _ s t p s' := t.id = s.calls ∧ p = t.op.prog ∧ s' = { s with calls := s.calls + 1 }
  env _ _ := False
  die _ s s' := s' = s

abbrev Ev := Event Ans Failure Outcome Call State

variable {s s' : State} {c : Cmd} {r : Except Failure (Ans c)} {t : Call} {address : Address}

theorem respond_calls (h : respond s c = (r, s')) : s'.calls = s.calls := by
  cases c with
  | lset address idx notif =>
    simp only [respond] at h
    split at h <;> cases h <;> rfl
  | setOnce dedupeKey =>
    simp only [respond] at h
    split at h <;> cases h <;> rfl
  | _ =>
    cases h
    rfl

theorem store_numbered : Numbered store Call.id State.calls where
  exec _ _ _ _ _ h := respond_calls h
  start := by
    rintro tags s t p s' ⟨hid, -, rfl⟩
    exact ⟨hid, rfl⟩
  env _ _ h := h.elim
  die := by
    rintro t s s' rfl
    rfl

/-- The feed a command may change. -/
def Cmd.writes : Cmd → Option Address
  | .lpush address _ | .ltrim address _ | .lset address _ _ | .del address | .rpush address _ =>
    some address
  | _ => none

theorem respond_feed (h : respond s c = (r, s')) (hc : c.writes ≠ some address) :
    s'.feed address = s.feed address := by
  have hne (other : Address) (ho : c.writes = some other) : address ≠ other := by
    rintro rfl
    exact hc ho
  cases c with
  | lpush other notif =>
    cases h
    exact State.feed_put_ne s (hne other rfl) _
  | ltrim other stop =>
    cases h
    exact State.feed_put_ne s (hne other rfl) _
  | del other =>
    cases h
    exact State.feed_put_ne s (hne other rfl) _
  | rpush other notifs =>
    cases h
    exact State.feed_put_ne s (hne other rfl) _
  | lset other idx notif =>
    simp only [respond] at h
    split at h
    · cases h
      exact State.feed_put_ne s (hne other rfl) _
    · cases h
      rfl
  | setOnce dedupeKey =>
    simp only [respond] at h
    split at h <;> cases h <;> rfl
  | _ =>
    cases h
    rfl

/-! ## Scripts -/

def stage : Async.Stage store Unit Empty where
  respond _ _ := respond
  enter s t :=
    if t.id = s.calls then some (t.op.prog, { s with calls := s.calls + 1 }) else none
  move m := m.elim
  kill _ s := s
  exec _ _ _ _ := rfl
  start := by
    intro tags s t p s' hs
    split at hs
    · next h =>
      cases hs
      exact ⟨h, rfl, rfl⟩
    · cases hs
  env m := m.elim
  die _ _ := rfl

end Notifications

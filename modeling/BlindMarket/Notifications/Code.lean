import BlindMarket.Support.Async

/-!
# Notification feeds

An address's feed is a Redis list, newest first, cut to the last `FEED_CAP`
notices. Addresses are in lower case.
-/
namespace Notifications

open Async Prog

abbrev Address := Nat

inductive NotificationType
  | assigned
  | submitted
  | completed
  | failed
  | disputed
  | review_received
  | expired
  | deadline_soon
  | agent_stopped
  | submissions
  deriving DecidableEq, Repr

/-- The time in milliseconds and four random bytes. -/
structure NoticeId where
  ms : Nat
  random : Nat
  deriving DecidableEq, Repr

structure Notification where
  id : NoticeId
  type : NotificationType
  title : String
  body : Option String := none
  taskId : Option String := none
  createdAt : Nat
  read : Bool
  deriving DecidableEq, Repr

structure Input where
  type : NotificationType
  title : String
  body : Option String := none
  taskId : Option String := none
  deriving DecidableEq, Repr

def FEED_CAP : Nat := 100

def FEED_TTL_S : Nat := 30 * 24 * 3600

def ONCE_BATCH : Nat := 200

/-- The notice as it is pushed. -/
def Input.notif (input : Input) (id : NoticeId) : Notification where
  id := id
  type := input.type
  title := input.title
  body := input.body
  taskId := input.taskId
  createdAt := id.ms
  read := false

/-- Redis commands on feeds and on the keys that keep a notice from being sent twice. -/
inductive Cmd
  | lpush (address : Address) (notif : Notification)
  /-- From the head to `stop`. -/
  | ltrim (address : Address) (stop : Nat)
  | expire (address : Address) (seconds : Nat)
  /-- The whole list. -/
  | lrange (address : Address)
  | lset (address : Address) (idx : Nat) (notif : Notification)
  | del (address : Address)
  | rpush (address : Address) (notifs : List Notification)
  /-- `SET … NX`: whether the key was set. -/
  | setOnce (dedupeKey : String)
  deriving DecidableEq, Repr

abbrev Ans : Cmd → Type
  | .lpush _ _ | .rpush _ _ => Nat
  | .lrange _ => List Notification
  | .setOnce _ => Bool
  | _ => Unit

/-- The only command that can be refused here writes at an index the list does not have. -/
inductive Failure
  | noSuchIndex
  deriving DecidableEq, Repr

abbrev Store := Prog Ans Failure

/-- The commands one after the other; the pipeline is answered whatever they answer. -/
def pipeline : List Cmd → Store Unit
  | [] => pure ()
  | c :: cs => .await c fun _ => pipeline cs

/-- The three commands that push a notice. -/
def pushCmds (address : Address) (notif : Notification) : List Cmd :=
  [.lpush address notif, .ltrim address (FEED_CAP - 1), .expire address FEED_TTL_S]

def notify (toAddress : Address) (input : Input) (id : NoticeId) : Store (Option Notification) := do
  pipeline (pushCmds toAddress (input.notif id))
  return some (input.notif id)

def markRead (address : Address) (id : NoticeId) : Store Bool := do
  let items ← call (Cmd.lrange address)
  match items.findIdx? (fun n => n.id = id) with
  | none => return false
  | some idx =>
    match items[idx]? with
    | none => return false
    | some notif =>
      if notif.read then return true
      call (Cmd.lset address idx { notif with read := true })
      return true

/-- The notice marked read. -/
def Notification.mark (notif : Notification) : Notification := { notif with read := true }

def markAllRead (address : Address) : Store Nat := do
  let notifs ← call (Cmd.lrange address)
  let unread := (notifs.filter fun n => !n.read).length
  if unread = 0 then return 0
  pipeline (.del address ::
    ((if 0 < notifs.length then [.rpush address (notifs.map Notification.mark)] else []) ++
      [.expire address FEED_TTL_S]))
  return unread

def notifyOnce (dedupeKey : String) (toAddress : Address) (input : Input) (id : NoticeId) :
    Store Bool := do
  let first ← call (Cmd.setOnce dedupeKey)
  if first then return (← notify toAddress input id).isSome
  return false

structure OnceNotice where
  dedupeKey : String
  toAddress : Address
  input : Input
  /-- What the notice is given when it is pushed. -/
  id : NoticeId
  deriving DecidableEq, Repr

/-- The notices of the batch whose keys were set now. -/
def claim : List OnceNotice → Store (List OnceNotice)
  | [] => pure []
  | n :: batch => .await (.setOnce n.dedupeKey) fun r =>
    (claim batch).andThen fun rest =>
      .done (rest.map fun fresh => if r = .ok true then n :: fresh else fresh)

def sendBatch (batch : List OnceNotice) : Store Nat := do
  let fresh ← claim batch
  if fresh.length = 0 then return 0
  pipeline (fresh.flatMap fun n => pushCmds n.toAddress (n.input.notif n.id))
  return fresh.length

/-- The batches that are left. -/
def sendBatches : List (List OnceNotice) → Nat → Store Nat
  | [], sent => pure sent
  | batch :: batches, sent => do
    let fresh ← sendBatch batch
    sendBatches batches (sent + fresh)

def notifyOnceMany (notices : List OnceNotice) : Store Nat :=
  sendBatches (notices.toChunks ONCE_BATCH) 0

end Notifications

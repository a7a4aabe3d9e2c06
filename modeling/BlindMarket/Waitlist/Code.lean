import BlindMarket.Support.Async

/-!
# The waitlist

The routes of the waitlist service and the statements they send to the one
table `waitlist_signups`. Requests arrive parsed. `H` is what SHA-256 makes of
a token.
-/
namespace Waitlist

open Async Prog

inductive WaitlistTask
  | follow
  | like
  | repost
  | comment
  deriving DecidableEq, Repr

def waitlistTaskPoints : WaitlistTask → Nat
  | .follow | .like | .repost => 1
  | .comment => 3

def referralPoints : Nat := 2

def positionBoostPerPoint : Nat := 10

def leaderboardSize : Nat := 25

def pointsFor (tasks : List WaitlistTask) : Nat :=
  tasks.foldl (fun sum t => sum + waitlistTaskPoints t) 0

def codeAlphabet : List Char := "abcdefghjkmnpqrstuvwxyz23456789".toList

def newReferralCode (bytes : List UInt8) : List Char :=
  bytes.map fun byte => codeAlphabet.getD (byte.toNat % codeAlphabet.length) 'a'

/-- A row of `waitlist_signups`. -/
structure Signup (H : Type) where
  id : Nat
  email : String
  xHandle : Option String
  tasks : List WaitlistTask
  points : Nat
  tokenHash : H
  referralCode : List Char
  referredBy : Option Nat
  referralCount : Nat
  deriving DecidableEq, Repr

/-- What an insert is given. -/
structure NewSignup (H : Type) where
  email : String
  xHandle : String
  tasks : List WaitlistTask
  points : Nat
  tokenHash : H
  referralCode : List Char
  ref : Option (List Char)
  deriving DecidableEq, Repr

structure WaitlistStanding where
  position : Nat
  total : Nat
  points : Nat
  taskPoints : Nat
  referrals : Nat
  referralCode : List Char
  xHandle : Option String
  tasks : List WaitlistTask
  deriving DecidableEq, Repr

structure LeaderboardEntry where
  rank : Nat
  handle : Option String
  points : Nat
  referrals : Nat
  deriving DecidableEq, Repr

inductive Failure
  /-- `23505`, with the name of the index -/
  | unique (index : String)
  /-- The database was lost. -/
  | lost
  /-- `waitlist signup … vanished mid-request` -/
  | vanished (id : Nat)
  /-- `waitlist insert conflicted but no row matched the email` -/
  | unmatched
  /-- 401 `WAITLIST_TOKEN_INVALID`, `Unknown waitlist token` -/
  | tokenInvalid
  deriving DecidableEq, Repr

def isReferralCodeCollision (err : Failure) : Bool :=
  err = .unique "waitlist_signups_referral_code_key"

/-! ## The statements -/

variable {H : Type} [DecidableEq H]

/-- The table, in the order its rows came to be. -/
abbrev Table (H : Type) := List (Signup H)

namespace Table

variable (db : Table H)

/-- `ROW_NUMBER() OVER (ORDER BY id)` -/
def rowNumber (me : Signup H) : Nat := db.countP (fun s => decide (s.id < me.id)) + 1

end Table

def Signup.score (me : Signup H) : Nat := me.points + me.referralCount * referralPoints

namespace Table

variable (db : Table H)

def eff (me : Signup H) : Int := db.rowNumber me - (me.score * positionBoostPerPoint : Nat)

/-- `s.eff < me.eff OR (s.eff = me.eff AND s.id < me.id)` -/
def ahead (s me : Signup H) : Bool :=
  db.eff s < db.eff me || (db.eff s = db.eff me && s.id < me.id)

def position (me : Signup H) : Nat := db.countP (fun s => db.ahead s me) + 1

def standing (id : Nat) : Option WaitlistStanding :=
  (db.find? (·.id = id)).map fun me => {
    position := db.position me
    total := db.length
    points := me.points + me.referralCount * referralPoints
    taskPoints := me.points
    referrals := me.referralCount
    referralCode := me.referralCode
    xHandle := me.xHandle
    tasks := me.tasks }

def idByEmail (email : String) : Option Nat := (db.find? (·.email = email)).map (·.id)

def idByToken (tokenHash : H) : Option Nat := (db.find? (·.tokenHash = tokenHash)).map (·.id)

/-- `ORDER BY eff, id LIMIT $1` -/
def front : List (Signup H) :=
  (db.mergeSort fun s t =>
    db.eff s < db.eff t || (db.eff s = db.eff t && s.id ≤ t.id)).take leaderboardSize

def leaderboard : List LeaderboardEntry :=
  db.front.zipIdx.map fun p => {
    rank := p.2 + 1
    handle := p.1.xHandle
    points := p.1.score
    referrals := p.1.referralCount }

end Table

/-- One more referral for the row `referredBy` names. -/
def Signup.credit (referredBy : Option Nat) (s : Signup H) : Signup H :=
  if some s.id = referredBy then { s with referralCount := s.referralCount + 1 } else s

/-- Records one more task, unless it is there. -/
def Signup.addTask (task : WaitlistTask) (points : Nat) (s : Signup H) : Signup H :=
  if task ∈ s.tasks then s
  else { s with tasks := s.tasks ++ [task], points := s.points + points }

def NewSignup.row (new : NewSignup H) (id : Nat) (referredBy : Option Nat) : Signup H where
  id := id
  email := new.email
  xHandle := some new.xHandle
  tasks := new.tasks
  points := new.points
  tokenHash := new.tokenHash
  referralCode := new.referralCode
  referredBy := referredBy
  referralCount := 0

namespace Table

variable (db : Table H)

/-- `(SELECT id FROM waitlist_signups WHERE referral_code = $7)`, over the rows the statement
began with. -/
def referrer (seen : Nat) (ref : Option (List Char)) : Option Nat :=
  ref.bind fun code => ((db.take seen).find? (·.referralCode = code)).map (·.id)

/-- The insert of a signup and the credit of its referrer, as one statement. -/
def insert (id seen : Nat) (new : NewSignup H) : Except Failure (Option Nat) × Table H :=
  if db.any (·.email = new.email) then (.ok none, db)
  else if db.any (·.tokenHash = new.tokenHash) then
    (.error (.unique "waitlist_signups_token_hash_key"), db)
  else if db.any (·.referralCode = new.referralCode) then
    (.error (.unique "waitlist_signups_referral_code_key"), db)
  else if db.any (·.id = id) then (.error (.unique "waitlist_signups_pkey"), db)
  else
    let referredBy := db.referrer seen new.ref
    (.ok (some id), db.map (Signup.credit referredBy) ++ [new.row id referredBy])

def addTask (tokenHash : H) (task : WaitlistTask) (points : Nat) : Option Nat × Table H :=
  (db.idByToken tokenHash,
    db.map fun s => if s.tokenHash = tokenHash then s.addTask task points else s)

end Table

/-! ## The requests -/

inductive Cmd (H : Type)
  /-- `wl_` and 24 random bytes -/
  | newToken
  | randomBytes (n : Nat)
  | insert (new : NewSignup H)
  | idByEmail (email : String)
  | idByToken (tokenHash : H)
  | addTask (tokenHash : H) (task : WaitlistTask) (points : Nat)
  | standing (id : Nat)
  | total
  | leaderboard
  deriving DecidableEq, Repr

abbrev Ans : Cmd H → Type
  | .newToken => String
  | .randomBytes n => Vector UInt8 n
  | .standing _ => Option WaitlistStanding
  | .total => Nat
  | .leaderboard => List LeaderboardEntry
  | _ => Option Nat

abbrev Service (H : Type) := Prog (Ans (H := H)) Failure

inductive Request
  | stats
  | leaderboard
  | join (email xHandle : String) (tasks : List WaitlistTask) (ref : Option (List Char))
  | me (token : String)
  | addTask (token : String) (task : WaitlistTask)
  deriving DecidableEq, Repr

inductive Response
  | total (total : Nat)
  | leaderboard (entries : List LeaderboardEntry)
  /-- 201, with `alreadyJoined: false` -/
  | created (token : String) (standing : WaitlistStanding)
  /-- 200, with `alreadyJoined: true` -/
  | alreadyJoined (standing : WaitlistStanding)
  | standing (standing : WaitlistStanding)
  deriving DecidableEq, Repr

variable (hashToken : String → H)

def standingById (id : Nat) : Service H WaitlistStanding := do
  match ← call (Cmd.standing id) with
  | some standing => return standing
  | none => throw (.vanished id)

def tryInsert (new : List Char → NewSignup H) : Service H (Except Failure (Option Nat)) := do
  let bytes ← call (Cmd.randomBytes 8)
  (call (Cmd.insert (new (newReferralCode bytes.toList)))).attempt

/-- The attempts to insert, with `again` of them left after the first. -/
def insertSignup (new : List Char → NewSignup H) : (again : Nat) → Service H (Option Nat)
  | 0 => do
    match ← tryInsert new with
    | .ok inserted => return inserted
    | .error err => throw err
  | again + 1 => do
    match ← tryInsert new with
    | .ok inserted => return inserted
    | .error err => if isReferralCodeCollision err then insertSignup new again else throw err

def joinWaitlist (email xHandle : String) (tasks : List WaitlistTask) (ref : Option (List Char)) :
    Service H (Option String × WaitlistStanding) := do
  let token ← call Cmd.newToken
  let inserted ← insertSignup (fun referralCode => {
    email := email
    xHandle := xHandle
    tasks := tasks
    points := pointsFor tasks
    tokenHash := hashToken token
    referralCode := referralCode
    ref := ref }) 2
  match inserted with
  | some id => return (some token, ← standingById id)
  | none =>
    match ← call (Cmd.idByEmail email) with
    | some id => return (none, ← standingById id)
    | none => throw .unmatched

def standingOf (id : Option Nat) : Service H (Option WaitlistStanding) :=
  match id with
  | some id => do return some (← standingById id)
  | none => return none

def getStandingByToken (token : String) : Service H (Option WaitlistStanding) := do
  standingOf (← call (Cmd.idByToken (hashToken token)))

def addTaskByToken (token : String) (task : WaitlistTask) :
    Service H (Option WaitlistStanding) := do
  standingOf (← call (Cmd.addTask (hashToken token) task (waitlistTaskPoints task)))

def orInvalid : Option WaitlistStanding → Service H Response
  | some standing => return .standing standing
  | none => throw .tokenInvalid

def waitlistRouter : Request → Service H Response
  | .stats => do return .total (← call Cmd.total)
  | .leaderboard => do return .leaderboard (← call Cmd.leaderboard)
  | .join email xHandle tasks ref => do
    match ← joinWaitlist hashToken email xHandle tasks.eraseDups ref with
    | (some token, standing) => return .created token standing
    | (none, standing) => return .alreadyJoined standing
  | .me token => do orInvalid (← getStandingByToken hashToken token)
  | .addTask token task => do orInvalid (← addTaskByToken hashToken token task)

end Waitlist

import BlindMarket.Support.Runs

/-!
# Upload turns

`upload0g` with its turns and its limits. Time is an exact clock, and only the
network and the timers take any. `uploadTurn` is the chain of the attempts in the
order in which they joined it: each waits for the one before.
-/
namespace UploadTurns

def UPLOAD_ATTEMPTS : Nat := 2
def UPLOAD_ATTEMPT_MS : ℚ := 40000
def UPLOAD_RETRY_PAUSE_MS : ℚ := 5000
def UPLOAD_DEADLINE_MS : ℚ := 85000
def MIN_ATTEMPT_MS : ℚ := 10000

/-- Where a call of `upload0g` stands. -/
inductive Stage where
  /-- Its attempt is in the chain. -/
  | queued (attempt : Nat)
  /-- The pause before this attempt. -/
  | pausing (attempt : Nat) (till : ℚ)
  /-- Stored, or refused with 503 STORAGE_UNAVAILABLE. -/
  | answered (time : ℚ) (stored : Bool)
  deriving DecidableEq, Repr

structure Call where
  joined : ℚ
  stage : Stage
  deriving DecidableEq, Repr

def Call.deadline (c : Call) : ℚ := c.joined + UPLOAD_DEADLINE_MS

/-- How an attempt gave up its turn. -/
inductive Ending where
  | stored | failed | noAnswer | tooLate
  deriving DecidableEq, Repr

inductive TurnStage where
  | waiting
  | running (start budget : ℚ)
  /-- `start` and budget are those of an attempt that was started. -/
  | settled (start : Option (ℚ × ℚ)) (time : ℚ) (how : Ending)
  deriving DecidableEq, Repr

/-- One attempt in the chain of `inUploadTurn`. -/
structure Turn where
  call : Nat
  attempt : Nat
  stage : TurnStage
  deriving DecidableEq, Repr

def Turn.isOver (t : Turn) : Bool :=
  match t.stage with
  | .settled .. => true
  | _ => false

structure State where
  now : ℚ
  /-- The calls so far, numbered as they came. -/
  count : Nat
  calls : Nat → Call
  turns : List Turn

/-- A process that has had no upload. -/
def idle (now : ℚ) : State := ⟨now, 0, fun _ => ⟨now, .queued 1⟩, []⟩

inductive Action where
  | join
  | begin (k : Nat)
  /-- The SDK answers the attempt, with an error or a transaction. -/
  | answer (k : Nat) (stored : Bool)
  | limit (k : Nat)
  | resume (call : Nat)
  | elapse (d : ℚ)
  deriving DecidableEq, Repr

/-- A failed attempt: the head of the loop for the next one, or the end of the loop. -/
def Call.fail (now : ℚ) (attempt : Nat) (c : Call) : Call :=
  { c with
    stage :=
      if attempt < UPLOAD_ATTEMPTS then
        if c.deadline - now < UPLOAD_RETRY_PAUSE_MS + MIN_ATTEMPT_MS then .answered now false
        else .pausing (attempt + 1) (now + UPLOAD_RETRY_PAUSE_MS)
      else .answered now false }

/-- An attempt that has joined the chain. -/
def State.inUploadTurn (s : State) (call attempt : Nat) (c : Call) : State :=
  { s with
    calls := Function.update s.calls call { c with stage := .queued attempt }
    turns := s.turns ++ [⟨call, attempt, .waiting⟩] }

/-- An attempt that gives up its turn, and its call. -/
def State.giveUp (s : State) (k : Nat) (t : Turn) (start : Option (ℚ × ℚ)) (how : Ending)
    (c : Call) : State :=
  { s with
    calls := Function.update s.calls t.call c
    turns := s.turns.set k { t with stage := .settled start s.now how } }

/-- The attempt before has settled. -/
def State.free (s : State) (k : Nat) : Bool := k = 0 || s.turns[k - 1]?.any Turn.isOver

def State.ready (s : State) (k : Nat) : Bool :=
  s.turns[k]?.any (fun t => t.stage = .waiting) && s.free k

/-- Nothing but the network and the timers is left to wait for, and no timer ends before `till`. -/
def State.quiet (s : State) (till : ℚ) : Bool :=
  ((List.range s.turns.length).all fun k => !s.ready k) &&
  (s.turns.all fun t =>
    match t.stage with
    | .running start budget => till ≤ start + budget
    | _ => true) &&
  (List.range s.count).all fun call =>
    match (s.calls call).stage with
    | .pausing _ wake => till ≤ wake
    | _ => true

/-- One step. What the SDK answers to an attempt that is over goes nowhere. -/
def step (s : State) : Action → Option State
  | .join => some { s.inUploadTurn s.count 1 ⟨s.now, .queued 1⟩ with count := s.count + 1 }
  | .begin k =>
    match s.turns[k]? with
    | some t =>
      if s.ready k then
        let c := s.calls t.call
        let budget := min UPLOAD_ATTEMPT_MS (c.deadline - s.now)
        if budget < MIN_ATTEMPT_MS then
          some (s.giveUp k t none .tooLate (c.fail s.now t.attempt))
        else some { s with turns := s.turns.set k { t with stage := .running s.now budget } }
      else none
    | none => none
  | .answer k stored =>
    match s.turns[k]? with
    | some ⟨call, attempt, .running start budget⟩ =>
      let t := ⟨call, attempt, .running start budget⟩
      let c := s.calls call
      if stored then
        some (s.giveUp k t (some (start, budget)) .stored { c with stage := .answered s.now true })
      else some (s.giveUp k t (some (start, budget)) .failed (c.fail s.now attempt))
    | _ => none
  | .limit k =>
    match s.turns[k]? with
    | some ⟨call, attempt, .running start budget⟩ =>
      if s.now = start + budget then
        some (s.giveUp k ⟨call, attempt, .running start budget⟩ (some (start, budget)) .noAnswer
          ((s.calls call).fail s.now attempt))
      else none
    | _ => none
  | .resume call =>
    match (s.calls call).stage with
    | .pausing attempt till =>
      if call < s.count ∧ s.now = till then some (s.inUploadTurn call attempt (s.calls call))
      else none
    | _ => none
  | .elapse d =>
    if 0 < d ∧ s.quiet (s.now + d) then some { s with now := s.now + d } else none

end UploadTurns

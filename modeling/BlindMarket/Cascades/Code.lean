import BlindMarket.Support.Async

/-!
# Cascades: data and functions

The offer queue of one task: the ranking that `a2aStore.ts` keeps under the
cascade key, the exclusive offer under the offer key, and the functions of
`a2a.ts` that start the cascade, advance it when a window is over or the
holder declines, and take the task. Scores decide nothing here but are carried
along. Addresses are naturals, so their case is gone.
-/
namespace Cascades

open Async Prog

abbrev Address := Nat

def CASCADE_OFFER_MS : Nat := 12000
def CASCADE_TTL_MS : Nat := 120000
def OFFER_TTL_MS : Nat := 15000

structure CascadeEntry where
  address : Address
  score : Nat := 0
  deriving DecidableEq, Repr

structure TaskOffer where
  address : Address
  score : Nat
  expiresAt : Nat
  deriving DecidableEq, Repr

/-- `position` is the index into `ranked` that is being offered. -/
structure TaskCascade where
  ranked : List CascadeEntry
  position : Nat
  deriving DecidableEq, Repr

inductive Status where
  | opened | accepted
  deriving DecidableEq, Repr

inductive Code where
  | rejected | notFound | invalidState | notOfferHolder | offerHeld | alreadyTaken
  deriving DecidableEq, Repr

/-- What the cascade asks of Redis, the clock and the sockets. The cascade key is read twice over:
by `getCascade` and by the read-modify-write of `advanceCascade`. -/
inductive Cmd where
  | now
  | rankedEntries
  | getMeta
  | getState
  | casAccept (address : Address)
  | getOffer
  | setOffer (offer : TaskOffer)
  | dropOffer
  | clearOffer
  | setCascade (cascade : TaskCascade)
  | getCascade
  | readCascade
  | moveCascade (cascade : TaskCascade)
  | endCascade
  | clearCascade
  | emitTaskOffer (address : Address) (deadline : Nat)
  | emitTaskAvailable
  | setTimeout (position delay : Nat)
  deriving DecidableEq, Repr

@[reducible] def Ans : Cmd → Type
  | .now => Nat
  | .rankedEntries => List CascadeEntry
  | .getMeta => Bool
  | .getState => Option Status
  | .casAccept _ => Bool
  | .getOffer => Option TaskOffer
  | .getCascade | .readCascade => Option TaskCascade
  | _ => Unit

abbrev Backend := Prog Ans Code

/-- A failure here is logged at most. -/
def ignore (p : Backend Unit) : Backend Unit := do
  let _ ← attempt p
  return ()

/-! ## a2aStore.ts -/

def getOffer : Backend (Option TaskOffer) := do
  match ← call Cmd.getOffer with
  | none => return none
  | some offer =>
    let now ← call Cmd.now
    if offer.expiresAt < now then
      call Cmd.dropOffer
      return none
    else return some offer

/-- The pick holds position 0, and is not offered the task again further down. -/
def withExplorationHead (pick : CascadeEntry) (ranked : List CascadeEntry) : List CascadeEntry :=
  pick :: ranked.filter (·.address ≠ pick.address)

def setCascade (ranked : List CascadeEntry) : Backend Unit := call (Cmd.setCascade ⟨ranked, 0⟩)

def advanceCascade : Backend (Option (CascadeEntry × Nat)) := do
  match ← call Cmd.readCascade with
  | none => return none
  | some cascade =>
    let nextPos := cascade.position + 1
    match cascade.ranked[nextPos]? with
    | none =>
      call Cmd.endCascade
      return none
    | some next =>
      call (Cmd.moveCascade { cascade with position := nextPos })
      return some (next, nextPos)

/-! ## a2a.ts -/

/-- Offers the task to the next ranked agent and arms that position's window, or broadcasts. -/
def offerNextInCascade : Backend Unit := do
  match ← advanceCascade with
  | none => call Cmd.emitTaskAvailable
  | some (next, position) =>
    let now ← call Cmd.now
    let deadline := now + CASCADE_OFFER_MS
    call (Cmd.setOffer ⟨next.address, next.score, deadline⟩)
    call (Cmd.emitTaskOffer next.address deadline)
    call (Cmd.setTimeout position CASCADE_OFFER_MS)

/-- The cascade has left this position, or is gone after a later one. -/
def movedOn (position : Nat) : Option TaskCascade → Bool
  | some cascade => cascade.position ≠ position
  | none => 0 < position

/-- The timer of `scheduleCascadeAdvance`, once it fires. -/
def cascadeAdvance (position : Nat) : Backend Unit :=
  ignore do
    let state ← call Cmd.getState
    if state ≠ some .opened then return ()
    else
      let cascade ← call Cmd.getCascade
      if movedOn position cascade then return () else offerNextInCascade

/-- The writes of the ranking and of the first offer are not waited for; what follows them in
Redis is queued behind them. -/
def startRankedCascade : Backend Unit := do
  match ← call Cmd.rankedEntries with
  | [] => call Cmd.emitTaskAvailable
  | best :: rest =>
    ignore (setCascade (best :: rest))
    let now ← call Cmd.now
    let deadline := now + CASCADE_OFFER_MS
    ignore (call (Cmd.setOffer ⟨best.address, best.score, deadline⟩))
    call (Cmd.emitTaskOffer best.address deadline)
    call (Cmd.setTimeout 0 CASCADE_OFFER_MS)

/-- The exploration branch: the pick is offered the task while the ranking is still computed. -/
def exploreCascade (pick : CascadeEntry) : Backend Unit := do
  let now ← call Cmd.now
  let deadline := now + CASCADE_OFFER_MS
  ignore (call (Cmd.setOffer ⟨pick.address, pick.score, deadline⟩))
  call (Cmd.emitTaskOffer pick.address deadline)
  ignore do
    let entries ← call Cmd.rankedEntries
    setCascade (withExplorationHead pick entries)
  let now ← call Cmd.now
  call (Cmd.setTimeout 0 (deadline - now))

/-- What `indexTaskFromEvent` starts for a task that is neither pinned nor broadcast. -/
def startCascade (pick : Option CascadeEntry) : Backend Unit := do
  match pick with
  | some pick => exploreCascade pick
  | none =>
    match ← attempt startRankedCascade with
    | .ok _ => return ()
    | .error _ => call Cmd.emitTaskAvailable

/-- `POST /tasks/:id/decline`. -/
def decline (address : Address) : Backend Unit := do
  let found ← call Cmd.getMeta
  if !found then throw .notFound
  else
    let state ← call Cmd.getState
    if state ≠ some .opened then throw .invalidState
    else
      match ← getOffer with
      | none => throw .notOfferHolder
      | some offer =>
        if offer.address ≠ address then throw .notOfferHolder
        else
          call Cmd.clearOffer
          offerNextInCascade

/-- `POST /tasks/:id/accept`, as far as the offer and the cascade go. -/
def accept (address : Address) : Backend Unit := do
  let offer ← getOffer
  if offer.any (·.address ≠ address) then throw .offerHeld
  else
    let won ← call (Cmd.casAccept address)
    if !won then throw .alreadyTaken
    else
      ignore (call Cmd.clearOffer)
      ignore (call Cmd.clearCascade)

end Cascades

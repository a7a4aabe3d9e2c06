import BlindMarket.Inft.Code
import BlindMarket.Support.Runs

/-!
# INFT among its callers

Anybody may call any function at any time, also a receiver before it returns.
Calls that revert leave nothing behind, the calls made inside them included, so
a history has the calls that went through.
-/
namespace Inft

open BlindEscrow (Address)
open Checked Runs

variable {Approvals : Type} (D : Deployment Approvals)

inductive Op (Approvals : Type) where
  | mint (receiver : Address) (uri : Uri) (hash : Hash)
  | transferWithProof (owner receiver : Address) (tokenId : TokenId) (proof : Bytes)
  | clone (receiver : Address) (tokenId : TokenId) (proof : Bytes)
  | transferFrom (owner receiver : Address) (tokenId : TokenId)
  | safeTransferFrom (owner receiver : Address) (tokenId : TokenId)
  /-- An inherited call that changes who is approved. -/
  | approve (approvals : Approvals)
  | authorizeUsage (tokenId : TokenId) (executor : Address) (permissions : Bytes)
  | revokeUsage (tokenId : TokenId) (executor : Address)
  | setOracle (newOracle : Address)
  | transferOwnership (newOwner : Address)
  | renounceOwnership

structure Msg (Approvals : Type) where
  sender : Address
  op : Op Approvals

/-- A call up to its end, or up to the receiver that is told of the token. -/
def begin (m : Msg Approvals) (w : World Approvals) :
    Except Revert (State Approvals × Option (Address × Frame)) :=
  match m.op with
  | .mint receiver uri hash => do
    let (s, frame) ← mint D m.sender receiver uri hash w.inft
    return (s, some (receiver, frame))
  | .transferWithProof owner receiver tokenId proof =>
    return (← transferWithProof D m.sender owner receiver tokenId proof w, none)
  | .clone receiver tokenId proof => do
    let (s, frame) ← clone D m.sender receiver tokenId proof w
    return (s, some (receiver, frame))
  | .transferFrom owner receiver tokenId =>
    return (← transferFrom D m.sender owner receiver tokenId w.inft, none)
  | .safeTransferFrom owner receiver tokenId =>
    return (← transferFrom D m.sender owner receiver tokenId w.inft, some (receiver, .transfer))
  | .approve approvals => return ({ w.inft with approvals }, none)
  | .authorizeUsage tokenId executor permissions =>
    return (← authorizeUsage m.sender tokenId executor permissions w.inft, none)
  | .revokeUsage tokenId executor =>
    return (← revokeUsage m.sender tokenId executor w.inft, none)
  | .setOracle newOracle => do
    onlyOwner m.sender w.inft
    require (newOracle ≠ 0) .oracleRequired
    return ({ w.inft with oracle := newOracle }, none)
  | .transferOwnership newOwner => do
    onlyOwner m.sender w.inft
    require (newOwner ≠ 0) .invalidOwner
    return ({ w.inft with admin := newOwner }, none)
  | .renounceOwnership => do
    onlyOwner m.sender w.inft
    return ({ w.inft with admin := 0 }, none)

/-- The world, and the functions that wait for a receiver, innermost first. -/
structure Config (Approvals : Type) where
  world : World Approvals
  frames : List Frame

inductive Kind (Approvals : Type) where
  | called (m : Msg Approvals)
  | returned (frame : Frame)
  | outside

structure Event (Approvals : Type) where
  kind : Kind Approvals
  pre : Config Approvals

/-- Only a receiver with code is told of its token. -/
def Config.stop (c : Config Approvals) (s : State Approvals) :
    Option (Address × Frame) → Config Approvals
  | none => { c with world := { c.world with inft := s } }
  | some (receiver, frame) =>
    if c.world.hasCode receiver then ⟨{ c.world with inft := s }, frame :: c.frames⟩
    else { c with world := { c.world with inft := frame.finish s } }

inductive Step : Config Approvals → Event Approvals → Config Approvals → Prop where
  | call {c : Config Approvals} (m : Msg Approvals) (s : State Approvals)
      (rest : Option (Address × Frame)) (h : begin D m c.world = .ok (s, rest)) :
      Step c ⟨.called m, c⟩ (c.stop s rest)
  | ret {w : World Approvals} (frame : Frame) (frames : List Frame) :
      Step ⟨w, frame :: frames⟩ ⟨.returned frame, ⟨w, frame :: frames⟩⟩
        ⟨{ w with inft := frame.finish w.inft }, frames⟩
  | outside {c : Config Approvals} (hasCode : Address → Bool)
      (verifyProof : Address → Bytes → Bool) :
      Step c ⟨.outside, c⟩ { c with world := { c.world with hasCode, verifyProof } }

/-- Traces are newest first. -/
abbrev Trace (Approvals : Type) := List (Event Approvals)

abbrev InftRun : Config Approvals → Trace Approvals → Config Approvals → Prop := Run (Step D)

/-- Right after construction, in any surroundings. -/
structure Initial (c : Config Approvals) : Prop where
  inft : ∃ admin oracle approvals, c.world.inft = { admin, oracle, approvals }
  frames : c.frames = []

/-! ## A small deployment -/

/-- Nobody is approved for anything; a proof of one byte names its metadata. -/
def demo : Deployment Unit where
  isApprovedForAll _ _ _ := false
  getApproved _ _ := 0
  cleared approvals _ := approvals
  decode
    | [n] => some (n.toNat, "proven")
    | _ => none

/-- Deployed by 9; account 20 is a contract. -/
def demoStart : Config Unit where
  world :=
    { inft := { admin := 9, oracle := 8, approvals := () }
      hasCode := fun a => a = 20
      verifyProof := fun _ _ => true }
  frames := []

theorem demoStart_initial : Initial demoStart where
  inft := ⟨9, 8, (), rfl⟩
  frames := rfl

/-- The next call, or the return of the innermost receiver. -/
inductive Cue where
  | send (sender : Address) (op : Op Unit)
  | resume

def cueStep (D : Deployment Unit) (c : Config Unit) : Cue → Option (Event Unit × Config Unit)
  | .send sender op =>
    match begin D ⟨sender, op⟩ c.world with
    | .ok (s, rest) => some (⟨.called ⟨sender, op⟩, c⟩, c.stop s rest)
    | .error _ => none
  | .resume =>
    match c with
    | ⟨w, frame :: frames⟩ =>
      some (⟨.returned frame, ⟨w, frame :: frames⟩⟩,
        ⟨{ w with inft := frame.finish w.inft }, frames⟩)
    | ⟨_, []⟩ => none

/-- The run of a script, if every call goes through. -/
def play (D : Deployment Unit) (c : Config Unit) : List Cue → Option (Trace Unit × Config Unit)
  | [] => some ([], c)
  | cue :: cues =>
    match cueStep D c cue with
    | none => none
    | some (e, c') => (play D c' cues).map fun r => (r.1 ++ [e], r.2)

theorem cueStep_step {D : Deployment Unit} {c c' : Config Unit} {e : Event Unit} {cue : Cue}
    (h : cueStep D c cue = some (e, c')) : Step D c e c' := by
  cases cue with
  | send sender op =>
    simp only [cueStep] at h
    split at h
    · next s rest hb =>
      cases h
      exact .call ⟨sender, op⟩ s rest hb
    · cases h
  | resume =>
    simp only [cueStep] at h
    split at h
    · next w frame frames =>
      cases h
      exact .ret frame frames
    · cases h

theorem play_run {D : Deployment Unit} {cues : List Cue} {c c' : Config Unit} {tr : Trace Unit}
    (h : play D c cues = some (tr, c')) : InftRun D c tr c' := by
  induction cues generalizing c tr with
  | nil =>
    cases h
    exact .nil
  | cons cue cues ih =>
    simp only [play] at h
    split at h
    · cases h
    · next e b hs =>
      obtain ⟨⟨tr', b'⟩, hrest, heq⟩ := Option.map_eq_some_iff.mp h
      cases heq
      exact (Run.single (cueStep_step hs)).append (ih hrest)

theorem play_get {D : Deployment Unit} {cues : List Cue} {c : Config Unit}
    (h : (play D c cues).isSome = true) :
    InftRun D c ((play D c cues).get h).1 ((play D c cues).get h).2 :=
  play_run (Option.some_get h).symm

end Inft

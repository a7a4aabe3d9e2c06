import BlindMarket.Waitlist.Code
import BlindMarket.Support.Knowledge

/-!
# Waitlist requests under way

Requests of any number of visitors over one table. A statement acts at once;
its answer may be lost, after it has acted or without. An insert knows the
rows that were there when it began, and gets an id in no order.
-/
namespace Waitlist

open Async Prog Runs

structure Call where
  id : Nat
  req : Request
  deriving DecidableEq, Repr

structure State (H : Type) where
  signups : Table H := []
  calls : Nat := 0

structure Reply where
  token : String := ""
  byte : Nat → UInt8 := fun _ => 0
  id : Nat := 0
  seen : Nat := 0
  /-- The answer is lost; the statement has acted or not. -/
  lost : Option Bool := none

variable {H : Type}

def Reply.send {α : Type} (x : Reply) (s : State H) (r : Except Failure α × Table H) :
    Except Failure α × State H :=
  match x.lost with
  | none => (r.1, { s with signups := r.2 })
  | some acted => (.error .lost, if acted then { s with signups := r.2 } else s)

theorem send_calls {α : Type} (x : Reply) (s : State H) (r : Except Failure α × Table H) :
    (x.send s r).2.calls = s.calls := by
  unfold Reply.send
  split
  · rfl
  · split <;> rfl

/-- A statement acts in full or not at all. -/
theorem send_signups {α : Type} (x : Reply) (s : State H) (r : Except Failure α × Table H) :
    (x.send s r).2.signups = s.signups ∨ (x.send s r).2.signups = r.2 := by
  unfold Reply.send
  split
  · exact .inr rfl
  · split
    · exact .inr rfl
    · exact .inl rfl

/-- An answer that is no failure is the statement's own. -/
theorem send_ok {α : Type} {x : Reply} {s s' : State H} {r : Except Failure α × Table H} {v : α}
    (h : x.send s r = (.ok v, s')) : r.1 = .ok v ∧ s'.signups = r.2 := by
  unfold Reply.send at h
  split at h
  · obtain ⟨hv, rfl⟩ := Prod.mk.inj h
    exact ⟨hv, rfl⟩
  · cases (Prod.mk.inj h).1

variable [DecidableEq H]

def respond (x : Reply) (s : State H) : (c : Cmd H) → Except Failure (Ans c) × State H
  | .newToken => (.ok x.token, s)
  | .randomBytes n => (.ok (Vector.ofFn fun i : Fin n => x.byte i), s)
  | .insert new => x.send s (s.signups.insert x.id x.seen new)
  | .idByEmail email => x.send s (.ok (s.signups.idByEmail email), s.signups)
  | .idByToken tokenHash => x.send s (.ok (s.signups.idByToken tokenHash), s.signups)
  | .addTask tokenHash task points =>
    x.send s (.ok (s.signups.addTask tokenHash task points).1,
      (s.signups.addTask tokenHash task points).2)
  | .standing id => x.send s (.ok (s.signups.standing id), s.signups)
  | .total => x.send s (.ok s.signups.length, s.signups)
  | .leaderboard => x.send s (.ok s.signups.leaderboard, s.signups)

variable (hashToken : String → H)

def service : Async.System (Ans (H := H)) Failure Response Call (State H) where
  exec _ s c r s' := ∃ x, respond x s c = (r, s')
  start _ s t p s' :=
    t.id = s.calls ∧ p = waitlistRouter hashToken t.req ∧ s' = { s with calls := s.calls + 1 }
  env s s' := s' = s
  die _ s s' := s' = s

abbrev Ev (H : Type) := Event (Ans (H := H)) Failure Response Call (State H)

variable {hashToken} {s s' : State H} {c : Cmd H} {r : Except Failure (Ans c)} {x : Reply}

theorem respond_calls (h : respond x s c = (r, s')) : s'.calls = s.calls := by
  have hs : (respond x s c).2.calls = s.calls := by
    cases c <;> first | rfl | exact send_calls _ _ _
  rwa [h] at hs

theorem service_numbered : Numbered (service hashToken) Call.id State.calls where
  exec := by
    rintro t s c r s' ⟨x, hx⟩
    exact respond_calls hx
  start := by
    rintro tags s t p s' ⟨hid, -, rfl⟩
    exact ⟨hid, rfl⟩
  env := by
    rintro s s' rfl
    rfl
  die := by
    rintro t s s' rfl
    rfl

/-- The ways the table changes. -/
inductive Moved (db : Table H) : Cmd H → Table H → Prop
  | kept (c : Cmd H) : Moved db c db
  | inserted (id seen : Nat) (new : NewSignup H) : Moved db (.insert new) (db.insert id seen new).2
  | task (tokenHash : H) (task : WaitlistTask) (points : Nat) :
    Moved db (.addTask tokenHash task points) (db.addTask tokenHash task points).2

theorem respond_moved (h : respond x s c = (r, s')) : Moved s.signups c s'.signups := by
  have hkept : ∀ {α : Type} (v : Except Failure α), (x.send s (v, s.signups)).2.signups = s.signups :=
    fun v => (send_signups x s (v, s.signups)).elim id id
  have hs : Moved s.signups c (respond x s c).2.signups := by
    cases c with
    | newToken => exact .kept _
    | randomBytes n => exact .kept _
    | insert new =>
      rcases send_signups x s (s.signups.insert x.id x.seen new) with heq | heq <;>
        simp only [respond, heq]
      · exact .kept _
      · exact .inserted _ _ _
    | addTask tokenHash task points =>
      rcases send_signups x s (.ok (s.signups.addTask tokenHash task points).1,
        (s.signups.addTask tokenHash task points).2) with heq | heq <;>
        simp only [respond, heq]
      · exact .kept _
      · exact .task _ _ _
    | idByEmail email =>
      simp only [respond, hkept]
      exact .kept _
    | idByToken tokenHash =>
      simp only [respond, hkept]
      exact .kept _
    | standing id =>
      simp only [respond, hkept]
      exact .kept _
    | total =>
      simp only [respond, hkept]
      exact .kept _
    | leaderboard =>
      simp only [respond, hkept]
      exact .kept _
  rwa [h] at hs

/-! ## Scripts -/

def stage (hashToken : String → H) : Async.Stage (service hashToken) Reply Unit where
  respond _ := respond
  enter s t :=
    if t.id = s.calls then some (waitlistRouter hashToken t.req, { s with calls := s.calls + 1 })
    else none
  move _ s := some s
  kill _ s := s
  exec _ x _ _ := ⟨x, rfl⟩
  start := by
    intro tags s t p s' hs
    split at hs
    · next h =>
      cases hs
      exact ⟨h, rfl, rfl⟩
    · cases hs
  env := by
    intro m s s' h
    cases h
    rfl
  die _ _ := rfl

abbrev Cues := List (Cue Call Reply Unit)

def aliceToken : String := "wl_QWxpY2VBbGljZUFsaWNlQWxpY2VBbGlj"

def bobToken : String := "wl_Qm9iQm9iQm9iQm9iQm9iQm9iQm9iQm9i"

/-- SHA-256 of the two tokens, as numbers. -/
def demoHash (token : String) : Nat :=
  if token = aliceToken then 0x6a6260a5f4f7cb44b1d92ea3762e725e671bf7a6bd7591453ebc200d1b61f386
  else 0x239877f5d202dfe4d685ba69910d91524b22e469511488ca3cd38df4b8357cd1

def aliceJoins : Call := ⟨0, .join "alice@example.com" "alice" [.follow, .follow, .like] none⟩

def bobJoins : Call := ⟨1, .join "bob@example.com" "bob" [] (some "aaaaaaaa".toList)⟩

def aliceComments : Call := ⟨2, .addTask aliceToken .comment⟩

/-- Alice joins, Bob joins through her link, and Alice records her comment. -/
def twoSignups : Cues :=
  [.enter aliceJoins, .turn 0 { token := aliceToken }, .turn 0 {}, .turn 0 { id := 1 }, .turn 0 {},
    .leave 0, .enter bobJoins, .turn 0 { token := bobToken }, .turn 0 { byte := fun _ => 1 },
    .turn 0 { id := 2, seen := 1 }, .turn 0 {}, .leave 0,
    .enter aliceComments, .turn 0 {}, .turn 0 {}, .leave 0]

theorem twoSignups_plays : ((stage demoHash).play twoSignups ⟨{}, []⟩).isSome = true := by decide

/-- The run of the script. -/
def twoSignupsRun : List (Ev Nat) × Pool (Ans (H := Nat)) Failure Response Call (State Nat) :=
  ((stage demoHash).play twoSignups ⟨{}, []⟩).get twoSignups_plays

theorem twoSignups_run : PoolRun (service demoHash) ⟨{}, []⟩ twoSignupsRun.1 twoSignupsRun.2 :=
  Async.Stage.play_get twoSignups_plays

end Waitlist

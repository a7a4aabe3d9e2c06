import BlindMarket.Cascades.System
import BlindMarket.Support.Knowledge

/-!
# What a program has been told before it acts

The start offers the head of the ranking once and stores the ranking once. A
timer or a decline moves the cascade on from what it has just read, and offers
what it has moved to.
-/
namespace Cascades

open Async Prog Runs

variable {cfg : Config} {t : Call} {a : Answers Ans Code} {α : Type}

/-! ## Grounds -/

/-- The first agent to be offered the task. -/
def Head (cfg : Config) (a : Answers Ans Code) (best : CascadeEntry) : Prop :=
  cfg.pick = some best ∨ cfg.pick = none ∧
    ∃ rest, ⟨.rankedEntries, .ok (best :: rest)⟩ ∈ a

/-- What the start has of the ranking when it stores it. -/
def Ranking (cfg : Config) (a : Answers Ans Code) (ranked : List CascadeEntry) : Prop :=
  (cfg.pick = none ∧ ⟨.rankedEntries, .ok ranked⟩ ∈ a ∧ ranked ≠ [] ∧
    ∀ offer r, ⟨.setOffer offer, r⟩ ∉ a) ∨
  (∃ pick entries, cfg.pick = some pick ∧ ⟨.rankedEntries, .ok entries⟩ ∈ a ∧
    ranked = withExplorationHead pick entries ∧ ∃ offer r, ⟨.setOffer offer, r⟩ ∈ a)

/-- A timer, or a holder who has given the offer back. -/
def Trigger (t : Call) (a : Answers Ans Code) : Prop :=
  (∃ position, t.op = .timer position) ∨
  ∃ offer, t.op = .decline offer.address ∧ ⟨.getOffer, .ok (some offer)⟩ ∈ a ∧
    ⟨.clearOffer, .ok ()⟩ ∈ a

/-- An advance in full, up to the write of the offer. -/
def Advanced (a : Answers Ans Code) (offer : TaskOffer) (position : Nat) : Prop :=
  ∃ c c' next m rest, a = ⟨.now, .ok m⟩ :: ⟨.moveCascade c', .ok ()⟩ ::
      ⟨.readCascade, .ok (some c)⟩ :: rest ∧
    c' = { c with position := c.position + 1 } ∧ c.ranked[c.position + 1]? = some next ∧
    offer.address = next.address ∧ offer.expiresAt = m + CASCADE_OFFER_MS ∧
    position = c.position + 1

/-- A command that cannot fail did. -/
def LocalError (a : Answers Ans Code) : Prop := ∃ c e, c.local = true ∧ ⟨c, .error e⟩ ∈ a

theorem Trigger.op_ne (h : Trigger t a) : t.op ≠ .start := by
  obtain ⟨position, hop⟩ | ⟨offer, hop, -⟩ := h <;> simp [hop]

def Asks (cfg : Config) (t : Call) (a : Answers Ans Code) : Cmd → Prop
  | .setCascade cascade =>
    t.op = .start ∧ (∀ c r, ⟨.setCascade c, r⟩ ∉ a) ∧ cascade.position = 0 ∧
      Ranking cfg a cascade.ranked
  | .readCascade => Trigger t a
  | .moveCascade c' => ∃ c next rest, a = ⟨.readCascade, .ok (some c)⟩ :: rest ∧
      c' = { c with position := c.position + 1 } ∧ c.ranked[c.position + 1]? = some next
  | .endCascade => ∃ c rest, a = ⟨.readCascade, .ok (some c)⟩ :: rest ∧
      c.ranked.length ≤ c.position + 1
  | .setOffer offer =>
    (t.op = .start ∧ (∀ o r, ⟨.setOffer o, r⟩ ∉ a) ∧
      ∃ best, Head cfg a best ∧ offer.address = best.address) ∨
    (t.op ≠ .start ∧ ∃ position, Advanced a offer position)
  | .setTimeout position delay =>
    (t.op = .start ∧ position = 0 ∧ ∃ offer r m, ⟨.setOffer offer, r⟩ ∈ a ∧
      ⟨.now, .ok m⟩ ∈ a ∧ offer.expiresAt ≤ m + delay) ∨
    ∃ offer r b, ⟨.setOffer offer, r⟩ :: b <:+ a ∧ Advanced b offer position ∧
      delay = CASCADE_OFFER_MS
  | .emitTaskAvailable =>
    (t.op = .start ∧ ∀ offer r, ⟨.setOffer offer, r⟩ ∉ a) ∨
    (∃ rest, a = ⟨.readCascade, .ok none⟩ :: rest ∨ a = ⟨.endCascade, .ok ()⟩ :: rest) ∨
    LocalError a
  | _ => True

/-- Commands that need no ground. -/
def Cmd.Free : Cmd → Prop
  | .setCascade _ | .readCascade | .moveCascade _ | .endCascade | .setOffer _ | .setTimeout _ _
  | .emitTaskAvailable => False
  | _ => True

theorem Cmd.Free.asks {c : Cmd} (h : c.Free) : Asks cfg t a c := by
  cases c <;> trivial

/-! ## Advances -/

/-- How `advanceCascade` ends. -/
def Advance (a a' : Answers Ans Code) : Except Code (Option (CascadeEntry × Nat)) → Prop
  | .ok (some (next, position)) => ∃ c, a' =
      ⟨.moveCascade { c with position := c.position + 1 }, .ok ()⟩ ::
        ⟨.readCascade, .ok (some c)⟩ :: a ∧
      c.ranked[c.position + 1]? = some next ∧ position = c.position + 1
  | .ok none => ∃ rest, a' = ⟨.readCascade, .ok none⟩ :: rest ∨ a' = ⟨.endCascade, .ok ()⟩ :: rest
  | .error _ => True

theorem told_advanceCascade (h : Trigger t a) :
    advanceCascade.Told (Asks cfg t) (Advance a) a := by
  refine ⟨h, fun r => ?_⟩
  cases r with
  | error e => trivial
  | ok read =>
    cases read with
    | none => exact ⟨_, .inl rfl⟩
    | some c =>
      dsimp only [Prog.andThen]
      split
      · next hnone =>
        refine ⟨⟨c, a, rfl, List.getElem?_eq_none_iff.mp hnone⟩, fun r => ?_⟩
        cases r with
        | error e => trivial
        | ok _ => exact ⟨_, .inr rfl⟩
      · next next hnext =>
        refine ⟨⟨c, next, a, rfl, rfl, hnext⟩, fun r => ?_⟩
        cases r with
        | error e => trivial
        | ok _ => exact ⟨c, rfl, hnext, rfl⟩

theorem told_offerNextInCascade (h : Trigger t a) :
    offerNextInCascade.Told (Asks cfg t) (fun _ _ => True) a := by
  refine Told.bind (told_advanceCascade h) (fun a' next _ hadvance => ?_) fun _ _ _ _ => trivial
  cases next with
  | none => exact ⟨.inr (.inl hadvance), fun r => trivial⟩
  | some next =>
    obtain ⟨next, position⟩ := next
    obtain ⟨c, rfl, hnext, rfl⟩ := hadvance
    refine ⟨trivial, fun r => ?_⟩
    cases r with
    | error e => trivial
    | ok m =>
      have hadvanced : Advanced (⟨.now, .ok m⟩ ::
          ⟨.moveCascade { c with position := c.position + 1 }, .ok ()⟩ ::
            ⟨.readCascade, .ok (some c)⟩ :: a)
          ⟨next.address, next.score, m + CASCADE_OFFER_MS⟩ (c.position + 1) :=
        ⟨c, _, next, m, a, rfl, rfl, hnext, rfl, rfl, rfl⟩
      refine ⟨.inr ⟨h.op_ne, _, hadvanced⟩, fun r => ?_⟩
      cases r with
      | error e => trivial
      | ok _ =>
        refine ⟨trivial, fun r => ?_⟩
        cases r with
        | error e => trivial
        | ok _ =>
          exact ⟨.inr ⟨_, _, _, List.suffix_cons _ _, hadvanced, rfl⟩, fun r => trivial⟩

/-! ## Triggers -/

theorem told_ignore {p : Backend Unit} (hp : p.Told (Asks cfg t) (fun _ _ => True) a) :
    (ignore p).Told (Asks cfg t) (fun _ _ => True) a :=
  Told.bind (Told.attempt (R := fun _ _ => True) hp fun _ _ _ _ => trivial)
    (fun _ _ _ _ => trivial) fun _ _ _ _ => trivial

theorem told_cascadeAdvance {position : Nat} (hop : t.op = .timer position) :
    (cascadeAdvance position).Told (Asks cfg t) (fun _ _ => True) a := by
  refine told_ignore ⟨trivial, fun r => ?_⟩
  cases r with
  | error e => trivial
  | ok state =>
    change Told _ _ _ (if state ≠ some .opened then _ else _)
    split
    · trivial
    · refine ⟨trivial, fun r => ?_⟩
      cases r with
      | error e => trivial
      | ok cascade =>
        change Told _ _ _ (if movedOn position cascade = true then _ else _)
        split
        · trivial
        · exact told_offerNextInCascade (.inl ⟨position, hop⟩)

/-- An offer that `getOffer` returns was read. -/
theorem told_getOffer :
    getOffer.Told (Asks cfg t) (fun a' r => a <:+ a' ∧
      ∀ offer, r = .ok (some offer) → ⟨.getOffer, .ok (some offer)⟩ ∈ a') a := by
  refine ⟨trivial, fun r => ?_⟩
  cases r with
  | error e => exact ⟨List.suffix_cons _ _, fun offer heq => by cases heq⟩
  | ok read =>
    cases read with
    | none => exact ⟨List.suffix_cons _ _, fun offer heq => by cases heq⟩
    | some offer =>
      refine ⟨trivial, fun r => ?_⟩
      have hsuffix : a <:+ ⟨.now, r⟩ :: ⟨.getOffer, .ok (some offer)⟩ :: a :=
        (List.suffix_cons _ _).trans (List.suffix_cons _ _)
      cases r with
      | error e => exact ⟨hsuffix, fun offer heq => by cases heq⟩
      | ok m =>
        change Told _ _ _ (if offer.expiresAt < m then _ else _)
        split
        · refine ⟨trivial, fun r => ?_⟩
          cases r <;> exact ⟨hsuffix.trans (List.suffix_cons _ _), fun offer heq => by cases heq⟩
        · refine ⟨hsuffix, fun offer' heq => ?_⟩
          cases heq
          simp

theorem told_decline {address : Address} (hop : t.op = .decline address) :
    (decline address).Told (Asks cfg t) (fun _ _ => True) a := by
  refine ⟨trivial, fun r => ?_⟩
  cases r with
  | error e => trivial
  | ok found =>
    cases found with
    | false => exact (trivial : True)
    | true =>
      refine ⟨trivial, fun r => ?_⟩
      cases r with
      | error e => trivial
      | ok state =>
        change Told _ _ _ (if state ≠ some .opened then _ else _)
        split
        · trivial
        · refine Told.bind told_getOffer (fun a' offer _ hread => ?_) fun _ _ _ _ => trivial
          cases offer with
          | none => exact (trivial : True)
          | some offer =>
            simp only
            split
            · exact (trivial : True)
            · next hholder =>
              refine ⟨trivial, fun r => ?_⟩
              cases r with
              | error e => trivial
              | ok _ =>
                refine told_offerNextInCascade (.inr ⟨offer, ?_, ?_, List.mem_cons_self⟩)
                · rw [hop, not_not.mp hholder]
                · exact List.mem_cons_of_mem _ (hread.2 offer rfl)

theorem issues_ignore {P : Cmd → Prop} {p : Backend Unit} (hp : p.Issues P) : (ignore p).Issues P :=
  hp.attempt.bind fun _ => issues_done _

theorem issues_accept {address : Address} : (accept address).Issues Cmd.Free := by
  have hget : getOffer.Issues Cmd.Free := by
    refine (issues_call trivial).bind fun offer => ?_
    cases offer with
    | none => exact issues_done _
    | some offer =>
      refine (issues_call trivial).bind fun m => ?_
      split
      · exact (issues_call trivial).bind fun _ => issues_done _
      · exact issues_done _
  refine hget.bind fun offer => ?_
  split
  · exact issues_done _
  · refine (issues_call trivial).bind fun won => ?_
    split
    · exact issues_done _
    · exact (issues_ignore (issues_call trivial)).bind fun _ => issues_ignore (issues_call trivial)

theorem told_accept {address : Address} :
    (accept address).Told (Asks cfg t) (fun _ _ => True) a :=
  issues_accept.heeds (fun _ _ => Cmd.Free.asks) a

/-! ## Starts -/

/-- The ranked start fails before it offers the task, if at all. -/
theorem told_startRankedCascade (hop : t.op = .start) (hpick : cfg.pick = none) :
    startRankedCascade.Told (Asks cfg t) (fun a' r => ∀ e, r = .error e →
      (∀ offer r', ⟨.setOffer offer, r'⟩ ∉ a') ∨ LocalError a') [] := by
  refine ⟨trivial, fun r => ?_⟩
  cases r with
  | error e => exact fun e' _ => .inl (by simp)
  | ok entries =>
    cases entries with
    | nil =>
      refine ⟨.inl ⟨hop, by simp⟩, fun r => ?_⟩
      cases r with
      | error e => exact fun e' _ => .inr ⟨_, e, rfl, List.mem_cons_self⟩
      | ok _ => exact fun e' heq => by cases heq
    | cons best rest =>
      refine ⟨⟨hop, by simp, rfl, .inl ⟨hpick, by simp, by simp, by simp⟩⟩, fun r₁ => ?_⟩
      refine ⟨trivial, fun r => ?_⟩
      cases r with
      | error e => exact fun e' _ => .inr ⟨_, e, rfl, List.mem_cons_self⟩
      | ok m =>
        refine ⟨.inl ⟨hop, by simp, best, .inr ⟨hpick, rest, by simp⟩, rfl⟩, fun r₂ => ?_⟩
        refine ⟨trivial, fun r => ?_⟩
        cases r with
        | error e => exact fun e' _ => .inr ⟨_, e, rfl, List.mem_cons_self⟩
        | ok _ =>
          refine ⟨.inl ⟨hop, rfl, ⟨best.address, best.score, m + CASCADE_OFFER_MS⟩, r₂, m, by simp,
            by simp, le_refl _⟩, fun r => ?_⟩
          cases r with
          | error e => exact fun e' _ => .inr ⟨_, e, rfl, List.mem_cons_self⟩
          | ok _ => exact fun e' heq => by cases heq

theorem told_exploreCascade {pick : CascadeEntry} (hop : t.op = .start)
    (hpick : cfg.pick = some pick) :
    (exploreCascade pick).Told (Asks cfg t) (fun _ _ => True) [] := by
  have harm : ∀ (a' : Answers Ans Code) offer r m, ⟨.setOffer offer, r⟩ ∈ a' →
      offer.expiresAt = m + CASCADE_OFFER_MS →
      (do
        let now ← call Cmd.now
        call (Cmd.setTimeout 0 (m + CASCADE_OFFER_MS - now)) : Backend Unit).Told (Asks cfg t)
          (fun _ _ => True) a' := by
    intro a' offer r m hoffer hexpires
    refine ⟨trivial, fun r' => ?_⟩
    cases r' with
    | error e => trivial
    | ok m' =>
      refine ⟨.inl ⟨hop, rfl, offer, r, m', List.mem_cons_of_mem _ hoffer, List.mem_cons_self, ?_⟩,
        fun r => trivial⟩
      omega
  refine ⟨trivial, fun r => ?_⟩
  cases r with
  | error e => trivial
  | ok m =>
    refine ⟨.inl ⟨hop, by simp, pick, .inl hpick, rfl⟩, fun r₂ => ?_⟩
    refine ⟨trivial, fun r => ?_⟩
    cases r with
    | error e => trivial
    | ok _ =>
      refine ⟨trivial, fun r => ?_⟩
      cases r with
      | error e => exact harm _ ⟨pick.address, pick.score, _⟩ r₂ m (by simp) rfl
      | ok entries =>
        refine ⟨⟨hop, by simp, rfl, .inr ⟨pick, entries, hpick, by simp, rfl,
          ⟨pick.address, pick.score, m + CASCADE_OFFER_MS⟩, r₂, by simp⟩⟩, fun r => ?_⟩
        exact harm _ ⟨pick.address, pick.score, _⟩ r₂ m (by simp) rfl

theorem told_startCascade (hop : t.op = .start) :
    (startCascade cfg.pick).Told (Asks cfg t) (fun _ _ => True) [] := by
  unfold startCascade
  split
  · next pick hpick => exact told_exploreCascade hop hpick
  · next hpick =>
    refine Told.bind (Told.attempt (R := fun a' r => ∃ r', r = .ok r' ∧ ∀ e, r' = .error e →
      (∀ offer r', ⟨.setOffer offer, r'⟩ ∉ a') ∨ LocalError a') (told_startRankedCascade hop hpick)
      fun a' r _ hr => ⟨r, rfl, hr⟩) (fun a' r _ hr => ?_) fun _ _ _ _ => trivial
    obtain ⟨r', heq, hfailed⟩ := hr
    cases heq
    cases r with
    | ok _ => exact (trivial : True)
    | error e =>
      refine ⟨?_, fun r => trivial⟩
      obtain hnone | hlocal := hfailed e rfl
      · exact .inl ⟨hop, hnone⟩
      · exact .inr (.inr hlocal)

theorem told_prog : (t.prog cfg).Told (Asks cfg t) (fun _ _ => True) [] := by
  unfold Call.prog
  split
  · next hop => exact told_startCascade hop
  · next position hop => exact told_cascadeAdvance hop
  · next address hop => exact told_decline hop
  · exact told_accept

end Cascades

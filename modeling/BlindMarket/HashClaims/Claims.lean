import BlindMarket.HashClaims.System

/-!
# What a step does to the claims

A claim is taken, which writes it anew for its poster, or released, or left.
Nothing else touches the claims but time.
-/
namespace HashClaims

open Async Prog Runs

variable {cfg : Config} {t : Call} {x : Turn} {s s' : State} {c : Cmd} {h : Hash} {cl : Claim}
  {poster : Address} {token : Nat}

abbrev Ev := Event Ans Code Answer Call State

/-! ## Reading a claim -/

theorem claim?_some (hcl : s.claim? h = some cl) : s.claims h = some cl ∧ s.now < cl.expires := by
  simpa [State.claim?, Option.filter_eq_some_iff] using hcl

theorem claim?_of_claims (hcl : s.claims h = some cl) (hnow : s.now < cl.expires) :
    s.claim? h = some cl := by
  simpa [State.claim?, Option.filter_eq_some_iff] using ⟨hcl, hnow⟩

theorem expired_of_claim? (hnone : s.claim? h = none) (hcl : s.claims h = some cl) :
    cl.expires ≤ s.now := by
  by_contra hlt
  rw [claim?_of_claims hcl (by omega)] at hnone
  cases hnone

/-! ## Commands -/

/-- The claim a request writes. -/
def State.newClaim (s : State) (poster : Address) (token : Nat) : Claim :=
  ⟨poster, some token, s.now + HASH_CLAIM_TTL_SECONDS⟩

/-- A command leaves the claims, or writes or drops one that its poster may. -/
inductive Does (s : State) : Cmd → State → Prop where
  | still {s' : State} {c : Cmd} (hclaims : s'.claims = s.claims) : Does s c s'
  | take {s' : State} (h : Hash) (poster : Address) (token : Nat)
      (hfree : ∀ cl, s.claim? h = some cl → cl.poster = poster)
      (hclaims : s'.claims = Function.update s.claims h (some (s.newClaim poster token))) :
      Does s (.claimTaskHash h poster token) s'
  | drop {s' : State} (h : Hash) (poster : Address) (token : Nat) (cl : Claim)
      (hcl : s.claim? h = some cl) (hposter : cl.poster = poster) (htoken : cl.token = some token)
      (hclaims : s'.claims = Function.update s.claims h none) :
      Does s (.releaseTaskHashClaim h poster token) s'

theorem effect_does : Does s c (effect x s c).2 := by
  cases c with
  | claimTaskHash h poster token =>
    simp only [effect, State.claimTaskHash]
    split
    · next cl hcl =>
      split
      · exact .still rfl
      · next hposter =>
        refine .take h poster token (fun cl' hcl' => ?_) rfl
        rw [hcl] at hcl'
        cases hcl'
        simpa using hposter
    · next hnone =>
      refine .take h poster token (fun cl hcl => ?_) rfl
      rw [hnone] at hcl
      cases hcl
  | releaseTaskHashClaim h poster token =>
    simp only [effect, State.releaseTaskHashClaim]
    split
    · next hany =>
      obtain ⟨cl, hcl, hsame⟩ := (Option.any_eq_true _ _).mp hany
      simp only [decide_eq_true_eq] at hsame
      exact .drop h poster token cl hcl hsame.1 hsame.2 rfl
    · exact .still rfl
  | _ => exact .still rfl

theorem respond_does {r : Except Code (Ans c)} (h : respond x s c = (r, s')) : Does s c s' := by
  simp only [respond] at h
  split at h
  · obtain rfl : (effect x s c).2 = s' := by rw [h]
    exact effect_does
  · cases h
    exact .still rfl
  · cases h
    exact effect_does

/-- An answer that is no failure comes with the effect. -/
theorem respond_ok {v : Ans c} (h : respond x s c = (.ok v, s')) : effect x s c = (.ok v, s') := by
  simp only [respond] at h
  split at h
  · exact h
  · cases h
  · cases h

theorem effect_keeps : (effect x s c).2.now = s.now ∧ (effect x s c).2.calls = s.calls := by
  cases c with
  | claimTaskHash h poster token =>
    simp only [effect, State.claimTaskHash]
    split
    · split <;> exact ⟨rfl, rfl⟩
    · exact ⟨rfl, rfl⟩
  | releaseTaskHashClaim h poster token =>
    simp only [effect, State.releaseTaskHashClaim]
    split <;> exact ⟨rfl, rfl⟩
  | _ => exact ⟨rfl, rfl⟩

theorem respond_keeps {r : Except Code (Ans c)} (h : respond x s c = (r, s')) :
    s'.now = s.now ∧ s'.calls = s.calls := by
  simp only [respond] at h
  split at h
  · obtain rfl : (effect x s c).2 = s' := by rw [h]
    exact effect_keeps
  · cases h
    exact ⟨rfl, rfl⟩
  · cases h
    exact effect_keeps

theorem Moves.keeps (h : Moves s s') : s'.claims = s.claims ∧ s.now ≤ s'.now ∧ s'.calls = s.calls := by
  cases h with
  | wait seconds => exact ⟨rfl, Nat.le_add_right _ _, rfl⟩
  | poll hash task => exact ⟨rfl, le_rfl, rfl⟩
  | list listing => exact ⟨rfl, le_rfl, rfl⟩

/-! ## What a claim answers -/

/-- The claim an answer that is no refusal speaks of stands. -/
theorem claimed_stands {v : ClaimOutcome}
    (hx : respond x s (.claimTaskHash h poster token) = (.ok v, s')) (hmine : v.mine = true) :
    s'.claims h = some (s.newClaim poster token) := by
  have hx := respond_ok hx
  simp only [effect, State.claimTaskHash] at hx
  split at hx
  · split at hx
    · cases hx
      cases hmine
    · cases hx
      exact Function.update_self ..
  · cases hx
    exact Function.update_self ..

/-- A claim that was there already is not fresh. -/
theorem stale_of_claim? {v : ClaimOutcome}
    (hx : respond x s (.claimTaskHash h poster token) = (.ok v, s')) (hcl : s.claim? h = some cl) :
    v.fresh = false := by
  have hx := respond_ok hx
  simp only [effect, State.claimTaskHash, hcl] at hx
  split at hx <;> cases hx <;> rfl

theorem mine_of_fresh {v : ClaimOutcome}
    (hx : respond x s (.claimTaskHash h poster token) = (.ok v, s')) (hfresh : v.fresh = true) :
    v.mine = true := by
  have hx := respond_ok hx
  simp only [effect, State.claimTaskHash] at hx
  split at hx
  · split at hx
    · cases hx
      cases hfresh
    · cases hx
      rfl
  · cases hx
    rfl

/-- What a request reads of a claim. -/
theorem claim_read {v : Option Address} (hx : respond x s (.getTaskHashClaim h) = (.ok v, s')) :
    v = (s.claim? h).map (·.poster) := by
  have hx := respond_ok hx
  cases hx
  rfl

/-- A release that is answered leaves no claim of its token. -/
theorem released_gone {v : Bool}
    (hx : respond x s (.releaseTaskHashClaim h poster token) = (.ok v, s'))
    (hcl : s'.claim? h = some cl) (hposter : cl.poster = poster) : cl.token ≠ some token := by
  have hx := respond_ok hx
  simp only [effect, State.releaseTaskHashClaim] at hx
  split at hx
  · cases hx
    simp [State.claim?, State.dropClaim] at hcl
  · next hany =>
    cases hx
    intro htoken
    exact hany (by simp [hcl, hposter, htoken])

end HashClaims

import BlindMarket.McpSpends.Effects

/-!
# What only looks

The parts of the tools that move neither the ledger, nor a quote, nor money.
-/
namespace McpSpends

open Async Prog Runs

def Cmd.reads : Cmd → Bool
  | .putSpend _ | .updateSpend _ _ | .createQuote _ _ | .consumeQuote _ _ _ | .relayTx _ _ _ _
  | .sign _ _ _ | .broadcast _ _ | .deploy _ _ _ => false
  | _ => true

abbrev Reads {α : Type} (p : Mcp α) : Prop := p.Issues fun c => c.reads = true

variable {α β : Type} {cfg : Config} {record : SpendRecord} {s : Settlement}

theorem reads_call {c : Cmd} {k : Ans c → Mcp α} (h : c.reads = true) (hk : ∀ v, Reads (k v)) :
    Reads (call c >>= k) := by
  refine ⟨h, fun r => ?_⟩
  cases r with
  | ok v => exact hk v
  | error code => trivial

theorem reads_attempt {p : Mcp α} {k : Except Code α → Mcp β} (hp : Reads p)
    (hk : ∀ r, Reads (k r)) : Reads (attempt p >>= k) := hp.attempt.bind hk

theorem reads_orElse {p : Mcp α} {default : α} (hp : Reads p) : Reads (orElse p default) :=
  reads_attempt hp fun r => by cases r <;> trivial

theorem told_orElse {T : Answers Ans Code → Cmd → Prop} {a : Answers Ans Code} {p : Mcp α}
    {default : α} {Q : α → Answers Ans Code → Prop}
    (hp : p.Told T (fun a' r => match r with | .ok v => Q v a' | .error _ => Q default a') a) :
    (orElse p default).Told T (fun a' r => ∃ v, r = .ok v ∧ Q v a') a := by
  refine (hp.attempt (R := fun a' r => ∃ r', r = .ok r' ∧
    match r' with | .ok v => Q v a' | .error _ => Q default a') fun a' r _ h => ⟨r, rfl, h⟩).bind
    (fun a' r _ h => ?_) fun a' e _ h => (by obtain ⟨r', h, -⟩ := h; cases h)
  obtain ⟨r', h, hq⟩ := h
  cases h
  cases r with
  | ok v => exact ⟨v, rfl, hq⟩
  | error code => exact ⟨default, rfl, hq⟩

theorem reads_sleep {k : Unit → Mcp α} (hk : Reads (k ())) : Reads (sleep >>= k) :=
  (reads_orElse (issues_call rfl)).bind fun _ => hk

/-- A guard that throws goes on or stops. -/
theorem reads_guard {c : Prop} [Decidable c] {code : Code} {k : Unit → Mcp α}
    (hk : Reads (k ())) : Reads (if c then Prog.throw code >>= k else k ()) := by
  split
  · trivial
  · exact hk

/-! ## Before a spend -/

theorem reads_requireFunding : Reads (requireFunding cfg) := by
  refine reads_attempt (issues_call rfl) fun r => ?_
  cases r with
  | error code => trivial
  | ok s =>
    cases s with
    | erc20 s => trivial
    | og s =>
      simp only
      cases cfg.wallet with
      | none => trivial
      | some wallet =>
        simp only
        split <;> trivial

theorem reads_notPostingChain : Reads (notPostingChain s) := by
  have hgo : ∀ posting : Option ChainKey, Reads (do
      if posting.getD s.mode = s.mode then return none
      return some Code.notPostingChain : Mcp (Option Code)) := by
    intro posting
    split <;> trivial
  unfold notPostingChain
  split
  · exact (reads_orElse (issues_call rfl)).bind hgo
  · exact hgo _

theorem reads_verifyTarget {target : Address} : Reads (verifyTarget cfg s target) := by
  unfold verifyTarget
  split
  · split <;> trivial
  · split
    · trivial
    · refine (reads_orElse (issues_call rfl)).bind fun code => ?_
      split <;> trivial

theorem reads_postingTerms : Reads (postingTerms cfg) := by
  refine reads_requireFunding.bind fun r => ?_
  cases r with
  | error code => trivial
  | ok r =>
    refine reads_notPostingChain.bind fun refused => ?_
    cases refused with
    | some code => trivial
    | none =>
      simp only
      split <;> trivial

theorem reads_assertEscrowCall {tx : UnsignedTx} {argsOk : EscrowCall → Bool} {value : Nat} :
    Reads (assertEscrowCall tx argsOk value) := by
  unfold assertEscrowCall
  split <;> trivial

theorem reads_sealBrief {text : Text} {isPublic : Bool} : Reads (sealBrief text isPublic) := by
  cases isPublic with
  | true => trivial
  | false => exact reads_call rfl fun _ => trivial

theorem reads_openTermsOf {args : PostArgs} {payFrom : Address} :
    Reads (openTermsOf args payFrom) := by
  unfold openTermsOf
  split
  · trivial
  · split
    · refine reads_attempt (issues_call rfl) fun r => ?_
      cases r with
      | ok config => trivial
      | error code =>
        simp only
        split <;> trivial
    · trivial

theorem reads_checkExecutors {list : Key} (rows : List Row) (asked : List (List Capability)) :
    Reads (checkExecutors list rows asked) := by
  induction rows generalizing asked with
  | nil => trivial
  | cons r rows ih =>
    unfold checkExecutors
    split
    · exact ih asked
    · refine reads_call rfl fun record => ?_
      cases record with
      | some record => exact ih asked
      | none =>
        simp only
        split
        · exact ih asked
        · refine reads_call rfl fun executors => ?_
          split
          · trivial
          · exact ih _

/-! ## Waiting -/

theorem reads_pollReceipt {chainId : Nat} {hash : TxHash} (n : Nat) :
    Reads (pollReceipt chainId hash n) := by
  induction n with
  | zero => trivial
  | succ n ih =>
    refine (reads_orElse (issues_call rfl)).bind fun receipt => ?_
    cases receipt with
    | none => exact reads_sleep ih
    | some ok => cases ok <;> trivial

theorem reads_waitRelayed {chainId : Nat} {hash : TxHash} {isUserOp : Bool} :
    Reads (waitRelayed chainId hash isUserOp) := by
  unfold waitRelayed
  split
  · trivial
  · exact reads_pollReceipt 30

theorem reads_settled {s : Erc20Settlement} {need : Nat} (n : Nat) : Reads (settled s need n) := by
  induction n with
  | zero => trivial
  | succ n ih =>
    refine reads_call rfl fun allowance => ?_
    split
    · trivial
    · exact reads_sleep ih

/-! ## The createTask -/

theorem reads_fundingSettlement : Reads (fundingSettlement cfg record) := by
  refine reads_call rfl fun s => reads_guard (reads_guard ?_)
  refine reads_notPostingChain.bind fun refused => ?_
  cases refused with
  | some code => trivial
  | none =>
    simp only
    split <;> trivial

theorem reads_buildCreateTask : Reads (buildCreateTask cfg s record) := by
  refine reads_call rfl fun built => reads_guard ?_
  refine reads_verifyTarget.bind fun _ => ?_
  cases record.amountWei with
  | none => trivial
  | some amount => exact reads_assertEscrowCall.bind fun _ => trivial

/-! ### What it is once it is built -/

/-- What `fund` is about to send. -/
structure BuiltFor (s : Settlement) (record : SpendRecord) (tx : UnsignedTx) : Prop where
  args : ∃ amount, record.amountWei = some amount ∧ createArgsOk s record amount tx.call = true
  target : ∀ escrow, s.escrowAddress = some escrow → tx.target = escrow

theorem ends_verifyTarget {target : Address} : (verifyTarget cfg s target).Ends fun r =>
    r = .ok () → ∀ escrow, s.escrowAddress = some escrow → target = escrow := by
  unfold verifyTarget
  split
  · next expected hescrow =>
    split
    · next heq =>
      rintro - escrow hsome
      rw [hescrow] at hsome
      cases hsome
      exact heq
    · exact fun h => by cases h
  · next hescrow =>
    refine (ends_true _).mono fun _ _ _ escrow hsome => ?_
    rw [hescrow] at hsome
    cases hsome

theorem ends_assertEscrowCall {tx : UnsignedTx} {argsOk : EscrowCall → Bool} {value : Nat} :
    (assertEscrowCall tx argsOk value).Ends fun r => r = .ok () → argsOk tx.call = true := by
  unfold assertEscrowCall
  split
  · next h => exact fun _ => (Bool.and_eq_true_iff.mp h).1
  · exact fun h => by cases h

theorem ends_buildCreateTask :
    (buildCreateTask cfg s record).Ends fun r => ∀ tx, r = .ok tx → BuiltFor s record tx := by
  refine (ends_true _).bind (fun built _ => ?_) fun e _ tx h => by cases h
  simp only
  split
  · exact fun tx h => by cases h
  · refine ends_verifyTarget.bind (fun _ htarget => ?_) fun e _ tx h => by cases h
    cases hamount : record.amountWei with
    | none => exact fun tx h => by cases h
    | some amount =>
      refine ends_assertEscrowCall.bind (fun _ hargs => ?_) fun e _ tx h => by cases h
      rintro tx h
      cases h
      exact ⟨⟨amount, hamount, hargs rfl⟩, htarget rfl⟩

end McpSpends

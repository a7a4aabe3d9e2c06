import BlindMarket.McpSpends.Mined
import BlindMarket.Support.Knowledge

/-!
# What a command does

Field by field, and what an answer says of the chain from then on: what is
mined stays mined.
-/
namespace McpSpends

open Async Prog Runs

abbrev Ev := Event Ans Code Response Call State

variable {t : Call} {x : Turn} {s s' : State} {c : Cmd} {r : Except Code (Ans c)}

/-! ## One command -/

/-- The chain whose RPC a command reads. -/
def Cmd.looksAt : Cmd → Option Nat
  | .getTransactionReceipt chainId _ => some chainId
  | .getTransactionCount chainId _ => some chainId
  | .getTransaction chainId _ => some chainId
  | .waitTx hash => hash.chainId?
  | .waitForTransaction hash => hash.chainId?
  | _ => none

/-- What a command can make of the state, if anything. -/
inductive Does (s : State) : Cmd → State → Prop where
  | nothing (c : Cmd) : Does s c s
  | put (record : SpendRecord) :
    Does s (.putSpend record) (s.setSpend record.idempotencyKey (some record))
  | update (key : Key) (patch : Patch) (record : SpendRecord) (h : s.spends key = some record) :
    Does s (.updateSpend key patch) (s.setSpend key (some (patch.apply record)))
  | quote (kind : SpendKind) (spend : SpendFields) :
    Does s (.createQuote kind spend) (createQuote kind spend s).2
  | consume (quoteId : QuoteId) (kind : SpendKind) (spend : SpendFields) (quote : Quote)
      (h : s.quotes quoteId = some quote) :
    Does s (.consumeQuote (some quoteId) kind spend)
      { s with quotes := Function.update s.quotes quoteId none }
  | relay (spend : Key) (payFrom : Address) (chainId : Nat) (tx : TxRequest) :
    Does s (.relayTx spend payFrom chainId tx)
      { s.send spend (.relayed s.relayed) tx.data with relayed := s.relayed + 1 }
  | broadcast (spend : Key) (raw : Raw) :
    Does s (.broadcast spend raw) (s.send spend (.signed raw) raw.data)
  | read (c : Cmd) (chainId view : Nat) (h : c.looksAt = some chainId) :
    Does s c (s.readAt chainId view)
  | deploy (spend : Key) (body : DeployBody) (fee : Option TxHash) (agentId : AgentId)
      (h : fee.bind s.agentOf = none) :
    Does s (.deploy spend body fee) { s with agents := (agentId, fee) :: s.agents }

theorem does_readHash {hash : TxHash} (h : c.looksAt = hash.chainId?) :
    Does s c (readHash x hash s) := by
  cases hash with
  | signed raw => exact .read c _ _ h
  | relayed n => exact .nothing c

theorem does_effect : Does s c (effect t x s c).2 := by
  cases c with
  | putSpend record => exact .put record
  | updateSpend key patch =>
    cases h : s.spends key with
    | none => simpa [effect, updateSpend, h] using Does.nothing _
    | some record => simpa [effect, updateSpend, h] using Does.update key patch record h
  | createQuote kind spend => exact .quote kind spend
  | consumeQuote quoteId kind spend =>
    cases quoteId with
    | none => exact .nothing _
    | some id =>
      cases h : s.quotes id with
      | none => simpa [effect, consumeQuote, h] using Does.nothing _
      | some quote =>
        by_cases hkind : quote.kind ≠ kind ∨ quote.expiresAt < s.clock
        · simpa only [effect, consumeQuote, h, if_pos hkind] using Does.nothing _
        · simpa only [effect, consumeQuote, h, if_neg hkind] using
            Does.consume id kind spend quote h
  | relayTx spend payFrom chainId tx => exact .relay spend payFrom chainId tx
  | broadcast spend raw => exact .broadcast spend raw
  | getTransactionReceipt chainId hash => exact .read _ _ _ rfl
  | waitTx hash => exact does_readHash rfl
  | waitForTransaction hash => exact does_readHash rfl
  | getTransactionCount chainId address => exact .read _ _ _ rfl
  | getTransaction chainId hash => exact .read _ _ _ rfl
  | deploy spend body fee =>
    cases h : fee.bind s.agentOf with
    | some agentId => simpa only [effect, deployed, h] using Does.nothing _
    | none => simpa only [effect, deployed, h] using Does.deploy spend body fee x.number h
  | _ => exact .nothing _

/-- A command answers as it takes effect, or fails with a code that says nothing. -/
theorem respond_cases (h : respond t x s c = (r, s')) :
    r = (effect t x s c).1 ∧ s' = (effect t x s c).2 ∨
      c.Local = false ∧ (∃ code : Code, r = .error code.plain) ∧
        (s' = s ∨ s' = (effect t x s c).2) := by
  unfold respond at h
  split at h
  · next a s₁ heq =>
    by_cases hlocal : c.Local
    · rw [if_pos hlocal] at h
      cases h
      exact .inl ⟨by rw [heq], by rw [heq]⟩
    · rw [if_neg hlocal] at h
      cases hfate : x.fate <;> rw [hfate] at h <;> cases h
      · exact .inl ⟨by rw [heq], by rw [heq]⟩
      · exact .inr ⟨by simpa using hlocal, ⟨_, rfl⟩, .inl rfl⟩
      · exact .inr ⟨by simpa using hlocal, ⟨_, rfl⟩, .inr (by rw [heq])⟩

theorem respond_does (h : respond t x s c = (r, s')) : Does s c s' := by
  obtain ⟨-, rfl⟩ | ⟨-, -, rfl | rfl⟩ := respond_cases h
  · exact does_effect
  · exact .nothing c
  · exact does_effect

/-- An answer that is no failure is the command's own. -/
theorem respond_ok {v : Ans c} (h : respond t x s c = (.ok v, s')) :
    (effect t x s c).1 = .ok v ∧ s' = (effect t x s c).2 := by
  obtain ⟨h, hs⟩ | ⟨-, ⟨code, h⟩, -⟩ := respond_cases h
  · exact ⟨h.symm, hs⟩
  · cases h

/-- An update that is answered changes the record it finds; one that is not changes nothing. -/
theorem respond_updateSpend {key : Key} {patch : Patch} {r : Except Code Unit}
    (h : respond t x s (.updateSpend key patch) = (r, s')) :
    (∃ record, r = .ok () ∧ s.spends key = some record ∧
      s' = s.setSpend key (some (patch.apply record))) ∨ r = .error .rejected ∧ s' = s := by
  simp only [respond, effect, updateSpend, Cmd.Local, if_true] at h
  cases hkey : s.spends key with
  | none =>
    simp only [hkey] at h
    cases h
    exact .inr ⟨rfl, rfl⟩
  | some record =>
    simp only [hkey] at h
    cases h
    exact .inl ⟨record, rfl, rfl, rfl⟩

/-! ### Fields -/

@[simp] theorem setSpend_spends (key key' : Key) (record : Option SpendRecord) :
    (s.setSpend key record).spends key' = if key' = key then record else s.spends key' := by
  simp [State.setSpend, Function.update_apply]

@[simp] theorem send_sends (spend : Key) (hash : TxHash) (data : TxData) :
    (s.send spend hash data).sends = ⟨spend, hash, data⟩ :: s.sends := rfl

theorem Does.chain (h : Does s c s') : s'.chain = s.chain := by cases h <;> rfl

theorem Does.calls (h : Does s c s') : s'.calls = s.calls := by cases h <;> rfl

/-- Only its own RPC moves on. -/
theorem Does.heads (h : Does s c s') {chainId : Nat} (hc : c.looksAt ≠ some chainId) :
    s'.heads chainId = s.heads chainId := by
  cases h with
  | read c chainId' view hlooks =>
    exact Function.update_of_ne (fun heq => hc (by rw [hlooks, heq])) _ _
  | _ => rfl

/-- Only putting and updating move the ledger. -/
theorem Does.spends (h : Does s c s') {key : Key} (hput : ∀ record, c = .putSpend record →
    record.idempotencyKey ≠ key) (hupdate : ∀ patch, c ≠ .updateSpend key patch) :
    s'.spends key = s.spends key := by
  cases h with
  | put record =>
    rw [setSpend_spends, if_neg fun heq => hput record rfl heq.symm]
  | update key' patch record hkey =>
    rw [setSpend_spends, if_neg fun heq => hupdate patch (by rw [heq])]
  | _ => rfl

/-- Only the relay and a broadcast send. -/
theorem Does.sends (h : Does s c s') :
    s'.sends = s.sends ∨
      (∃ spend payFrom chainId tx, c = .relayTx spend payFrom chainId tx ∧
        s'.sends = ⟨spend, .relayed s.relayed, tx.data⟩ :: s.sends) ∨
      ∃ spend raw, c = .broadcast spend raw ∧
        s'.sends = ⟨spend, .signed raw, raw.data⟩ :: s.sends := by
  cases h with
  | relay spend payFrom chainId tx => exact .inr (.inl ⟨spend, payFrom, chainId, tx, rfl, rfl⟩)
  | broadcast spend raw => exact .inr (.inr ⟨spend, raw, rfl, rfl⟩)
  | _ => exact .inl rfl

/-! ## What moves by itself -/

/-- The process is left alone, but for its quotes. -/
structure Frame (s s' : State) : Prop where
  spends : s'.spends = s.spends
  sends : s'.sends = s.sends
  relayed : s'.relayed = s.relayed
  agents : s'.agents = s.agents
  quotesMade : s'.quotesMade = s.quotesMade
  heads : s'.heads = s.heads
  quotes : ∀ id quote, s'.quotes id = some quote → s.quotes id = some quote
  later : Later s s'

theorem Frame.refl (s : State) : Frame s s :=
  ⟨rfl, rfl, rfl, rfl, rfl, rfl, fun _ _ h => h, .refl s⟩

theorem move_frame {m : Env} (h : move m s = some s') : Frame s s' := by
  have hlater := later_move h
  cases m <;> simp only [move] at h
  case otherTx =>
    cases h
    exact ⟨rfl, rfl, rfl, rfl, rfl, rfl, fun _ _ h => h, hlater⟩
  case restart =>
    cases h
    exact ⟨rfl, rfl, rfl, rfl, rfl, rfl, fun _ _ h => (by cases h), hlater⟩
  all_goals
    split at h <;> cases h
    exact ⟨rfl, rfl, rfl, rfl, rfl, rfl, fun _ _ h => h, hlater⟩

theorem move_calls {m : Env} (h : move m s = some s') : s'.calls = s.calls := by
  cases m <;> simp only [move] at h
  case otherTx => cases h; rfl
  case restart => cases h; rfl
  all_goals
    split at h <;> cases h
    rfl

theorem Does.agents (h : Does s c s') : ∀ agent ∈ s.agents, agent ∈ s'.agents := by
  cases h with
  | deploy => exact fun _ h => List.mem_cons_of_mem _ h
  | _ => exact fun _ h => h

theorem Does.later (h : Does s c s') : Later s s' := later_of_chain h.chain h.agents

/-! ## What an answer shows -/

/-- What an answer says of the state, then and ever after. -/
def Shows (t : Call) (s : State) : (c : Cmd) → Except Code (Ans c) → Prop
  | .updateSpend _ _, .error code => code = .rejected
  | .sign _ chainId request, .ok raw =>
    raw.data = request.data ∧ raw.chainId = chainId ∧ raw.target = request.target ∧
      t.config.wallet.map (·.address) = some raw.sender
  | .getTransactionReceipt chainId hash, .ok (some ok) =>
    s.chain.status hash = some ok ∧ hash.chainId?.all (· = chainId)
  | .waitTx hash, .ok _ => s.chain.status hash = some true
  | .waitTx hash, .error .callException => s.chain.status hash = some false
  | .walletOn _ (some chainId), .ok connected => connected = chainId
  | .deploy _ _ fee, .ok agent => (agent.id, fee) ∈ s.agents
  | .deploy _ _ fee, .error (.deployFeeAlreadyUsed (some agentId)) => (agentId, fee) ∈ s.agents
  | .ownAgent agentId, .ok (some agent) => agent.id = agentId
  | _, _ => True

theorem Shows.later (h : Shows t s c r) (hs : Later s s') : Shows t s' c r := by
  cases c with
  | getTransactionReceipt chainId hash =>
    cases r with
    | error code => trivial
    | ok v =>
      cases v with
      | none => trivial
      | some ok => exact ⟨hs.status h.1, h.2⟩
  | waitTx hash =>
    cases r with
    | ok v => exact hs.status h
    | error code =>
      cases code with
      | callException => exact hs.status h
      | _ => trivial
  | deploy spend body fee =>
    cases r with
    | ok agent => exact hs.agents _ h
    | error code =>
      cases code with
      | deployFeeAlreadyUsed agentId =>
        cases agentId with
        | none => trivial
        | some agentId => exact hs.agents _ h
      | _ => trivial
  | updateSpend key patch => cases r <;> exact h
  | sign spend chainId request => cases r <;> exact h
  | walletOn chain chainId => cases chainId <;> cases r <;> exact h
  | ownAgent agentId =>
    cases r with
    | error code => trivial
    | ok agent => cases agent <;> exact h
  | _ => trivial

theorem receipt_status {hash : TxHash} {ok : Bool} (h : receipt x hash s = some ok) :
    s.chain.status hash = some ok := by
  simp only [receipt, Chain.receiptAt] at h
  split at h
  · next block ok' hmined =>
    split at h <;> cases h
    simp [Chain.status, hmined]
  · cases h

theorem agentOf_mem {fee : Option TxHash} {agentId : AgentId}
    (h : fee.bind s.agentOf = some agentId) : (agentId, fee) ∈ s.agents := by
  obtain ⟨hash, rfl, hagent⟩ := Option.bind_eq_some_iff.mp h
  obtain ⟨agent, hfind, rfl⟩ := Option.map_eq_some_iff.mp hagent
  have hfee := List.find?_some hfind
  have hmem := List.mem_of_find?_eq_some hfind
  obtain ⟨id, fee⟩ := agent
  obtain rfl := of_decide_eq_true hfee
  exact hmem

theorem shows_effect : Shows t (effect t x s c).2 c (effect t x s c).1 := by
  cases c with
  | updateSpend key patch => cases h : s.spends key <;> simp [effect, updateSpend, h, Shows]
  | sign spend chainId request =>
    simp only [effect, signed]
    split
    · trivial
    · next wallet hwallet =>
      split
      · trivial
      · exact ⟨rfl, rfl, rfl, by rw [hwallet]; rfl⟩
  | getTransactionReceipt chainId hash =>
    simp only [effect, receiptOn]
    split
    · next hchain =>
      cases h : receipt x hash s with
      | none => trivial
      | some ok => exact ⟨receipt_status h, hchain⟩
    · trivial
  | waitTx hash =>
    simp only [effect, waited]
    cases h : receipt x hash s with
    | none => trivial
    | some ok =>
      cases ok with
      | true => exact (does_readHash (c := .waitTx hash) rfl).later.status (receipt_status h)
      | false => exact (does_readHash (c := .waitTx hash) rfl).later.status (receipt_status h)
  | walletOn chain chainId =>
    cases chainId with
    | none => trivial
    | some chainId => exact (rfl : chainId = chainId)
  | deploy spend body fee =>
    cases h : fee.bind s.agentOf with
    | some agentId => simpa [effect, deployed, h, Shows] using agentOf_mem h
    | none => simp [effect, deployed, h, Shows]
  | ownAgent agentId =>
    simp only [effect]
    split
    · exact (rfl : agentId = agentId)
    · trivial
  | _ => trivial

/-- A failure says nothing by itself. -/
theorem shows_plain (code : Code) (hlocal : c.Local = false) :
    Shows t s c (.error code.plain) := by
  cases c with
  | updateSpend key patch => cases hlocal
  | waitTx hash => cases code <;> trivial
  | walletOn chain chainId => cases chainId <;> trivial
  | deploy spend body fee => cases code <;> trivial
  | _ => trivial

/-- What an answer says holds as it takes effect. -/
theorem shows_respond (h : respond t x s c = (r, s')) : Shows t s' c r := by
  obtain ⟨rfl, rfl⟩ | ⟨hlocal, ⟨code, rfl⟩, -⟩ := respond_cases h
  · exact shows_effect
  · exact shows_plain code hlocal

/-! ## Runs -/

variable {admits : Call → Prop} {tr : List Ev} {s₀ : State}
  {pool : Pool Ans Code Response Call State}

theorem mcp_numbered : Numbered (mcp admits) Call.id State.calls where
  exec := by
    rintro t s c r s' ⟨x, hx⟩
    exact (respond_does hx).calls
  start := by
    rintro tags s t p s' ⟨-, hid, -, rfl⟩
    exact ⟨hid, rfl⟩
  env := by
    rintro s s' ⟨m, hm⟩
    exact move_calls hm
  die := by
    rintro t s s' rfl
    rfl

/-- A step is a command of some call, or it leaves the process alone. -/
theorem mcp_cases {P : Call → Answers Ans Code → Cmd → Prop}
    {Q : Call → Answers Ans Code → Except Code Response → Prop} {e : Ev}
    (h : Move (mcp admits) P Q tr s e s') :
    (∃ t a c r x, known tr t = some a ∧ P t a c ∧ respond t x s c = (r, s') ∧
      e = ⟨.ran t c r, s, s'⟩) ∨
    Frame s s' ∧ (∀ t (c : Cmd) (r : Except Code (Ans c)), e.label ≠ .ran t c r) := by
  cases h with
  | ran t a c r hknown hasks hx =>
    obtain ⟨x, hx⟩ := hx
    exact .inl ⟨t, a, c, r, x, hknown, hasks, hx, rfl⟩
  | started t p tags hfresh hx =>
    obtain ⟨-, -, -, rfl⟩ := hx
    exact .inr ⟨⟨rfl, rfl, rfl, rfl, rfl, rfl, fun _ _ h => h, later_of_chain rfl fun _ h => h⟩,
      by simp⟩
  | finished t a r hknown hends => exact .inr ⟨.refl _, by simp⟩
  | env hx =>
    obtain ⟨m, hm⟩ := hx
    exact .inr ⟨move_frame hm, by simp⟩
  | died t a hknown hx =>
    obtain rfl := hx
    exact .inr ⟨.refl _, by simp⟩

/-- Every answer a call has had still shows what it showed. -/
def Shown (tr : List Ev) (s : State) : Prop :=
  ∀ t a, known tr t = some a → ∀ x ∈ a, Shows t s x.1 x.2

theorem Shown.move {P : Call → Answers Ans Code → Cmd → Prop}
    {Q : Call → Answers Ans Code → Except Code Response → Prop} {e : Ev} (hs : Shown tr s)
    (h : Move (mcp admits) P Q tr s e s') : Shown (e :: tr) s' := by
  intro t' a' ha' y hy
  obtain ⟨t, a, c, r, x, hknown, -, hx, rfl⟩ | ⟨hframe, hne⟩ := mcp_cases h
  · have hlater := (respond_does hx).later
    obtain ⟨rfl, rfl⟩ | ⟨-, ha'⟩ := known_answered hknown ha'
    · obtain rfl | hy := List.mem_cons.mp hy
      · exact shows_respond hx
      · exact (hs _ _ hknown y hy).later hlater
    · exact (hs _ _ ha' y hy).later hlater
  · obtain rfl | ha := known_silent hne ha'
    · cases hy
    · exact (hs _ _ ha y hy).later hframe.later

/-- What every step keeps, given what the answers show, every run keeps. -/
theorem mcp_invariant {P : Call → Answers Ans Code → Cmd → Prop}
    {Q : Call → Answers Ans Code → Except Code Response → Prop} {I : List Ev → State → Prop}
    (h : PoolRun (mcp admits) ⟨s₀, []⟩ tr pool)
    (hstart : ∀ t, admits t → (t.op.prog t.config).Told (P t) (Q t) []) (h0 : I [] s₀)
    (hmove : ∀ tr s e s', I tr s → Shown tr s → Move (mcp admits) P Q tr s e s' →
      I (e :: tr) s') : I tr pool.state := by
  refine (mcp_numbered.known_invariant (I := fun tr s => I tr s ∧ Shown tr s) h
    (P := P) (Q := Q) ?_ ⟨h0, fun t a ha => by cases ha⟩ ?_).1
  · rintro tags s t p s' ⟨hadmits, -, rfl, -⟩
    exact hstart t hadmits
  · rintro tr s e s' ⟨hI, hs⟩ hm
    exact ⟨hmove tr s e s' hI hs hm, hs.move hm⟩

end McpSpends

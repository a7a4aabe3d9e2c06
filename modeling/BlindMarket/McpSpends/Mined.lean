import BlindMarket.McpSpends.System

/-!
# What is mined stays mined

A wallet's nonces are used one after the other, each by one transaction, so
one whose nonce another transaction took is never mined.
-/
namespace McpSpends

open Async Prog Runs

variable {s s' s'' : State} {ch : Chain} {hash : TxHash}

/-! ## Nonces in order -/

/-- The block a nonce was used at is where the transaction with it was mined. -/
structure Chain.Ordered (ch : Chain) : Prop where
  sorted : ∀ chainId sender, (ch.uses chainId sender).Pairwise (· ≤ ·)
  bounded : ∀ chainId sender, ∀ b ∈ ch.uses chainId sender, b ≤ ch.block
  used : ∀ raw b ok, ch.mined (.signed raw) = some (b, ok) →
    (ch.uses raw.chainId raw.sender)[raw.nonce]? = some b

theorem ordered_empty : ({} : Chain).Ordered where
  sorted _ _ := List.Pairwise.nil
  bounded _ _ b hb := by cases hb
  used _ _ _ h := by cases h

@[simp] theorem useNonce_mined (chainId : Nat) (sender : Address) :
    (ch.useNonce chainId sender).mined = ch.mined := rfl

@[simp] theorem useNonce_block (chainId : Nat) (sender : Address) :
    (ch.useNonce chainId sender).block = ch.block := rfl

theorem useNonce_uses (chainId : Nat) (sender : Address) (chainId' : Nat) (sender' : Address) :
    (ch.useNonce chainId sender).uses chainId' sender' =
      if chainId' = chainId ∧ sender' = sender then ch.uses chainId sender ++ [ch.block]
      else ch.uses chainId' sender' := by
  by_cases hchain : chainId' = chainId
  · subst hchain
    by_cases hsender : sender' = sender <;> simp [Chain.useNonce, hsender]
  · simp [Chain.useNonce, hchain]

theorem useNonce_prefix (ch : Chain) (chainId : Nat) (sender : Address) (chainId' : Nat)
    (sender' : Address) :
    ch.uses chainId' sender' <+: (ch.useNonce chainId sender).uses chainId' sender' := by
  rw [useNonce_uses]
  split
  · next h =>
    obtain ⟨rfl, rfl⟩ := h
    exact List.prefix_append _ _
  · exact List.prefix_rfl

@[simp] theorem mine_uses (hash : TxHash) (ok : Bool) : (ch.mine hash ok).uses = ch.uses := rfl

@[simp] theorem mine_block (hash : TxHash) (ok : Bool) :
    (ch.mine hash ok).block = ch.block + 1 := rfl

theorem mine_mined (ch : Chain) (hash hash' : TxHash) (ok : Bool) :
    (ch.mine hash ok).mined hash' =
      if hash' = hash then some (ch.block + 1, ok) else ch.mined hash' := by
  simp [Chain.mine, Function.update_apply]

theorem mine_keeps {hash' : TxHash} {b : Nat × Bool} {ok : Bool} (hnone : ch.mined hash = none)
    (hsome : ch.mined hash' = some b) : (ch.mine hash ok).mined hash' = some b := by
  rw [mine_mined, if_neg, hsome]
  rintro rfl
  rw [hnone] at hsome
  cases hsome

/-- A block's transaction uses its sender's next nonce. -/
theorem Chain.Ordered.useNonce (h : ch.Ordered) {ch' : Chain} (chainId : Nat) (sender : Address)
    (huses : ch'.uses = ch.uses) (hblock : ch'.block = ch.block + 1)
    (hmined : ∀ raw b ok, ch'.mined (.signed raw) = some (b, ok) →
      ch.mined (.signed raw) = some (b, ok) ∨
        b = ch'.block ∧ raw.chainId = chainId ∧ raw.sender = sender ∧
          raw.nonce = (ch.uses chainId sender).length) :
    (ch'.useNonce chainId sender).Ordered where
  sorted chainId' sender' := by
    rw [useNonce_uses]
    split
    · rw [huses, List.pairwise_append]
      refine ⟨h.sorted _ _, List.pairwise_singleton _ _, fun b hb b' hb' => ?_⟩
      obtain rfl := List.mem_singleton.mp hb'
      have := h.bounded _ _ b hb
      omega
    · rw [huses]
      exact h.sorted _ _
  bounded chainId' sender' b hb := by
    rw [useNonce_uses] at hb
    rw [useNonce_block, hblock]
    split at hb
    · rw [huses] at hb
      obtain hb | hb := List.mem_append.mp hb
      · exact Nat.le_succ_of_le (h.bounded _ _ b hb)
      · rw [List.mem_singleton.mp hb, hblock]
    · rw [huses] at hb
      exact Nat.le_succ_of_le (h.bounded _ _ b hb)
  used raw b ok hraw := by
    obtain hold | ⟨rfl, rfl, rfl, hnonce⟩ := hmined raw b ok hraw
    · have hget := h.used raw b ok hold
      have hprefix := useNonce_prefix ch' chainId sender raw.chainId raw.sender
      rw [huses] at hprefix
      obtain ⟨rest, hrest⟩ := hprefix
      have hlt : raw.nonce < (ch.uses raw.chainId raw.sender).length :=
        (List.getElem?_eq_some_iff.mp hget).1
      rw [← hrest, List.getElem?_append_left hlt, hget]
    · rw [useNonce_uses, if_pos ⟨rfl, rfl⟩, huses, hnonce, List.getElem?_concat_length]

/-- What is counted up to a block was used by then. -/
theorem Chain.Ordered.counted (h : ch.Ordered) {view chainId : Nat} {sender : Address}
    {nonce b : Nat} (hcount : nonce < ch.countAt view chainId sender)
    (hused : (ch.uses chainId sender)[nonce]? = some b) : b ≤ view := by
  by_contra hlate
  have hsplit := List.take_append_drop nonce (ch.uses chainId sender)
  have hdrop : ((ch.uses chainId sender).drop nonce).filter (· ≤ view) = [] := by
    rw [List.filter_eq_nil_iff]
    intro b' hb'
    obtain ⟨hlt, rfl⟩ := List.getElem?_eq_some_iff.mp hused
    obtain ⟨i, hi, rfl⟩ := List.mem_iff_getElem.mp hb'
    rw [List.getElem_drop]
    have hlt' : nonce + i < (ch.uses chainId sender).length := by
      rw [List.length_drop] at hi
      omega
    have hsorted : (ch.uses chainId sender)[nonce] ≤ (ch.uses chainId sender)[nonce + i] := by
      obtain rfl | hpos := Nat.eq_zero_or_pos i
      · rfl
      · exact List.pairwise_iff_getElem.mp (h.sorted chainId sender) _ _ hlt _ (by omega)
    simp only [decide_eq_true_eq]
    omega
  have hlen : ch.countAt view chainId sender ≤ nonce := by
    rw [Chain.countAt, ← hsplit, List.filter_append, hdrop, List.append_nil]
    exact (List.length_filter_le _ _).trans (List.length_take_le _ _)
  omega

/-! ## What never lands -/

/-- The transaction has reverted, or another one took its nonce. -/
def Dead (s : State) (hash : TxHash) : Prop :=
  s.chain.status hash = some false ∨
    s.chain.mined hash = none ∧ ∃ raw, hash = .signed raw ∧
      raw.nonce < (s.chain.uses raw.chainId raw.sender).length

theorem Dead.not_ok (h : Dead s hash) : s.chain.status hash ≠ some true := by
  obtain h | ⟨h, -⟩ := h
  · rw [h]
    exact fun heq => by cases heq
  · simp [Chain.status, h]

/-! ## Later -/

/-- The chain has only grown, and no agent is gone. -/
structure Later (s s' : State) : Prop where
  mined : ∀ hash b, s.chain.mined hash = some b → s'.chain.mined hash = some b
  uses : ∀ chainId sender, s.chain.uses chainId sender <+: s'.chain.uses chainId sender
  dead : ∀ hash, Dead s hash → Dead s' hash
  ordered : s.chain.Ordered → s'.chain.Ordered
  agents : ∀ agent ∈ s.agents, agent ∈ s'.agents

theorem Later.status (h : Later s s') {ok : Bool} (hs : s.chain.status hash = some ok) :
    s'.chain.status hash = some ok := by
  obtain ⟨b, hb, rfl⟩ := Option.map_eq_some_iff.mp hs
  exact Option.map_eq_some_iff.mpr ⟨b, h.mined hash b hb, rfl⟩

theorem Later.countAt (h : Later s s') (view chainId : Nat) (sender : Address) :
    s.chain.countAt view chainId sender ≤ s'.chain.countAt view chainId sender :=
  ((h.uses chainId sender).filter _).length_le

/-- The chain is left as it is. -/
theorem later_of_chain (hchain : s'.chain = s.chain)
    (hagents : ∀ agent ∈ s.agents, agent ∈ s'.agents) : Later s s' where
  mined _ _ h := by rw [hchain, h]
  uses _ _ := by rw [hchain]
  dead _ h := by
    unfold Dead at h ⊢
    rw [hchain]
    exact h
  ordered h := by rw [hchain]; exact h
  agents := hagents

theorem Later.refl (s : State) : Later s s := later_of_chain rfl fun _ h => h

/-- A block with one more transaction, none of the dead. -/
theorem later_of_grown (hagents : s'.agents = s.agents)
    (hmined : ∀ hash b, s.chain.mined hash = some b → s'.chain.mined hash = some b)
    (huses : ∀ chainId sender, s.chain.uses chainId sender <+: s'.chain.uses chainId sender)
    (hnew : ∀ raw, s.chain.mined (.signed raw) = none →
      raw.nonce < (s.chain.uses raw.chainId raw.sender).length →
      s'.chain.mined (.signed raw) = none)
    (hordered : s.chain.Ordered → s'.chain.Ordered) : Later s s' where
  mined := hmined
  uses := huses
  dead := by
    rintro hash (h | ⟨h, raw, rfl, hnonce⟩)
    · obtain ⟨b, hb, hok⟩ := Option.map_eq_some_iff.mp h
      exact .inl (Option.map_eq_some_iff.mpr ⟨b, hmined hash b hb, hok⟩)
    · exact .inr ⟨hnew raw h hnonce, raw, rfl,
        Nat.lt_of_lt_of_le hnonce (huses raw.chainId raw.sender).length_le⟩
  ordered := hordered
  agents _ h := by rw [hagents]; exact h

theorem later_move {m : Env} (h : move m s = some s') : Later s s' := by
  cases m with
  | time clock =>
    simp only [move] at h
    split at h <;> cases h
    exact later_of_chain rfl fun _ h => h
  | mineSigned raw ok =>
    simp only [move] at h
    split at h
    · next hif =>
      cases h
      obtain ⟨-, hnone, hnonce⟩ := hif
      refine later_of_grown rfl (fun _ _ hb => mine_keeps hnone hb)
        (fun _ _ => useNonce_prefix (s.chain.mine (.signed raw) ok) _ _ _ _)
        (fun raw' hnone' hused => ?_) fun hordered => ?_
      · simp only [useNonce_mined, mine_mined]
        rw [if_neg, hnone']
        intro heq
        cases heq
        omega
      · refine hordered.useNonce _ _ rfl rfl fun raw' b ok' hmined => ?_
        rw [mine_mined] at hmined
        split at hmined
        · next heq =>
          cases heq
          cases hmined
          exact .inr ⟨rfl, rfl, rfl, hnonce⟩
        · exact .inl hmined
    · cases h
  | mineRelayed n ok =>
    simp only [move] at h
    split at h
    · next hif =>
      cases h
      refine later_of_grown rfl (fun _ _ hb => mine_keeps hif.2 hb) (fun _ _ => List.prefix_rfl)
        (fun raw hnone _ => ?_) fun hordered => ⟨hordered.sorted, fun c a b hb => ?_, ?_⟩
      · simpa [mine_mined] using hnone
      · exact Nat.le_succ_of_le (hordered.bounded c a b hb)
      · intro raw b ok' hmined
        exact hordered.used raw b ok' (by simpa [mine_mined] using hmined)
    · cases h
  | otherTx chainId sender =>
    cases h
    exact later_of_grown rfl (fun _ _ hb => hb)
      (fun _ _ => useNonce_prefix { s.chain with block := s.chain.block + 1 } _ _ _ _)
      (fun _ hnone _ => hnone) fun hordered =>
        hordered.useNonce _ _ rfl rfl fun _ _ _ hmined => .inl hmined
  | restart =>
    cases h
    exact later_of_chain rfl fun _ h => h

end McpSpends

import BlindMarket.CctpTransfers.Steps

/-!
# The invariant of every run

The table is true, every program knows true things, no two own one row, and a
key makes one row.
-/
namespace CctpTransfers

open Async Prog Runs

variable {cfg : Config} {t t' : Call} {x : Turn} {s s' : State} {c : Cmd} {a a' : Answers Ans Code}
  {row row' : CctpTransfer} {tr later earlier : List Ev} {e : Ev} {id : Nat}
  {pool : Pool Ans Code (Option CctpTransfer) Call State}

/-- The label of a new row. -/
def Creates (e : Ev) (t : Call) (opts : CreateTransferOpts) (row : CctpTransfer) : Prop :=
  e.label = .ran t (.createTransfer opts) (.ok row)

structure Inv (cfg : Config) (tr : List Ev) (s : State) : Prop where
  sound : Sound cfg s
  known : ∀ t a, known tr t = some a → Answered cfg s a
  makes : ∀ t a, Async.known tr t = some a → Makes tr s t a
  apart : ∀ t t' a a', Async.known tr t = some a → Async.known tr t' = some a' →
    ∀ row row', Owns a row → Owns a' row' → row.id = row'.id → t = t'
  keyed : ∀ e ∈ tr, ∀ t opts row, Creates e t opts row →
    ∃ row' ∈ s.rows, row'.idempotencyKey = opts.idempotencyKey
  once : ∀ e ∈ tr, ∀ e' ∈ tr, ∀ t t' opts opts' row row', Creates e t opts row →
    Creates e' t' opts' row' → opts.idempotencyKey = opts'.idempotencyKey → t = t'
  asked : ∀ t a, Async.known tr t = some a → ∀ chain h r,
    (⟨.getTransactionReceipt chain h, r⟩ : (c : Cmd) × Except Code (Ans c)) ∈ a → MayAskReceipt t a

theorem inv_start : Inv cfg [] {} where
  sound := sound_start
  known _ _ h := by cases h
  makes _ _ h := by cases h
  apart _ _ _ _ h := by cases h
  keyed _ h := by cases h
  once _ h := by cases h
  asked _ _ h := by cases h

/-! ## Steps without an answer -/

/-- A key stays in the table. -/
theorem key_later {key : String} (hs : Later s s') (h : ∃ row ∈ s.rows, row.idempotencyKey = key) :
    ∃ row ∈ s'.rows, row.idempotencyKey = key := by
  obtain ⟨row, hrow, rfl⟩ := h
  obtain ⟨id, hid⟩ := mem_rows hrow
  obtain ⟨row', hrow', hsince⟩ := hs.rows id row hid
  exact ⟨row', List.mem_of_getElem? hrow', congrArg (·.idempotencyKey) hsince.same⟩

theorem owns_nil : ¬ Owns [] row := by
  rintro ⟨_, hmem, -⟩
  cases hmem

theorem Inv.silent (h : Inv cfg tr s)
    (hne : ∀ (t : Call) (c : Cmd) (r : Except Code (Ans c)), e.label ≠ .ran t c r)
    (hsound : Sound cfg s') (hs : Later s s')
    (hmade : ∀ row, Read cfg s row → row.direction = .outbound →
      ∀ hash, s'.Made row.id hash → s.Made row.id hash) : Inv cfg (e :: tr) s' where
  sound := hsound
  known t a ha := by
    obtain rfl | ha := known_silent hne ha
    · intro c r hmem
      cases hmem
    · exact (h.known t a ha).later hs
  makes t a ha := by
    obtain rfl | ha := known_silent hne ha
    · exact makes_nil
    · refine (h.makes t a ha).same fun row hrow => ?_
      obtain ⟨hread, hout⟩ := (h.known t a ha).owns hrow
      exact hmade row hread hout
  apart t t' a a' ha ha' row row' hrow hrow' hid := by
    obtain rfl | ha := known_silent hne ha
    · exact absurd hrow owns_nil
    · obtain rfl | ha' := known_silent hne ha'
      · exact absurd hrow' owns_nil
      · exact h.apart t t' a a' ha ha' row row' hrow hrow' hid
  keyed e' he' t opts row hcreates := by
    obtain rfl | he' := List.mem_cons.mp he'
    · exact absurd hcreates (hne _ _ _)
    · exact key_later hs (h.keyed e' he' t opts row hcreates)
  once e₁ he₁ e₂ he₂ t t' opts opts' row row' hcreates hcreates' hkey := by
    obtain rfl | he₁ := List.mem_cons.mp he₁
    · exact absurd hcreates (hne _ _ _)
    · obtain rfl | he₂ := List.mem_cons.mp he₂
      · exact absurd hcreates' (hne _ _ _)
      · exact h.once e₁ he₁ e₂ he₂ t t' opts opts' row row' hcreates hcreates' hkey
  asked t a ha chain hash r hmem := by
    obtain rfl | ha := known_silent hne ha
    · cases hmem
    · exact h.asked t a ha chain hash r hmem

/-! ## What moves by itself -/

theorem made_setFate {h h' : TxHash} {fate : Fate} (hm : (s.setFate h fate).Made id h') :
    s.Made id h' := by
  obtain ⟨tx, htx, hfor⟩ := hm
  simp only [State.setFate, List.getElem?_modify] at htx
  obtain ⟨tx', htx', rfl⟩ := Option.map_eq_some_iff.mp htx
  refine ⟨tx', htx', ?_⟩
  split at hfor <;> exact hfor

/-- A burn someone makes is for a deposit. -/
theorem Moves.made (h : Moves cfg s s') (hread : Read cfg s row) (hout : row.direction = .outbound)
    {hash : TxHash} (hm : s'.Made row.id hash) : s.Made row.id hash := by
  cases h with
  | send tx hnew hfor =>
    obtain hm | ⟨hmade, -⟩ := made_append rfl hm
    · exact hm
    · obtain ⟨row', hrow', hin⟩ := hfor row.id hmade
      have hdir := (hread.current hrow').direction
      rw [hin, hout] at hdir
      cases hdir
  | mine h tx receipt htx hnew hof => exact made_setFate hm
  | replace h tx htx hnew => exact made_setFate hm
  | disableCctpLeg process chain => exact hm

theorem Moves.rows (h : Moves cfg s s') : s'.rows = s.rows := by cases h <;> rfl

theorem mined_setFate {h : TxHash} {fate : Fate} (hsound : Sound cfg s)
    (hnew : ∀ tx, s.txs[h]? = some tx → ∀ receipt, fate = .mined receipt → receipt.Of cfg tx) :
    ∀ tx ∈ (s.setFate h fate).txs, ∀ receipt, tx.fate = .mined receipt → receipt.Of cfg tx := by
  intro tx htx receipt hfate
  obtain ⟨h', hh'⟩ := List.getElem?_of_mem htx
  simp only [State.setFate, List.getElem?_modify] at hh'
  obtain ⟨tx', htx', rfl⟩ := Option.map_eq_some_iff.mp hh'
  by_cases heq : h = h'
  · subst heq
    simp only [if_true] at hfate ⊢
    obtain ⟨hreverted, hburned⟩ := hnew tx' htx' receipt hfate
    exact ⟨hreverted, hburned⟩
  · simp only [heq, if_false] at hfate ⊢
    exact hsound.mined tx' (List.mem_of_getElem? htx') receipt hfate

theorem Moves.sound (h : Moves cfg s s') (hsound : Sound cfg s) : Sound cfg s' := by
  have hmined : ∀ tx ∈ s'.txs, ∀ receipt, tx.fate = .mined receipt → receipt.Of cfg tx := by
    cases h with
    | send tx hnew hfor => exact mined_append hsound rfl hnew
    | mine h tx receipt htx hnew hof =>
      refine mined_setFate hsound fun tx' htx' receipt' hfate => ?_
      rw [htx] at htx'
      cases htx'
      cases hfate
      exact hof
    | replace h tx htx hnew => exact mined_setFate hsound fun _ _ _ hfate => by cases hfate
    | disableCctpLeg process chain => exact hsound.mined
  refine hsound.of_rows h.rows h.grows hmined (fun row hrow hout _ hash hm =>
    h.made (hsound.read_mem hrow) hout hm) fun id hash hm => ?_
  cases h with
  | send tx hnew hfor =>
    obtain hm | ⟨hmade, -⟩ := made_append rfl hm
    · exact hsound.forRow id hash hm
    · obtain ⟨row, hrow, -⟩ := hfor id hmade
      exact (List.getElem?_eq_some_iff.mp hrow).1
  | mine h tx receipt htx hnew hof => exact hsound.forRow id hash (made_setFate hm)
  | replace h tx htx hnew => exact hsound.forRow id hash (made_setFate hm)
  | disableCctpLeg process chain => exact hsound.forRow id hash hm

theorem grows_of_eq (hrows : s'.rows = s.rows) (htxs : s'.txs = s.txs) : Grows s s' :=
  ⟨fun _ row h => ⟨row, hrows ▸ h, rfl, rfl⟩, fun _ tx htx => ⟨tx, htxs ▸ htx, .refl tx⟩⟩

/-- What is in memory only does not count. -/
theorem Inv.memory (h : Inv cfg tr s)
    (hne : ∀ (t : Call) (c : Cmd) (r : Except Code (Ans c)), e.label ≠ .ran t c r)
    (hrows : s'.rows = s.rows) (htxs : s'.txs = s.txs) : Inv cfg (e :: tr) s' := by
  have hgrows := grows_of_eq hrows htxs
  refine h.silent hne (h.sound.of_rows hrows hgrows (fun tx htx => h.sound.mined tx (htxs ▸ htx))
    (fun _ _ _ _ _ hm => made_same htxs hm) fun id hash hm => h.sound.forRow id hash
      (made_same htxs hm)) (.of_rows hrows hgrows) fun _ _ _ _ hm => made_same htxs hm

/-! ## An answer -/

/-- The burn of a program is numbered as the transaction it is. -/
theorem burn_answer {chain : CctpChainKey} {wallet messenger : Address}
    {call : DecodedDepositForBurn} {transfer : Nat} {h : TxHash}
    (hx : respond cfg t x s (.depositForBurn chain wallet messenger call transfer) = (.ok h, s')) :
    h = s.txs.length := by
  have heffect := respond_ok hx
  cases heffect
  rfl

/-- What is made for a row by a command: its burn. -/
theorem Does.made {h : TxHash} (hdoes : Does s c s') (hm : s'.Made id h) :
    s.Made id h ∨ h = s.txs.length ∧ s'.txs ≠ s.txs ∧
      ∃ chain wallet messenger call, c = .depositForBurn chain wallet messenger call id := by
  cases hdoes with
  | still hrows htxs => exact .inl (made_same htxs hm)
  | create opts hnew hrows htxs => exact .inl (made_same htxs hm)
  | update id patch hrows htxs => exact .inl (made_same htxs hm)
  | approve chain wallet token spender amount hrows htxs =>
    obtain hm | ⟨hfor, -⟩ := made_append htxs hm
    · exact .inl hm
    · cases hfor
  | burn chain wallet messenger call transfer hrows htxs =>
    obtain hm | ⟨hfor, rfl⟩ := made_append htxs hm
    · exact .inl hm
    · obtain rfl := Option.some.inj hfor
      refine .inr ⟨rfl, fun heq => ?_, chain, wallet, messenger, call, rfl⟩
      have := congrArg List.length (htxs.symm.trans heq)
      simp at this

theorem owns_cons {r : Except Code (Ans c)} (h : Owns (⟨c, r⟩ :: a) row) :
    Owns a row ∨ ∃ opts, (⟨c, r⟩ : (c : Cmd) × Except Code (Ans c)) = ⟨.createTransfer opts, .ok row⟩ := by
  obtain ⟨opts, hmem, hout⟩ := h
  obtain heq | hmem := List.mem_cons.mp hmem
  · exact .inr ⟨opts, heq.symm⟩
  · exact .inl ⟨opts, hmem, hout⟩

/-- A new row has a number no burn was made for. -/
theorem newRow_answer {opts : CreateTransferOpts}
    (hx : respond cfg t x s (.createTransfer opts) = (.ok row, s')) :
    row = s.newRow opts ∧ s'.rows = s.rows ++ [row] ∧ s'.txs = s.txs ∧
      ∀ row ∈ s.rows, row.idempotencyKey ≠ opts.idempotencyKey := by
  have heffect := respond_ok hx
  simp only [effect] at heffect
  split at heffect
  · cases heffect
  · next hnew =>
    cases heffect
    simp only [not_exists, not_and] at hnew
    exact ⟨rfl, rfl, rfl, hnew⟩

theorem Makes.own {r : Except Code (Ans c)} (h : Makes tr s t a) (hsound : Sound cfg s)
    (hasks : Asks t a c) (hx : respond cfg t x s c = (r, s')) :
    Makes (⟨.ran t c r, s, s'⟩ :: tr) s' t (⟨c, r⟩ :: a) := by
  have hdoes := respond_does hx
  refine ⟨fun row hrow hash hm => ?_, fun row hrow hash hsent hash' hm => ?_⟩
  · obtain hrow | ⟨opts, heq⟩ := owns_cons hrow
    · obtain hm | ⟨rfl, hne, chain, wallet, messenger, call, rfl⟩ := hdoes.made hm
      · obtain ⟨chain, wallet, messenger, call, hmem⟩ | hlost := h.made row hrow hash hm
        · exact .inl ⟨chain, wallet, messenger, call, List.mem_cons_of_mem _ hmem⟩
        · exact .inr hlost.cons
      · cases r with
        | ok hash =>
          obtain rfl := burn_answer hx
          exact .inl ⟨chain, wallet, messenger, call, List.mem_cons_self⟩
        | error e' =>
          exact .inr ⟨chain, wallet, messenger, call, e', List.mem_cons_self, _,
            List.mem_cons_self, rfl, hne⟩
    · cases heq
      obtain ⟨rfl, hrows, htxs, -⟩ := newRow_answer hx
      exact absurd (hsound.forRow _ hash (made_same htxs hm)) (Nat.lt_irrefl _)
  · obtain ⟨chain, wallet, messenger, call, hmem⟩ := hsent
    obtain hown | ⟨opts, heq⟩ := owns_cons hrow
    · obtain heq | hold := List.mem_cons.mp hmem
      · cases heq
        obtain rfl := burn_answer hx
        obtain hm | ⟨rfl, -⟩ := hdoes.made hm
        · exact absurd hm (Silent.none_made hasks.first h hown hash')
        · rfl
      · obtain hm | ⟨rfl, -, _, _, _, _, rfl⟩ := hdoes.made hm
        · exact h.one row hown hash ⟨chain, wallet, messenger, call, hold⟩ hash' hm
        · exact Bool.noConfusion (hasks.first _ _ hold)
    · cases heq
      obtain ⟨rfl, hrows, htxs, -⟩ := newRow_answer hx
      exact absurd (hsound.forRow _ hash' (made_same htxs hm)) (Nat.lt_irrefl _)

/-- A command of another program makes nothing for a program's row. -/
theorem Inv.made_other (h : Inv cfg tr s) (ha : Async.known tr t = some a)
    (ha' : Async.known tr t' = some a') (hne : t' ≠ t) (hasks : Asks t a c) (hdoes : Does s c s')
    (hown : Owns a' row) {hash : TxHash} (hm : s'.Made row.id hash) : s.Made row.id hash := by
  obtain hm | ⟨-, -, chain, wallet, messenger, call, rfl⟩ := hdoes.made hm
  · exact hm
  · obtain ⟨opts, row', agent, body, -, hmem, -, hopts, hid, -⟩ := hasks.row
    exact absurd (h.apart t' t a' a ha' ha row row' hown ⟨opts, hmem, hopts⟩ hid) hne

theorem Inv.ran {r : Except Code (Ans c)} (h : Inv cfg tr s) (ha : Async.known tr t = some a)
    (hasks : Asks t a c) (hx : respond cfg t x s c = (r, s')) :
    Inv cfg (⟨.ran t c r, s, s'⟩ :: tr) s' := by
  have hdoes := respond_does hx
  have hmakes := h.makes t a ha
  obtain ⟨hsound, hlater⟩ := h.sound.ran hasks (h.known t a ha) hmakes hdoes
  have hlt : ∀ {t' a' row}, Async.known tr t' = some a' → Owns a' row → row.id < s.rows.length := by
    intro t' a' row ha' hown
    obtain ⟨cur, hcur, -⟩ := ((h.known t' a' ha').owns hown).1.now
    exact (List.getElem?_eq_some_iff.mp hcur).1
  refine ⟨hsound, fun t' a' ha' => ?_, fun t' a' ha' => ?_, ?_, ?_, ?_, ?_⟩
  · obtain ⟨rfl, rfl⟩ | ⟨-, ha'⟩ := known_answered ha ha'
    · intro c' r' hmem
      obtain heq | hmem := List.mem_cons.mp hmem
      · cases heq
        exact shows_respond hsound hx
      · exact (h.known _ a ha c' r' hmem).later hlater
    · exact (h.known t' a' ha').later hlater
  · obtain ⟨rfl, rfl⟩ | ⟨hne, ha'⟩ := known_answered ha ha'
    · exact hmakes.own h.sound hasks hx
    · exact (h.makes t' a' ha').same fun row hown hash hm =>
        h.made_other ha ha' hne hasks hdoes hown hm
  · intro t₁ t₂ a₁ a₂ ha₁ ha₂ row₁ row₂ hown₁ hown₂ hid
    have hnew : ∀ {row}, Owns (⟨c, r⟩ :: a) row → Owns a row ∨ row.id = s.rows.length := by
      intro row hown
      obtain hown | ⟨opts, heq⟩ := owns_cons hown
      · exact .inl hown
      · cases heq
        rw [(newRow_answer hx).1]
        exact .inr rfl
    obtain ⟨rfl, rfl⟩ | ⟨-, hold₁⟩ := known_answered ha ha₁
    · obtain ⟨rfl, -⟩ | ⟨-, hold₂⟩ := known_answered ha ha₂
      · rfl
      · obtain hown | hnew := hnew hown₁
        · exact h.apart _ _ _ _ ha hold₂ row₁ row₂ hown hown₂ hid
        · exact absurd (hlt hold₂ hown₂) (by omega)
    · obtain ⟨rfl, rfl⟩ | ⟨-, hold₂⟩ := known_answered ha ha₂
      · obtain hown | hnew := hnew hown₂
        · exact h.apart _ _ _ _ hold₁ ha row₁ row₂ hown₁ hown hid
        · exact absurd (hlt hold₁ hown₁) (by omega)
      · exact h.apart _ _ _ _ hold₁ hold₂ row₁ row₂ hown₁ hown₂ hid
  · intro e he t' opts row hcreates
    obtain rfl | he := List.mem_cons.mp he
    · cases hcreates
      obtain ⟨rfl, hrows, -, -⟩ := newRow_answer hx
      exact ⟨s.newRow opts, by simp [hrows], rfl⟩
    · exact key_later hlater (h.keyed e he t' opts row hcreates)
  · intro e₁ he₁ e₂ he₂ t₁ t₂ opts₁ opts₂ row₁ row₂ hcreates₁ hcreates₂ hkey
    obtain rfl | hold₁ := List.mem_cons.mp he₁
    · obtain rfl | hold₂ := List.mem_cons.mp he₂
      · cases hcreates₁
        cases hcreates₂
        rfl
      · cases hcreates₁
        obtain ⟨row, hrow, hkey'⟩ := h.keyed e₂ hold₂ t₂ opts₂ row₂ hcreates₂
        exact absurd (hkey'.trans hkey.symm) ((newRow_answer hx).2.2.2 row hrow)
    · obtain rfl | hold₂ := List.mem_cons.mp he₂
      · cases hcreates₂
        obtain ⟨row, hrow, hkey'⟩ := h.keyed e₁ hold₁ t₁ opts₁ row₁ hcreates₁
        exact absurd (hkey'.trans hkey) ((newRow_answer hx).2.2.2 row hrow)
      · exact h.once e₁ hold₁ e₂ hold₂ t₁ t₂ opts₁ opts₂ row₁ row₂ hcreates₁ hcreates₂ hkey
  · intro t' a' ha' chain hash r' hmem
    have hmono : ∀ {y}, MayAskReceipt t a → MayAskReceipt t (y :: a) := by
      intro y hask user id body hop
      obtain ⟨row, hrow, hin⟩ := hask user id body hop
      exact ⟨row, List.mem_cons_of_mem _ hrow, hin⟩
    obtain ⟨rfl, rfl⟩ | ⟨-, hold⟩ := known_answered ha ha'
    · obtain heq | hmem := List.mem_cons.mp hmem
      · cases heq
        exact hmono hasks
      · exact hmono (h.asked _ a ha chain hash r' hmem)
    · exact h.asked t' a' hold chain hash r' hmem

/-! ## Runs -/

theorem backend_numbered : Numbered (backend cfg) Call.id State.calls where
  exec t s c r s' h := by
    obtain ⟨x, hx⟩ := h
    have hcalls : (effect cfg t x s c).2.calls = s.calls := by
      cases c with
      | createTransfer opts =>
        simp only [effect]
        split <;> rfl
      | wait chain h =>
        simp only [effect]
        split <;> rfl
      | _ => rfl
    simp only [respond] at hx
    split at hx
    · cases hx
      exact hcalls
    · split at hx <;> cases hx
      · exact hcalls
      · rfl
      · exact hcalls
  start tags s t p s' h := by
    obtain ⟨hid, -, rfl⟩ := h
    exact ⟨hid, rfl⟩
  env s s' h := by cases h <;> rfl
  die t s s' h := by
    obtain rfl := h
    unfold State.crash
    split <;> rfl

theorem Inv.move (h : Inv cfg tr s) (hm : Move (backend cfg) Asks (fun _ _ _ => True) tr s e s') :
    Inv cfg (e :: tr) s' := by
  cases hm with
  | ran t a c r ha hasks hx =>
    obtain ⟨x, hx⟩ := hx
    exact h.ran ha hasks hx
  | started t p tags hfresh hx =>
    obtain ⟨-, -, rfl⟩ := hx
    exact h.memory (by simp) rfl rfl
  | finished t a r ha _ => exact h.memory (by simp) rfl rfl
  | env hx =>
    exact h.silent (by simp) (hx.sound h.sound) (.of_rows hx.rows hx.grows) fun row hread hout _ hm =>
      hx.made hread hout hm
  | died t a ha hx =>
    obtain rfl := hx
    exact h.memory (by simp) crash_keeps.1 crash_keeps.2

theorem backend_inv (h : PoolRun (backend cfg) ⟨{}, []⟩ tr pool) : Inv cfg tr pool.state :=
  backend_numbered.known_invariant (P := Asks) (Q := fun _ _ _ => True) h
    (fun _ _ _ _ _ hx => hx.2.1 ▸ told_prog) inv_start fun _ _ _ _ hi hm => hi.move hm

/-- What is known at a step of a run. -/
theorem backend_at (h : PoolRun (backend cfg) ⟨{}, []⟩ (later ++ e :: earlier) pool) :
    Move (backend cfg) Asks (fun _ _ _ => True) earlier e.pre e e.post ∧ Inv cfg earlier e.pre := by
  obtain ⟨b, b', hrun, hstep, -⟩ := h.split
  have hmove := backend_numbered.move (P := Asks) (Q := fun _ _ _ => True) hrun hstep
    fun _ _ _ _ _ hx => hx.2.1 ▸ told_prog
  obtain ⟨hpre, hpost⟩ := hmove.states
  rw [hpre, hpost]
  exact ⟨hmove, backend_inv hrun⟩

end CctpTransfers

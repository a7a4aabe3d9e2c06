import BlindMarket.CctpTransfers.Truth

/-!
# Every step keeps the table true

What a program knows of the burns made for its own row carries the table over a
write: no other program ever sends one.
-/
namespace CctpTransfers

open Async Prog Runs

variable {cfg : Config} {t t' : Call} {x : Turn} {s s' : State} {c : Cmd} {a a' : Answers Ans Code}
  {row old cur : CctpTransfer} {source : CctpChainConfig} {tr : List Ev} {e : Ev}
  {patch : StagePatch} {id : Nat}

/-! ## Burns made for a transfer -/

/-- A burn for the transfer was sent, and its answer was lost. -/
def Lost (tr : List Ev) (t : Call) (a : Answers Ans Code) (id : Nat) : Prop :=
  ∃ chain wallet messenger call e', (⟨.depositForBurn chain wallet messenger call id, .error e'⟩ :
    (c : Cmd) × Except Code (Ans c)) ∈ a ∧
    ∃ e ∈ tr, e.label = .ran t (.depositForBurn chain wallet messenger call id) (.error e') ∧
      e.post.txs ≠ e.pre.txs

/-- The program was told that this is the burn it sent for the transfer. -/
def SentAs (a : Answers Ans Code) (id : Nat) (h : TxHash) : Prop :=
  ∃ chain wallet messenger call, (⟨.depositForBurn chain wallet messenger call id, .ok h⟩ :
    (c : Cmd) × Except Code (Ans c)) ∈ a

/-- The program has a withdrawal's row of its own. -/
def Owns (a : Answers Ans Code) (row : CctpTransfer) : Prop :=
  ∃ opts, (⟨.createTransfer opts, .ok row⟩ : (c : Cmd) × Except Code (Ans c)) ∈ a ∧
    opts.direction = .outbound

/-- What a program knows of the burns made for its row. -/
structure Makes (tr : List Ev) (s : State) (t : Call) (a : Answers Ans Code) : Prop where
  made : ∀ row, Owns a row → ∀ h, s.Made row.id h → SentAs a row.id h ∨ Lost tr t a row.id
  one : ∀ row, Owns a row → ∀ h, SentAs a row.id h → ∀ h', s.Made row.id h' → h' = h

theorem Lost.cons {y : (c : Cmd) × Except Code (Ans c)} (h : Lost tr t a id) :
    Lost (e :: tr) t (y :: a) id := by
  obtain ⟨chain, wallet, messenger, call, e', hmem, e₀, he₀, hrest⟩ := h
  exact ⟨chain, wallet, messenger, call, e', List.mem_cons_of_mem _ hmem, e₀,
    List.mem_cons_of_mem _ he₀, hrest⟩

theorem Lost.later (h : Lost tr t a id) : Lost (e :: tr) t a id := by
  obtain ⟨chain, wallet, messenger, call, e', hmem, e₀, he₀, hrest⟩ := h
  exact ⟨chain, wallet, messenger, call, e', hmem, e₀, List.mem_cons_of_mem _ he₀, hrest⟩

theorem Silent.none_made (h : Silent a) (hmakes : Makes tr s t a) (hrow : Owns a row)
    (hash : TxHash) : ¬ s.Made row.id hash := by
  intro hmade
  obtain ⟨_, _, _, _, hmem⟩ | ⟨_, _, _, _, _, hmem, -⟩ := hmakes.made row hrow hash hmade
  · exact Bool.noConfusion (h _ _ hmem)
  · exact Bool.noConfusion (h _ _ hmem)

/-- A program that has sent nothing knows nothing of burns. -/
theorem makes_nil : Makes tr s t [] where
  made _ h := by
    obtain ⟨_, hmem, -⟩ := h
    cases hmem
  one _ h := by
    obtain ⟨_, hmem, -⟩ := h
    cases hmem

/-- Nothing was made for the program's rows, and it was told of no burn. -/
theorem Makes.same (h : Makes tr s t a)
    (hmade : ∀ row, Owns a row → ∀ hash, s'.Made row.id hash → s.Made row.id hash) :
    Makes (e :: tr) s' t a where
  made row hrow hash hm := (h.made row hrow hash (hmade row hrow hash hm)).imp id Lost.later
  one row hrow hash hsent hash' hm := h.one row hrow hash hsent hash' (hmade row hrow hash' hm)

/-! ## Rows -/

theorem Answered.owns (h : Answered cfg s a) (hrow : Owns a row) :
    Read cfg s row ∧ row.direction = .outbound := by
  obtain ⟨opts, hmem, hout⟩ := hrow
  obtain ⟨hread, hopts, -⟩ : Shows cfg s (.createTransfer opts) (.ok row) := h _ _ hmem
  exact ⟨hread, (congrArg (·.direction) hopts).trans hout⟩

theorem Read.current (h : Read cfg s old) (hcur : s.rows[old.id]? = some cur) : Since old cur := by
  obtain ⟨row, hrow, hsince⟩ := h.now
  rw [hcur] at hrow
  cases hrow
  exact hsince

theorem Since.direction (h : Since old row) : row.direction = old.direction :=
  congrArg (·.direction) h.same

/-- A row with no confirmed burn, but for its hash. -/
theorem Good.failed (h : Good cfg s cur) (hstage : patch.stage = .failed)
    (hhash : patch.burnTxHash = none) : Good cfg s (patch.apply cur) := by
  have hsame : (patch.apply cur).burnTxHash = cur.burnTxHash := by simp [StagePatch.apply, hhash]
  have hfailed : (patch.apply cur).stage = .failed := hstage
  refine ⟨by simp [hfailed], by simp [hfailed], fun hout h' hh' => ?_, fun hin h' hh' => ?_, ?_⟩
  · obtain ⟨tx, htx, hmade⟩ := h.made hout h' (by rw [← hsame, hh'])
    exact ⟨tx, htx, hmade.congr rfl rfl⟩
  · exact h.verified hin h' (by rw [← hsame, hh'])
  · rw [hfailed]
    exact False.elim

/-- A row whose burn has landed may be confirmed. -/
theorem Good.confirm (h : Good cfg s cur) (hstage : patch.stage.Confirmed)
    (hwritten : patch.stage ≠ .mintSubmitted) (hhash : patch.burnTxHash = none)
    (hlanded : ∃ h tx, cur.burnTxHash = some h ∧ s.txs[h]? = some tx ∧ tx.Landed cfg cur) :
    Good cfg s (patch.apply cur) := by
  have hsame : (patch.apply cur).burnTxHash = cur.burnTxHash := by simp [StagePatch.apply, hhash]
  have hnow : (patch.apply cur).stage = patch.stage := rfl
  refine ⟨?_, ?_, fun hout h' hh' => ?_, fun hin h' hh' => ?_, fun _ => ?_⟩
  · rw [hnow]
    refine ⟨fun happroved => ?_, hwritten⟩
    rw [happroved] at hstage
    exact hstage
  · rw [hnow]
    intro hsent
    rw [hsent] at hstage
    exact hstage.elim
  · obtain ⟨tx, htx, hmade⟩ := h.made hout h' (by rw [← hsame, hh'])
    exact ⟨tx, htx, hmade.congr rfl rfl⟩
  · exact h.verified hin h' (by rw [← hsame, hh'])
  · rw [hsame]
    exact hlanded

/-- The confirmed burn of a row as it was read is one of the row as it is. -/
theorem landed_now (hgood : Good cfg s cur) (hsince : Since old cur) {h : TxHash} {tx : Tx}
    (hhash : old.burnTxHash = some h) (htx : s.txs[h]? = some tx) (hlanded : tx.Landed cfg old) :
    ∃ h tx, cur.burnTxHash = some h ∧ s.txs[h]? = some tx ∧ tx.Landed cfg cur := by
  have hsome : old.burnTxHash.isSome = true := by simp [hhash]
  cases hdir : old.direction with
  | outbound =>
    exact ⟨h, tx, (hsince.sent hdir hsome).trans hhash, htx, hlanded.congr hsince.same⟩
  | inbound =>
    obtain ⟨h', hh'⟩ := Option.isSome_iff_exists.mp (hsince.hash hsome)
    obtain ⟨tx', htx', hlanded'⟩ := hgood.verified (hsince.direction.trans hdir) h' hh'
    exact ⟨h', tx', hh', htx', hlanded'⟩

/-- A withdrawal's burn that was mined as successful has landed. -/
theorem Tx.MadeAs.landed {tx : Tx} {receipt : Receipt} (h : tx.MadeAs cfg row)
    (hof : receipt.Of cfg tx) (hfate : tx.fate = .mined receipt) (hstatus : receipt.status = true) :
    tx.Landed cfg row := by
  obtain ⟨source, call, hsource, hto, hdata, hamount, hrecipient, hdomain⟩ := h.burn
  exact landed_direct hof hsource h.chain hto hdata ⟨hamount, hrecipient, hdomain⟩ hfate hstatus

theorem nextStage_confirmed {stage next : Stage} {msg : Option IrisMessage}
    (h : nextStage stage msg = some next) : next.Confirmed ∧ next ≠ .mintSubmitted := by
  unfold nextStage at h
  split at h
  · split at h <;> cases h
    exact ⟨trivial, by simp⟩
  · split at h
    · cases h
      exact ⟨trivial, by simp⟩
    · split at h
      · split at h <;> cases h
        exact ⟨trivial, by simp⟩
      · split at h <;> cases h
        exact ⟨trivial, by simp⟩

theorem Stage.Attesting.confirmed {stage : Stage} (h : stage.Attesting) : stage.Confirmed := by
  obtain rfl | rfl | rfl := h <;> trivial

/-- A tick writes nothing untrue about a row. -/
theorem Polled.good (h : Polled a old patch) (hsound : Sound cfg s) (hknown : Answered cfg s a)
    (hread : Read cfg s old) (hgood : Good cfg s cur) (hsince : Since old cur)
    (hhash : patch.burnTxHash = none) : Good cfg s (patch.apply cur) := by
  cases h with
  | unconfigured hchain hstage => exact hgood.failed hstage hhash
  | hashless hsent hnone hstage => exact hgood.failed hstage hhash
  | minting hminting => exact absurd hminting hread.good.written.2
  | mined source h receipt hsent hold hsource hreceipt hstage =>
    cases hstatus : receipt.status with
    | false =>
      rw [hstatus] at hstage
      exact hgood.failed hstage hhash
    | true =>
      rw [hstatus, if_pos rfl] at hstage
      obtain ⟨tx, htx, hmade⟩ := hread.good.made (hread.good.sent hsent).1 h hold
      obtain ⟨tx', htx', -, hfate⟩ : Shows cfg s (.getTransactionReceipt source.chainKey h)
        (.ok (some receipt)) := hknown _ _ hreceipt
      rw [htx] at htx'
      cases htx'
      have hof := hsound.mined tx (List.mem_of_getElem? htx) receipt hfate
      exact hgood.confirm (by rw [hstage]; trivial) (by rw [hstage]; simp) hhash
        (landed_now hgood hsince hold htx (hmade.landed hof hfate hstatus))
  | answered h msg hattesting hold hmsg hstage =>
    obtain ⟨hconfirmed, hne⟩ := nextStage_confirmed hstage
    obtain ⟨h', tx, hh', htx, hlanded⟩ := hread.good.confirmed hattesting.confirmed
    exact hgood.confirm hconfirmed hne hhash (landed_now hgood hsince hh' htx hlanded)

/-- What a write leaves of its row. -/
structure Written (cfg : Config) (s : State) (cur next : CctpTransfer) : Prop where
  good : Good cfg s next
  since : Since cur next
  only : next.direction = .outbound → ∀ h, next.burnTxHash = some h →
    ∀ h', s.Made next.id h' → h' = h

/-- A write that leaves the hash alone. -/
theorem Written.of_hash (hgood : Good cfg s (patch.apply cur)) (hhash : patch.burnTxHash = none)
    (honly : cur.direction = .outbound → ∀ h, cur.burnTxHash = some h →
      ∀ h', s.Made cur.id h' → h' = h) : Written cfg s cur (patch.apply cur) := by
  have hsame : (patch.apply cur).burnTxHash = cur.burnTxHash := by simp [StagePatch.apply, hhash]
  refine ⟨hgood, ⟨rfl, rfl, fun h => ?_, fun _ _ => hsame⟩, fun hout h hh => ?_⟩
  · rwa [hsame]
  · exact honly hout h (hsame ▸ hh)

theorem MayUpdate.written (h : MayUpdate t a id patch) (hsound : Sound cfg s)
    (hknown : Answered cfg s a) (hmakes : Makes tr s t a) (hcur : s.rows[id]? = some cur) :
    Written cfg s cur (patch.apply cur) := by
  have hgood := hsound.good cur (List.mem_of_getElem? hcur)
  have honly := hsound.only cur (List.mem_of_getElem? hcur)
  cases h with
  | sent opts row chain wallet messenger call h hid hrow hburn hcall hout hstage hhash =>
    subst hid
    obtain ⟨hread, hopts, -⟩ : Shows cfg s (.createTransfer opts) (.ok row) := hknown _ _ hrow
    have hsince := hread.current hcur
    have hdir : cur.direction = .outbound :=
      hsince.direction.trans ((congrArg (·.direction) hopts).trans hout)
    have hone : ∀ h', s.Made cur.id h' → h' = h := by
      rw [hsince.id]
      exact hmakes.one row ⟨opts, hrow, hout⟩ h ⟨chain, wallet, messenger, call, hburn⟩
    obtain ⟨tx, htx, hmade⟩ := hcall.madeAs hknown hopts hburn
    have hnext : (patch.apply cur).burnTxHash = some h := by simp [StagePatch.apply, hhash]
    have hsent : (patch.apply cur).stage = .burnSubmitted := hstage
    refine ⟨⟨by simp [hsent], fun _ => ⟨hdir, by simp [hnext]⟩, fun _ h' hh' => ?_, ?_, ?_⟩,
      ⟨rfl, rfl, fun _ => by simp [hnext], fun _ hsome => ?_⟩, fun _ h' hh' => ?_⟩
    · rw [hnext] at hh'
      cases hh'
      exact ⟨tx, htx, hmade.congr hsince.same hsince.id⟩
    · intro hin
      rw [show (patch.apply cur).direction = cur.direction from rfl, hdir] at hin
      cases hin
    · rw [hsent]
      exact False.elim
    · -- A hash that was there already is that of the same burn.
      obtain ⟨h', hh'⟩ := Option.isSome_iff_exists.mp hsome
      rw [hnext, hh', honly hdir h' hh' h ⟨tx, htx, hsince.id ▸ hmade.madeFor⟩]
    · rw [hnext] at hh'
      cases hh'
      exact hone
  | unsent opts row hid hrow hburn hout hstage hhash =>
    exact .of_hash (hgood.failed hstage hhash) hhash honly
  | confirmed row source h receipt hid hread hverified hstatus hstage hhash =>
    subst hid
    obtain ⟨⟨user, id, body, hop, hmem⟩, hin, hcreated, hsource, hreceipt⟩ := hread
    obtain ⟨hread, -⟩ : Read cfg s row ∧ row.id = id := hknown _ _ hmem
    have hsince := hread.current hcur
    have hdir : cur.direction = .inbound := hsince.direction.trans hin
    obtain ⟨tx, htx, hlanded⟩ := hverified.landed hsound hknown hsource hreceipt hstatus
    have hlanded : tx.Landed cfg (patch.apply cur) := hlanded.congr hsince.same
    have hnext : (patch.apply cur).burnTxHash = some h := by simp [StagePatch.apply, hhash]
    have hconfirmed : (patch.apply cur).stage = .burnConfirmed := hstage
    have hnot : (patch.apply cur).direction ≠ .outbound := by
      rw [show (patch.apply cur).direction = cur.direction from rfl, hdir]
      simp
    refine ⟨⟨by simp [hconfirmed], by simp [hconfirmed], fun hout => absurd hout hnot,
        fun _ h' hh' => ?_, fun _ => ⟨h, tx, hnext, htx, hlanded⟩⟩,
      ⟨rfl, rfl, fun _ => by simp [hnext], fun hout => absurd hout hnot⟩,
      fun hout => absurd hout hnot⟩
    rw [hnext] at hh'
    cases hh'
    exact ⟨tx, htx, hlanded⟩
  | reverted row source h receipt hid hread hstatus hstage hhash =>
    exact .of_hash (hgood.failed hstage hhash) hhash honly
  | polled rows row hop hid hrows hmem hpolled hhash =>
    subst hid
    have hread : ∀ row ∈ rows, Read cfg s row := hknown _ _ hrows
    have hread := hread row hmem
    exact .of_hash (hpolled.good hsound hknown hread hgood (hread.current hcur) hhash) hhash honly

/-! ## One command -/

/-- Nothing was written, and what is new on the chains concerns no withdrawal with a hash. -/
theorem Sound.of_rows (h : Sound cfg s) (hrows : s'.rows = s.rows) (hgrows : Grows s s')
    (hmined : ∀ tx ∈ s'.txs, ∀ receipt, tx.fate = .mined receipt → receipt.Of cfg tx)
    (hmade : ∀ row ∈ s.rows, row.direction = .outbound → row.burnTxHash.isSome = true →
      ∀ h, s'.Made row.id h → s.Made row.id h)
    (hfor : ∀ id h, s'.Made id h → id < s.rows.length) : Sound cfg s' where
  ids := by
    rw [hrows]
    exact h.ids
  good := by
    rw [hrows]
    exact fun row hrow => (h.good row hrow).grows hgrows
  mined := hmined
  forRow := by
    rw [hrows]
    exact hfor
  only := by
    rw [hrows]
    intro row hrow hout hash hhash h' hm
    exact h.only row hrow hout hash hhash h' (hmade row hrow hout (by simp [hhash]) h' hm)

theorem mined_append {new : Tx} (h : Sound cfg s) (htxs : s'.txs = s.txs ++ [new])
    (hnew : new.fate = .pending) :
    ∀ tx ∈ s'.txs, ∀ receipt, tx.fate = .mined receipt → receipt.Of cfg tx := by
  rw [htxs]
  intro tx htx receipt hfate
  obtain htx | htx := List.mem_append.mp htx
  · exact h.mined tx htx receipt hfate
  · obtain rfl := List.mem_singleton.mp htx
    rw [hnew] at hfate
    cases hfate

theorem made_append {new : Tx} {h : TxHash} (htxs : s'.txs = s.txs ++ [new]) (hm : s'.Made id h) :
    s.Made id h ∨ new.madeFor = some id ∧ h = s.txs.length := by
  obtain ⟨tx, htx, hfor⟩ := hm
  rw [htxs] at htx
  obtain hlt | hge := Nat.lt_or_ge h s.txs.length
  · rw [List.getElem?_append_left hlt] at htx
    exact .inl ⟨tx, htx, hfor⟩
  · rw [List.getElem?_append_right hge] at htx
    obtain ⟨hk, rfl⟩ := List.getElem?_eq_some_iff.mp htx
    have hle : h ≤ s.txs.length := Nat.sub_eq_zero_iff_le.mp (Nat.lt_one_iff.mp hk)
    exact .inr ⟨by simpa using hfor, Nat.le_antisymm hle hge⟩

theorem made_same {h : TxHash} (htxs : s'.txs = s.txs) (hm : s'.Made id h) : s.Made id h := by
  obtain ⟨tx, htx, hfor⟩ := hm
  exact ⟨tx, htxs ▸ htx, hfor⟩

theorem Sound.ran (h : Sound cfg s) (hasks : Asks t a c) (hknown : Answered cfg s a)
    (hmakes : Makes tr s t a) (hdoes : Does s c s') : Sound cfg s' ∧ Later s s' := by
  have hgrows := hdoes.grows
  cases hdoes with
  | still hrows htxs =>
    refine ⟨h.of_rows hrows hgrows (fun tx htx => ?_) (fun _ _ _ _ _ hm => made_same htxs hm)
      fun id h' hm => h.forRow id h' (made_same htxs hm), .of_rows hrows hgrows⟩
    exact h.mined tx (htxs ▸ htx)
  | create opts hnew hrows htxs =>
    have hfresh : Good cfg s' (s.newRow opts) := by
      refine ⟨by simp [State.newRow], by simp [State.newRow], by simp [State.newRow],
        by simp [State.newRow], fun hconfirmed => hconfirmed.elim⟩
    refine ⟨⟨fun id row hrow => ?_, fun row hrow => ?_, fun tx htx => ?_, fun id h' hm => ?_, ?_⟩,
      ⟨fun id row hrow => ?_, hgrows⟩⟩
    · rw [hrows, List.getElem?_append] at hrow
      split at hrow
      · exact h.ids id row hrow
      · next hge =>
        obtain ⟨hk, rfl⟩ := List.getElem?_eq_some_iff.mp hrow
        simp only [List.length_singleton] at hk
        simp only [List.getElem_singleton, State.newRow]
        omega
    · rw [hrows] at hrow
      obtain hrow | hrow := List.mem_append.mp hrow
      · exact (h.good row hrow).grows hgrows
      · rw [List.mem_singleton.mp hrow]
        exact hfresh
    · exact h.mined tx (htxs ▸ htx)
    · rw [hrows, List.length_append]
      exact Nat.lt_add_right _ (h.forRow id h' (made_same htxs hm))
    · intro row hrow hout hash hhash h' hm
      rw [hrows] at hrow
      obtain hrow | hrow := List.mem_append.mp hrow
      · exact h.only row hrow hout hash hhash h' (made_same htxs hm)
      · rw [List.mem_singleton.mp hrow] at hhash
        cases hhash
    · refine ⟨row, ?_, .refl row⟩
      rw [hrows, List.getElem?_append_left (List.getElem?_eq_some_iff.mp hrow).1, hrow]
  | update id patch hrows htxs =>
    have hat : ∀ (id' : Nat) (row : CctpTransfer), s'.rows[id']? = some row →
        (id' = id ∧ ∃ cur, s.rows[id]? = some cur ∧ row = patch.apply cur) ∨ s.rows[id']? = some row := by
      intro id' row hrow
      rw [hrows, List.getElem?_modify] at hrow
      by_cases heq : id = id'
      · subst heq
        obtain ⟨cur, hcur, rfl⟩ := Option.map_eq_some_iff.mp hrow
        exact .inl ⟨rfl, cur, hcur, by simp⟩
      · simp only [heq, if_false, id_map'] at hrow
        exact .inr (by simpa using hrow)
    refine ⟨⟨fun id' row hrow => ?_, fun row hrow => ?_, fun tx htx => ?_, fun id' h' hm => ?_, ?_⟩,
      ⟨fun id' row hrow => ?_, hgrows⟩⟩
    · obtain ⟨rfl, cur, hcur, rfl⟩ | hrow := hat id' row hrow
      · exact h.ids _ cur hcur
      · exact h.ids id' row hrow
    · obtain ⟨id', hrow⟩ := mem_rows hrow
      obtain ⟨rfl, cur, hcur, rfl⟩ | hrow := hat id' row hrow
      · exact (hasks.written h hknown hmakes hcur).good.grows hgrows
      · exact (h.good row (List.mem_of_getElem? hrow)).grows hgrows
    · exact h.mined tx (htxs ▸ htx)
    · rw [hrows, List.length_modify]
      exact h.forRow id' h' (made_same htxs hm)
    · intro row hrow hout hash hhash h' hm
      obtain ⟨id', hrow⟩ := mem_rows hrow
      obtain ⟨rfl, cur, hcur, rfl⟩ | hrow := hat id' row hrow
      · exact (hasks.written h hknown hmakes hcur).only hout hash hhash h' (made_same htxs hm)
      · exact h.only row (List.mem_of_getElem? hrow) hout hash hhash h' (made_same htxs hm)
    · rw [hrows, List.getElem?_modify, hrow]
      by_cases heq : id = id'
      · subst heq
        exact ⟨patch.apply row, by simp, (hasks.written h hknown hmakes hrow).since⟩
      · exact ⟨row, by simp [heq], .refl row⟩
  | approve chain wallet token spender amount hrows htxs =>
    have hsame : ∀ id h', s'.Made id h' → s.Made id h' := by
      intro id h' hm
      obtain hm | ⟨hfor, -⟩ := made_append htxs hm
      · exact hm
      · cases hfor
    exact ⟨h.of_rows hrows hgrows (mined_append h htxs rfl) (fun row _ _ _ => hsame row.id)
      fun id h' hm => h.forRow id h' (hsame id h' hm), .of_rows hrows hgrows⟩
  | burn chain wallet messenger call transfer hrows htxs =>
    obtain ⟨⟨opts, own, agent, body, -, hmem, -, hopts, rfl, -⟩, hsilent⟩ := hasks
    have hown : Owns a own := ⟨opts, hmem, hopts⟩
    refine ⟨h.of_rows hrows hgrows (mined_append h htxs rfl) (fun row hrow hout hsome h' hm => ?_)
      fun id h' hm => ?_, .of_rows hrows hgrows⟩
    · obtain hm | ⟨hfor, -⟩ := made_append htxs hm
      · exact hm
      · -- The row of the burn has no hash yet: one would be that of a burn made before.
        obtain ⟨hash, hhash⟩ := Option.isSome_iff_exists.mp hsome
        obtain ⟨tx, htx, hmade⟩ := (h.good row hrow).made hout hash hhash
        have hid : own.id = row.id := Option.some.inj hfor
        refine absurd ⟨tx, htx, ?_⟩ (Silent.none_made hsilent hmakes hown hash)
        rw [hid]
        exact hmade.madeFor
    · obtain hm | ⟨hfor, -⟩ := made_append htxs hm
      · exact h.forRow id h' hm
      · obtain ⟨row, hrow, -⟩ := (hknown.owns hown).1.now
        rw [← Option.some.inj hfor]
        exact (List.getElem?_eq_some_iff.mp hrow).1

/-- What a command answers is so. -/
theorem shows_respond {r : Except Code (Ans c)} (hsound : Sound cfg s')
    (h : respond cfg t x s c = (r, s')) : Shows cfg s' c r := by
  cases r with
  | error e => cases c <;> trivial
  | ok v =>
    have heffect := respond_ok h
    cases c with
    | getCctpChain key =>
      cases v with
      | none => trivial
      | some source =>
        simp only [effect, Prod.mk.injEq, Except.ok.injEq, State.getCctpChain] at heffect
        split at heffect
        · exact heffect.1
        · cases heffect.1
    | createTransfer opts =>
      simp only [effect] at heffect
      split at heffect
      · cases heffect
      · cases heffect
        exact ⟨hsound.read_mem (by simp), rfl, rfl⟩
    | getById id =>
      cases v with
      | none => trivial
      | some row =>
        simp only [effect, Prod.mk.injEq, Except.ok.injEq] at heffect
        obtain ⟨hrow, rfl⟩ := heffect
        exact ⟨hsound.read hrow, hsound.ids id row hrow⟩
    | listNonTerminal =>
      cases heffect
      exact fun row hrow => hsound.read_mem (List.mem_of_mem_filter hrow)
    | depositForBurn chain wallet messenger call transfer =>
      cases heffect
      refine ⟨_, List.getElem?_concat_length, rfl, rfl, rfl, rfl⟩
    | getTransaction chain h =>
      cases v with
      | none => trivial
      | some view =>
        simp only [effect, Prod.mk.injEq, Except.ok.injEq] at heffect
        obtain ⟨hview, rfl⟩ := heffect
        split at hview
        · cases hview
        · obtain ⟨tx, htx, rfl⟩ := Option.map_eq_some_iff.mp hview
          obtain ⟨htx, hon⟩ := Option.filter_eq_some_iff.mp htx
          exact ⟨tx, htx, (of_decide_eq_true hon).1, rfl, rfl⟩
    | getTransactionReceipt chain h =>
      cases v with
      | none => trivial
      | some receipt =>
        simp only [effect, Prod.mk.injEq, Except.ok.injEq] at heffect
        obtain ⟨hreceipt, rfl⟩ := heffect
        split at hreceipt
        · cases hreceipt
        · obtain ⟨tx, htx, hfate⟩ := Option.bind_eq_some_iff.mp hreceipt
          obtain ⟨htx, hon⟩ := Option.filter_eq_some_iff.mp htx
          refine ⟨tx, htx, (of_decide_eq_true hon).1, ?_⟩
          cases hmined : tx.fate <;> simp_all [Fate.receipt?]
    | _ => trivial

end CctpTransfers

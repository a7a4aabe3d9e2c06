import BlindMarket.Escrow.Solvency

/-!
# Whole calls

Between two calls from outside nothing waits on the stack and the reentrancy
flag is down. A call from there whose payees accept what they get and do nothing
else runs to its end, so its outcome is one function of the state.
-/
namespace BlindEscrow

open Checked Runs TokenLedger Finset

variable {D : Deployment} {b c c' c₀ : Config} {e : Event} {tr : Trace} {w w' : World}
  {stop : Stop} {s s' : Escrow} {x : Ctx} {id cid calls : Nat} {op : Op} {r : Row} {m : Msg}
  {todo : List Action} {paid : List Payment}

/-! ## The reentrancy flag -/

/-- Interactions that leave the reentrancy flag alone. -/
def Plain (todo : List Action) : Prop := Action.lock ∉ todo ∧ Action.unlock ∉ todo

/-- Interactions that pay nobody either. -/
def Quiet (todo : List Action) : Prop := Plain todo ∧ dues todo = []

theorem Plain.append {l l' : List Action} (h : Plain l) (h' : Plain l') : Plain (l ++ l') := by
  simp_all [Plain]

theorem plain_emits {l : List Action} (h : ∀ a ∈ l, ∃ log, a = .emit log) : Plain l := by
  constructor <;> intro hmem <;> obtain ⟨log, hlog⟩ := h _ hmem <;> cases hlog

theorem plain_announceAll (x : Ctx) (token : Address) (tasks : List TaskInput) (next : Nat) :
    Plain (announceAll x token tasks next) := by
  induction tasks generalizing next with
  | nil => simp [Plain, announceAll]
  | cons i tasks ih =>
    have hv : Plain (verifierEvents i next) := by
      unfold verifierEvents
      split <;> simp [Plain]
    exact (hv.append (by simp [Plain, announceTask])).append (ih _)

/-- A call either runs its interactions under the reentrancy guard, or pays nobody. -/
theorem Effect.shape (h : Effect x s op s' todo) :
    (x.locked = false ∧ ∃ l, todo = guarded l ∧ Plain l) ∨ Quiet todo := by
  have hverifier : ∀ i next, Plain (verifierEvents i next) := by
    intro i next
    unfold verifierEvents
    split <;> simp [Plain]
  have hpayment : ∀ token amount, Plain (paymentOf x token amount) := by
    intro token amount
    unfold paymentOf
    split <;> simp [Plain]
  have hannounce : ∀ token i id deadline, Plain (announceTask x token i id deadline) := by
    intro token i id deadline
    simp [Plain, announceTask]
  cases h with
  | move id op r todo hid h =>
    cases h with
    | assign | evidence | dispute | submit => exact .inr ⟨by simp [Plain], rfl⟩
    | fail op emitted disputed hl hp hop hs hw hst hem hdi =>
      refine .inl ⟨hl, _, rfl, (plain_emits hem).append ?_⟩
      rcases hdi with rfl | rfl <;> simp [Plain]
    | complete op fee score before after hl hfee hle h =>
      refine .inl ⟨hl, _, rfl, ?_⟩
      cases h with
      | passed op fee' emitted hp hop hs hw hst hfee' hem =>
        exact ((plain_emits hem).append (by simp [Plain])).append (by simp [Plain])
      | ruled => simp [Plain]
      | released => simp [Plain]
    | refund op after hl h => exact .inl ⟨hl, _, rfl, by cases h <;> simp [Plain]⟩
    | escalate ext hl => exact .inl ⟨hl, _, rfl, by simp [Plain]⟩
    | pick op winner scorecard judge fee hl => exact .inl ⟨hl, _, rfl, by simp [Plain]⟩
    | void op scorecard judge hl => exact .inl ⟨hl, _, rfl, by simp [Plain]⟩
  | create op token i hl =>
    exact .inl ⟨hl, _, rfl, ((hverifier _ _).append (hpayment _ _)).append (hannounce _ _ _ _)⟩
  | batch token tasks hl =>
    exact .inl ⟨hl, _, rfl, (plain_announceAll _ _ _ _).append (by simp [Plain])⟩
  | createOpen token i mode window hl =>
    exact .inl ⟨hl, _, rfl, (((hverifier _ _).append (by simp [Plain])).append
      (hpayment _ _)).append (hannounce _ _ _ _)⟩
  | configure | pause | unpause | recordPauseStart => exact .inr ⟨by simp [Plain], rfl⟩

theorem act_locked {a : Action} {yields : Bool} (h : act D a w = .ok (w', paid, yields))
    (hl : a ≠ .lock) (hu : a ≠ .unlock) : w'.locked = w.locked := by
  cases a with
  | lock => exact absurd rfl hl
  | unlock => exact absurd rfl hu
  | emit log =>
    simp only [act, pure_eq, Except.ok.injEq, Prod.mk.injEq] at h
    obtain ⟨rfl, -⟩ := h
    rfl
  | pull token payer amount =>
    simp only [act, seq_eq_ok, orElse_eq_ok, pure_eq, Except.ok.injEq, Prod.mk.injEq] at h
    obtain ⟨ledger, -, rfl, -⟩ := h
    rfl
  | transferPayout id party amount =>
    simp only [act, transferPayout] at h
    split at h
    · simp only [pure_eq, Except.ok.injEq, Prod.mk.injEq] at h
      obtain ⟨rfl, -⟩ := h
      rfl
    · simp only [seq_eq_ok, require_eq_ok, exists_const, orElse_eq_ok, pure_eq, Except.ok.injEq,
        Prod.mk.injEq] at h
      obtain ⟨-, ledger, -, rfl, -⟩ := h
      rfl
  | rate _ _ | recordDispute _ | publish _ _ _ _ _ | closeListing _ =>
    simp only [act] at h
    split at h
    all_goals
      simp only [pure_eq, Except.ok.injEq, Prod.mk.injEq] at h
      obtain ⟨rfl, -⟩ := h
      rfl

/-- A call that goes on under the guard either lowers the flag at its end or waits under it. -/
theorem drive_guarded {l : List Action} (hl : Plain l) (h : drive D (l ++ [.unlock]) w = .ok stop) :
    (stop.rest = none ∧ stop.world.locked = false) ∨
      ∃ l', stop.rest = some (l' ++ [.unlock]) ∧ Plain l' ∧ stop.world.locked = w.locked := by
  induction l generalizing w stop with
  | nil =>
    obtain ⟨w', paid, yields, ha, hcase⟩ := drive_cons h
    simp only [act, pure_eq, Except.ok.injEq, Prod.mk.injEq] at ha
    obtain ⟨rfl, rfl, rfl⟩ := ha
    rcases hcase with ⟨hy, -⟩ | ⟨-, stop', hd, rfl⟩
    · cases hy
    · rw [drive_nil hd]
      exact .inl ⟨rfl, rfl⟩
  | cons a l ih =>
    obtain ⟨w', paid, yields, ha, hcase⟩ := drive_cons h
    have hplain : Plain l := ⟨fun h => hl.1 (List.mem_cons_of_mem _ h),
      fun h => hl.2 (List.mem_cons_of_mem _ h)⟩
    have hsame : w'.locked = w.locked := act_locked ha (fun h => hl.1 (by simp [h]))
      fun h => hl.2 (by simp [h])
    rcases hcase with ⟨-, rfl⟩ | ⟨-, stop', hd, rfl⟩
    · exact .inr ⟨l, rfl, hplain, hsame⟩
    · rcases ih hplain hd with hend | ⟨l', hrest, hplain', hlocked⟩
      · exact .inl hend
      · exact .inr ⟨l', hrest, hplain', hlocked.trans hsame⟩

/-- Interactions that pay nobody run through. -/
theorem drive_quiet (hq : Quiet todo) (h : drive D todo w = .ok stop) :
    stop.rest = none ∧ stop.paid = [] ∧ stop.world.locked = w.locked := by
  obtain ⟨hdues, hpaid, -⟩ := drive_books h
  rw [hq.2] at hdues
  simp only [List.nil_eq, List.append_eq_nil_iff, List.map_eq_nil_iff] at hdues
  have hrest : stop.rest = none := by_contra fun hr => hpaid hr hdues.1
  refine ⟨hrest, hdues.1, ?_⟩
  have hplain := hq.1
  clear hq hdues hpaid hrest
  induction todo generalizing w stop with
  | nil => rw [drive_nil h]
  | cons a todo ih =>
    obtain ⟨w', paid, yields, ha, hcase⟩ := drive_cons h
    have hsame : w'.locked = w.locked := act_locked ha (fun h => hplain.1 (by simp [h]))
      fun h => hplain.2 (by simp [h])
    rcases hcase with ⟨-, rfl⟩ | ⟨-, stop', hd, rfl⟩
    · exact hsame
    · exact (ih hd ⟨fun h => hplain.1 (List.mem_cons_of_mem _ h),
        fun h => hplain.2 (List.mem_cons_of_mem _ h)⟩).trans hsame

/-- At most one call waits for a payee, and it waits under the reentrancy flag. -/
def Waiting (c : Config) : Prop :=
  (c.stack = [] ∧ c.world.locked = false) ∨
    ∃ f l, c.stack = [f] ∧ c.world.locked = true ∧ f.rest = l ++ [.unlock] ∧ Plain l

theorem Waiting.step (hc : Waiting c) (h : Step D c e c') : Waiting c' := by
  cases h with
  | call m stop hs hb =>
    obtain ⟨ledger, s', todo, -, -, -, heff, hdrive, -⟩ := begin_ok hb
    rcases heff.shape with ⟨hl, l, rfl, hplain⟩ | hquiet
    · have hstack : c.stack = [] := by
        rcases hc with ⟨h, -⟩ | ⟨f, l, -, hlocked, -⟩
        · exact h
        · exact absurd (hl.symm.trans hlocked) Bool.false_ne_true
      obtain ⟨w', paid, yields, ha, hcase⟩ := drive_cons hdrive
      simp only [act, pure_eq, Except.ok.injEq, Prod.mk.injEq] at ha
      obtain ⟨rfl, rfl, rfl⟩ := ha
      rcases hcase with ⟨hy, -⟩ | ⟨-, stop', hd, rfl⟩
      · cases hy
      · rcases drive_guarded hplain hd with ⟨hrest, hunlocked⟩ | ⟨l', hrest, hplain', hlocked⟩
        · exact .inl ⟨by simp [hrest, suspend, hstack], hunlocked⟩
        · exact .inr ⟨⟨c.calls, _⟩, l', by simp [hrest, suspend, hstack], hlocked, rfl, hplain'⟩
    · obtain ⟨hrest, -, hlocked⟩ := drive_quiet hquiet hdrive
      rcases hc with ⟨hstack, hfree⟩ | ⟨f, l, hstack, hheld, hf, hplain⟩
      · exact .inl ⟨by simp [hrest, suspend, hstack], hlocked.trans hfree⟩
      · exact .inr ⟨f, l, by simp [hrest, suspend, hstack], hlocked.trans hheld, hf, hplain⟩
  | ret f stack stop hd =>
    rcases hc with ⟨hstack, -⟩ | ⟨f', l, hstack, hheld, hf, hplain⟩
    · cases hstack
    · obtain ⟨rfl, rfl⟩ := List.cons.inj hstack
      rw [hf] at hd
      rcases drive_guarded hplain hd with ⟨hrest, hunlocked⟩ | ⟨l', hrest, hplain', hlocked⟩
      · exact .inl ⟨by simp [hrest, suspend], hunlocked⟩
      · exact .inr ⟨⟨f.cid, _⟩, l', by simp [hrest, suspend], hlocked.trans hheld, rfl, hplain'⟩
  | tick dt =>
    rcases hc with h | ⟨f, l, hstack, -⟩
    · exact .inl h
    · cases hstack
  | funds | reputation | registry => exact hc

theorem Initial.waiting (h0 : Initial D c₀) (hrun : EscrowRun D c₀ tr c) : Waiting c :=
  hrun.invariant (I := fun _ c => Waiting c) (.inl ⟨h0.stack, h0.locked⟩)
    fun _ _ _ _ _ hb hs => hb.step hs

/-- Between two calls from outside the flag is down. -/
theorem Initial.unlocked (h0 : Initial D c₀) (hrun : EscrowRun D c₀ tr c) (hstack : c.stack = []) :
    c.world.locked = false := by
  rcases h0.waiting hrun with ⟨-, h⟩ | ⟨f, l, h, -⟩
  · exact h
  · rw [hstack] at h
    cases h

/-! ## Calls to their end -/

/-- The whole call succeeds when its payees accept what they are paid. -/
def Succeeds (D : Deployment) (m : Msg) (w : World) : Prop :=
  ∃ w' paid, transact D m w = .ok (w', paid)

theorem settle_cons {a : Action} {rest : List Action}
    (h : settle D (a :: rest) w = .ok (w', paid)) :
    ∃ w₁ paid₁ yields paid₂, act D a w = .ok (w₁, paid₁, yields) ∧
      settle D rest w₁ = .ok (w', paid₂) ∧ paid = paid₁ ++ paid₂ := by
  simp only [settle, seq_eq_ok, pure_eq, Except.ok.injEq, Prod.mk.injEq, Prod.exists] at h
  obtain ⟨w₁, paid₁, yields, ha, w₂, paid₂, hs, rfl, rfl⟩ := h
  exact ⟨w₁, paid₁, yields, paid₂, ha, hs, rfl⟩

/-- A call that can run to its end can begin, and goes on where it stops. -/
theorem settle_drive (h : settle D todo w = .ok (w', paid)) :
    ∃ stop later, drive D todo w = .ok stop ∧ paid = stop.paid ++ later ∧
      match stop.rest with
      | none => stop.world = w' ∧ later = []
      | some rest => settle D rest stop.world = .ok (w', later) ∧ rest.length < todo.length := by
  induction todo generalizing w paid with
  | nil =>
    simp only [settle, pure_eq, Except.ok.injEq, Prod.mk.injEq] at h
    obtain ⟨rfl, rfl⟩ := h
    exact ⟨⟨w, [], none⟩, [], rfl, rfl, rfl, rfl⟩
  | cons a rest ih =>
    obtain ⟨w₁, paid₁, yields, paid₂, ha, hs, rfl⟩ := settle_cons h
    cases yields with
    | true =>
      exact ⟨⟨w₁, paid₁, some rest⟩, paid₂, by simp [drive, ha], rfl, hs, by simp⟩
    | false =>
      obtain ⟨stop, later, hd, rfl, hcase⟩ := ih hs
      refine ⟨⟨stop.world, paid₁ ++ stop.paid, stop.rest⟩, later, by simp [drive, ha, hd],
        by simp, ?_⟩
      cases hrest : stop.rest with
      | none => simpa [hrest] using hcase
      | some rest' =>
        rw [hrest] at hcase
        exact ⟨hcase.1, hcase.2.trans (by simp)⟩

theorem settle_run (cid : Nat) (h : settle D todo w = .ok (w', paid)) :
    ∃ tr, EscrowRun D ⟨w, [⟨cid, todo⟩], calls⟩ tr ⟨w', [], calls⟩ ∧
      ∀ e ∈ tr, e.kind = .returned cid := by
  induction hn : todo.length using Nat.strong_induction_on generalizing todo w paid with
  | _ n ih =>
    obtain ⟨stop, later, hd, -, hcase⟩ := settle_drive h
    have hstep : Step D ⟨w, [⟨cid, todo⟩], calls⟩ _ _ := .ret ⟨cid, todo⟩ [] stop hd
    cases hrest : stop.rest with
    | none =>
      simp only [hrest, suspend] at hcase hstep
      rw [hcase.1] at hstep
      exact ⟨_, .single hstep, by simp⟩
    | some rest =>
      simp only [hrest, suspend] at hcase hstep
      obtain ⟨tr, hrun, hall⟩ := ih rest.length (hn ▸ hcase.2) hcase.1 rfl
      refine ⟨_, (Run.single hstep).append hrun, ?_⟩
      intro e he
      rcases List.mem_append.mp he with he | he
      · exact hall e he
      · rw [List.mem_singleton.mp he]

theorem transact_ok (h : transact D m w = .ok (w', paid)) :
    ∃ ledger s' todo, w.ledger.move 0 m.sender D.self m.value = some ledger ∧
      (m.op.payable = true ∨ m.value = 0) ∧
      enter D.recover (w.ctx m) m.op w.escrow = .ok (s', todo) ∧
      settle D todo { w with ledger, escrow := s' } = .ok (w', paid) := by
  simp only [transact, seq_eq_ok, require_eq_ok, exists_const, orElse_eq_ok, Prod.exists] at h
  obtain ⟨hpay, ledger, hledger, s', todo, henter, hsettle⟩ := h
  exact ⟨ledger, s', todo, hledger, hpay, henter, hsettle⟩

/-- A call without value, taken apart. -/
theorem transact_free {sender : Address} : transact D ⟨sender, 0, op⟩ w = .ok (w', paid) ↔
    ∃ s' todo, enter D.recover ⟨sender, 0, w.timestamp, w.locked⟩ op w.escrow = .ok (s', todo) ∧
      settle D todo { w with escrow := s' } = .ok (w', paid) := by
  simp only [transact, Ledger.move_zero, orElse, seq_eq_ok, require_eq_ok, exists_const, or_true,
    true_and, Prod.exists, Except.ok.injEq, exists_eq_left']
  rfl

/-- A call that can run to its end is a run of the system. -/
theorem transact_run (hs : Sender D m.sender) (h : transact D m w = .ok (w', paid)) :
    ∃ tr, EscrowRun D ⟨w, [], calls⟩ tr ⟨w', [], calls + 1⟩ ∧
      ∀ e ∈ tr, e.kind = .called calls m ∨ e.kind = .returned calls := by
  obtain ⟨ledger, s', todo, hledger, hpay, henter, hsettle⟩ := transact_ok h
  obtain ⟨stop, later, hd, -, hcase⟩ := settle_drive hsettle
  have hb : begin D m w = .ok stop := by
    simpa [begin, require, hpay, hledger, orElse, henter] using hd
  have hstep : Step D ⟨w, [], calls⟩ _ _ := .call m stop hs hb
  cases hrest : stop.rest with
  | none =>
    simp only [hrest, suspend] at hcase hstep
    rw [hcase.1] at hstep
    exact ⟨_, .single hstep, by simp⟩
  | some rest =>
    simp only [hrest, suspend] at hcase hstep
    obtain ⟨tr, hrun, hall⟩ := settle_run calls hcase.1
    refine ⟨_, (Run.single hstep).append hrun, ?_⟩
    intro e he
    rcases List.mem_append.mp he with he | he
    · exact .inr (hall e he)
    · exact .inl (by rw [List.mem_singleton.mp he])

theorem settle_escrow (h : settle D todo w = .ok (w', paid)) :
    w'.escrow = w.escrow ∧ w'.timestamp = w.timestamp := by
  induction todo generalizing w paid with
  | nil =>
    simp only [settle, pure_eq, Except.ok.injEq, Prod.mk.injEq] at h
    obtain ⟨rfl, -⟩ := h
    exact ⟨rfl, rfl⟩
  | cons a rest ih =>
    obtain ⟨w₁, paid₁, yields, paid₂, ha, hs, -⟩ := settle_cons h
    have hact := act_escrow ha
    have hrest := ih hs
    exact ⟨hrest.1.trans hact.1, hrest.2.trans hact.2⟩

/-! ## Payouts that can be made -/

/-- An interaction that moves no token always succeeds. -/
theorem act_free {a : Action} (hpull : ∀ token payer amount, a ≠ .pull token payer amount)
    (hpay : dues [a] = []) :
    ∃ w', act D a w = .ok (w', [], false) ∧ w'.ledger = w.ledger := by
  cases a with
  | pull token payer amount => exact absurd rfl (hpull _ _ _)
  | transferPayout task party amount =>
    have h0 : amount = 0 := by
      by_contra h
      simp [dues, h] at hpay
    exact ⟨w, by simp [act, transferPayout, h0], rfl⟩
  | lock | unlock | emit _ => exact ⟨_, rfl, rfl⟩
  | rate _ _ | recordDispute _ | publish _ _ _ _ _ | closeListing _ =>
    simp only [act]
    split <;> exact ⟨_, rfl, rfl⟩

/-- Payouts on one task go through when the balance covers them and no native one goes to the
escrow itself. -/
theorem settle_ok (id : Nat)
    (hpull : ∀ token payer amount, Action.pull token payer amount ∉ todo)
    (hid : ∀ d ∈ dues todo, d.task = id)
    (hself : (w.escrow.tasks id).token = 0 →
      ∀ d ∈ dues todo, d.party.address w.escrow id ≠ D.self)
    (hbal : total (dues todo) ≤ w.ledger.bal (w.escrow.tasks id).token D.self) :
    ∃ w' paid, settle D todo w = .ok (w', paid) := by
  induction todo generalizing w with
  | nil => exact ⟨w, [], rfl⟩
  | cons a rest ih =>
    have hsplit : dues (a :: rest) = dues [a] ++ dues rest := dues_append [a] rest
    rw [hsplit] at hid hself hbal
    have hpull' : ∀ token payer amount, Action.pull token payer amount ∉ rest :=
      fun t p n h => hpull t p n (List.mem_cons_of_mem _ h)
    obtain ⟨w₁, paid₁, yields, ha, hbal₁⟩ : ∃ w₁ paid₁ yields, act D a w = .ok (w₁, paid₁, yields) ∧
        total (dues rest) ≤ w₁.ledger.bal (w.escrow.tasks id).token D.self := by
      by_cases hpay : dues [a] = []
      · obtain ⟨w₁, ha, hledger⟩ :=
          act_free (D := D) (w := w) (fun t p n h => hpull t p n (by simp [h])) hpay
        refine ⟨w₁, [], false, ha, ?_⟩
        rw [hledger]
        simpa [hpay] using hbal
      · cases a with
        | transferPayout task party amount =>
          have h0 : amount ≠ 0 := fun h => hpay (by simp [dues, h])
          simp only [dues, h0, ↓reduceIte, List.singleton_append, List.mem_cons, forall_eq_or_imp,
            total_cons] at hid hself hbal
          obtain ⟨rfl, -⟩ := hid
          obtain ⟨ledger, hmove⟩ := Ledger.move_isSome w.ledger
            (w.escrow.tasks task).token (party.address w.escrow task)
            (show amount ≤ w.ledger.bal (w.escrow.tasks task).token D.self by omega)
          refine ⟨{ w with ledger }, [⟨task, party, (w.escrow.tasks task).token,
            party.address w.escrow task, amount⟩], (w.escrow.tasks task).token = 0, ?_, ?_⟩
          · have hnative : (w.escrow.tasks task).token = 0 →
                party.address w.escrow task ≠ D.self := fun h => (hself h).1
            simp only [act, transferPayout, if_neg h0, require_pos hnative, ok_bind, hmove, orElse,
              pure_eq]
          · have hge := Ledger.shifted_src_ge (w.ledger.bal (w.escrow.tasks task).token) D.self
              (party.address w.escrow task) amount
            rw [Ledger.move_token hmove]
            omega
        | _ => exact absurd rfl hpay
    have hescrow := (act_escrow ha).1
    obtain ⟨w', paid₂, hs⟩ := ih hpull' (fun d hd => hid d (List.mem_append_right _ hd))
      (by rw [hescrow]; exact fun h d hd => hself h d (List.mem_append_right _ hd))
      (by rw [hescrow]; exact hbal₁)
    exact ⟨w', paid₁ ++ paid₂, by simp [settle, ha, hs]⟩

/-- A call about a task pulls no tokens. -/
theorem Move.no_pull (h : Move x s id op r todo) :
    ∀ token payer amount, Action.pull token payer amount ∉ todo := by
  have hemits : ∀ {l : List Action}, (∀ a ∈ l, ∃ log, a = .emit log) →
      ∀ token payer amount, Action.pull token payer amount ∉ l := by
    intro l hl token payer amount hmem
    obtain ⟨log, hlog⟩ := hl _ hmem
    cases hlog
  intro token payer amount
  cases h with
  | assign | evidence | dispute | submit => simp
  | escalate => simp [guarded]
  | fail op emitted disputed hl hp hop hs hw hst hem hdi =>
    have := hemits hem token payer amount
    rcases hdi with rfl | rfl <;> simp [guarded, this]
  | complete op fee score before after hl hfee hle h =>
    cases h with
    | passed op fee' emitted hp hop hs hw hst hfee' hem =>
      simp [guarded, hemits hem token payer amount]
    | ruled => simp [guarded]
    | released => simp [guarded]
  | refund op after hl h => cases h <;> simp [guarded]
  | pick => simp [guarded]
  | void => simp [guarded]

/-- The amount of a live task is in the escrow. -/
theorem Initial.amount_le (h0 : Initial D c₀) (hrun : EscrowRun D c₀ tr c)
    (hid : id < c.world.escrow.nextTaskId)
    (hlive : (c.world.escrow.tasks id).status.live = true) :
    (c.world.escrow.tasks id).amount ≤
      c.world.ledger.bal (c.world.escrow.tasks id).token D.self := by
  refine le_trans ?_ (h0.held_le hrun (c.world.escrow.tasks id).token)
  have hle := single_le_sum (f := fun j => if (c.world.escrow.tasks j).token =
    (c.world.escrow.tasks id).token then held c.world.escrow c.stack j else 0)
    (fun _ _ => Nat.zero_le _) (mem_range.mpr hid)
  refine le_trans ?_ hle
  simp [held, hlive]

/-- A call about a task changes no settings. -/
theorem Effect.task_settings (h : Effect x s op s' todo) (hid : op.taskId = some id) :
    SameSettings s s' ∧ SameClock s s' ∧ s'.nextTaskId = s.nextTaskId := by
  cases h with
  | move => exact ⟨⟨rfl, rfl, rfl, rfl, rfl, rfl, rfl, rfl, rfl, rfl⟩, ⟨rfl, rfl, rfl⟩, rfl⟩
  | create op token i hl hp hop => rcases hop with ⟨rfl, -⟩ | rfl <;> cases hid
  | configure op _ _ _ _ _ _ _ _ _ _ _ hop => rw [hop] at hid; cases hid
  | batch | createOpen | pause | unpause | recordPauseStart => cases hid

/-- Whoever a task is paid to can call. -/
theorem Move.payee (h : Move x s id op r todo) (hr : RowOk D (s.row id))
    (hst : r.task.status = .completed) : Sender D r.task.worker := by
  cases h with
  | complete op fee score before after hl hfee hle h =>
    exact (hr.delivered (h.status.imp_right .inr)).2.2
  | pick op winner scorecard judge fee hl h hsub => exact (hr.submitter winner hsub).1
  | submit hash ext hp ho hst' => exact absurd (hst'.symm.trans hst) (by simp)
  | _ => cases hst

/-- A call about a task that the code accepts runs to its end when its payees accept. -/
theorem Initial.call_succeeds (h0 : Initial D c₀) (hrun : EscrowRun D c₀ tr c)
    (hs : Sender D m.sender) (hid : m.op.taskId = some id) (hvalue : m.value = 0)
    (henter : enter D.recover (c.world.ctx m) m.op c.world.escrow = .ok (s', todo))
    (htreasury : (s'.tasks id).status = .completed → (c.world.escrow.tasks id).token = 0 →
      c.world.escrow.treasury ≠ D.self) :
    ∃ w' paid, transact D m c.world = .ok (w', paid) ∧ w'.escrow = s' ∧
      w'.timestamp = c.world.timestamp := by
  have hw := h0.sound_run hrun
  have heff := enter_effect henter
  obtain ⟨hmove, h0', hlt, hr⟩ := hw.target hs heff hid
  obtain ⟨ledger, hledger⟩ := Ledger.move_isSome c.world.ledger 0 D.self
    (show m.value ≤ c.world.ledger.bal 0 m.sender by omega)
  have hbal : ∀ t, ledger.bal t D.self = c.world.ledger.bal t D.self := by
    intro t
    by_cases ht : t = 0
    · subst ht
      rw [Ledger.move_token hledger, Ledger.shifted_dst _ _ hs.2, hvalue, Nat.add_zero]
    · rw [Ledger.move_other_token hledger ht]
  have hterms := hmove.sameTerms
  have htoken : (s'.tasks id).token = (c.world.escrow.tasks id).token := hterms.token
  have hagent : (s'.tasks id).agent = (c.world.escrow.tasks id).agent := hterms.agent
  have hdues : (∀ d ∈ dues todo, d ∈ plan c.world.escrow id (s'.tasks id).status) ∧
      total (dues todo) ≤ (c.world.escrow.tasks id).amount := by
    rcases hmove.dues hr with ⟨-, hdues⟩ | ⟨hdead, hdues⟩
    · simp [hdues]
    · rw [hdues]
      exact ⟨fun d hd => hd, (plan_total hdead hw.fee).le⟩
  obtain ⟨w', paid, hsettle⟩ := settle_ok (D := D) id
    (w := { c.world with ledger, escrow := s' }) hmove.no_pull
    (fun d hd => plan_task d (hdues.1 d hd))
    (fun hnative d hd => by
      rcases plan_party (hdues.1 d hd) with ⟨hst, hparty | hparty⟩ | ⟨-, hparty⟩
      · rw [hparty]
        exact (hmove.payee hr hst).2
      · rw [hparty]
        change s'.treasury ≠ D.self
        rw [(heff.task_settings hid).1.treasury]
        exact htreasury hst (htoken ▸ hnative)
      · rw [hparty]
        change (s'.tasks id).agent ≠ D.self
        rw [hagent]
        exact hr.agent.2)
    (by
      change total (dues todo) ≤ ledger.bal (s'.tasks id).token D.self
      rw [hbal, htoken]
      exact hdues.2.trans (h0.amount_le hrun hlt hmove.live))
  refine ⟨w', paid, ?_, settle_escrow hsettle⟩
  simp only [transact, require_pos (show m.op.payable = true ∨ m.value = 0 from .inr hvalue),
    ok_bind, hledger, orElse, henter, hsettle]

end BlindEscrow

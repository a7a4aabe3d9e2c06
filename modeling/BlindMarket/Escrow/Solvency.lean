import BlindMarket.Escrow.Lifecycle

/-!
# Solvency and settlement

A task's amount is held while the task is live. The call that settles the task
owes it to the worker and the treasury, or to the agent, and what it owes it
pays, at once or after a native payee has returned. The books below keep what
was paid, what a suspended call still owes, and what is held for every task;
their total never exceeds the balance of the escrow.
-/
namespace BlindEscrow

open Checked Runs TokenLedger Finset

variable {D : Deployment} {b c c' c₀ : Config} {e : Event} {tr : Trace} {w w' : World}
  {stop : Stop} {s s' : Escrow} {x : Ctx} {id : Nat} {op : Op} {r : Row} {todo : List Action}

/-! ## Dues and payments -/

/-- A payout that a call has to make. -/
structure Due where
  task : Nat
  party : Party
  amount : Nat
  deriving DecidableEq, Repr

def dues : List Action → List Due
  | [] => []
  | .transferPayout task party amount :: rest =>
    if amount = 0 then dues rest else ⟨task, party, amount⟩ :: dues rest
  | _ :: rest => dues rest

def Payment.due (p : Payment) : Due := ⟨p.task, p.party, p.amount⟩

def duesOn (id : Nat) (l : List Due) : List Due := l.filter (·.task = id)

def total (l : List Due) : Nat := (l.map Due.amount).sum

/-- What was paid of one token. -/
def paidIn (t : Address) (paid : List Payment) : Nat :=
  ((paid.filter (·.token = t)).map Payment.amount).sum

/-- What the escrow pulls of one token from others. -/
def pulled (D : Deployment) (t : Address) : List Action → Nat
  | [] => 0
  | .pull token payer amount :: rest =>
    (if token = t ∧ payer ≠ D.self then amount else 0) + pulled D t rest
  | _ :: rest => pulled D t rest

@[simp] theorem duesOn_nil (id : Nat) : duesOn id [] = [] := rfl
@[simp] theorem duesOn_append (id : Nat) (l l' : List Due) :
    duesOn id (l ++ l') = duesOn id l ++ duesOn id l' := List.filter_append ..
@[simp] theorem total_nil : total [] = 0 := rfl
@[simp] theorem total_cons (d : Due) (l : List Due) : total (d :: l) = d.amount + total l := by
  simp [total]
@[simp] theorem total_append (l l' : List Due) : total (l ++ l') = total l + total l' := by
  simp [total]
@[simp] theorem paidIn_nil (t : Address) : paidIn t [] = 0 := rfl
theorem paidIn_cons (t : Address) (p : Payment) (l : List Payment) :
    paidIn t (p :: l) = (if p.token = t then p.amount else 0) + paidIn t l := by
  by_cases h : p.token = t <;> simp [paidIn, h]
@[simp] theorem paidIn_append (t : Address) (l l' : List Payment) :
    paidIn t (l ++ l') = paidIn t l + paidIn t l' := by simp [paidIn]

theorem dues_append (l l' : List Action) : dues (l ++ l') = dues l ++ dues l' := by
  induction l with
  | nil => rfl
  | cons a l ih =>
    cases a with
    | transferPayout task party amount =>
      by_cases h : amount = 0 <;> simp [dues, h, ih]
    | _ => simpa [dues] using ih

theorem pulled_append (t : Address) (l l' : List Action) :
    pulled D t (l ++ l') = pulled D t l + pulled D t l' := by
  induction l with
  | nil => simp [pulled]
  | cons a l ih => cases a <;> simp [pulled, ih, Nat.add_assoc]

/-! ## Interactions in the books -/

/-- The books of one interaction: what it had to pay, what it paid, and the balance. -/
theorem act_books {a : Action} {paid : List Payment} {yields : Bool}
    (h : act D a w = .ok (w', paid, yields)) :
    dues [a] = paid.map Payment.due ∧ (yields = true → paid ≠ []) ∧
      (∀ p ∈ paid, p.token = (w.escrow.tasks p.task).token ∧
        p.payee = p.party.address w.escrow p.task) ∧
      ∀ t, w.ledger.bal t D.self + pulled D t [a] ≤ w'.ledger.bal t D.self + paidIn t paid := by
  cases a with
  | lock | unlock | emit _ =>
    simp only [act, pure_eq, Except.ok.injEq, Prod.mk.injEq] at h
    obtain ⟨rfl, rfl, rfl⟩ := h
    simp [dues, pulled]
  | rate _ _ | recordDispute _ | publish _ _ _ _ _ | closeListing _ =>
    simp only [act] at h
    split at h
    all_goals
      simp only [pure_eq, Except.ok.injEq, Prod.mk.injEq] at h
      obtain ⟨rfl, rfl, rfl⟩ := h
      simp [dues, pulled]
  | pull token payer amount =>
    simp only [act, seq_eq_ok, orElse_eq_ok, pure_eq, Except.ok.injEq, Prod.mk.injEq] at h
    obtain ⟨ledger, hmove, rfl, rfl, rfl⟩ := h
    obtain ⟨hle, -, hbal, -⟩ := Ledger.transferFrom_eq_some.mp hmove
    refine ⟨rfl, by simp, by simp, fun t => ?_⟩
    simp only [pulled, paidIn_nil, Nat.add_zero, hbal]
    by_cases ht : token = t
    · subst ht
      rw [Function.update_self]
      by_cases hp : payer = D.self
      · subst hp
        simp [Ledger.shifted]
        omega
      · simp [hp, Ledger.shifted_dst _ _ hp]
    · simp [ht, Function.update_of_ne (Ne.symm ht)]
  | transferPayout task party amount =>
    simp only [act, transferPayout] at h
    split at h
    · rename_i h0
      simp only [pure_eq, Except.ok.injEq, Prod.mk.injEq] at h
      obtain ⟨rfl, rfl, rfl⟩ := h
      simp [dues, pulled, h0]
    · rename_i h0
      simp only [seq_eq_ok, require_eq_ok, exists_const, orElse_eq_ok, pure_eq, Except.ok.injEq,
        Prod.mk.injEq] at h
      obtain ⟨-, ledger, hmove, rfl, rfl, rfl⟩ := h
      refine ⟨by simp [dues, h0, Payment.due], by simp, by simp, fun t => ?_⟩
      simp only [pulled, Nat.add_zero, paidIn_cons, paidIn_nil]
      by_cases ht : (w.escrow.tasks task).token = t
      · subst ht
        rw [if_pos rfl, Ledger.move_token hmove]
        exact Ledger.shifted_src_ge _ _ _ _
      · rw [if_neg ht, Ledger.move_other_token hmove (Ne.symm ht)]
        omega

/-- The books of a list of interactions, up to where it stopped. -/
theorem drive_books (h : drive D todo w = .ok stop) :
    dues todo = stop.paid.map Payment.due ++ dues (stop.rest.getD []) ∧
      (stop.rest ≠ none → stop.paid ≠ []) ∧
      (∀ p ∈ stop.paid, p.token = (w.escrow.tasks p.task).token ∧
        p.payee = p.party.address w.escrow p.task) ∧
      ∀ t, pulled D t (stop.rest.getD []) ≤ pulled D t todo ∧
        w.ledger.bal t D.self + pulled D t todo ≤
          stop.world.ledger.bal t D.self + paidIn t stop.paid + pulled D t (stop.rest.getD []) := by
  induction todo generalizing w stop with
  | nil => rw [drive_nil h]; simp
  | cons a rest ih =>
    obtain ⟨w', paid, yields, ha, hcase⟩ := drive_cons h
    obtain ⟨hdues, hyields, hpaid, hbal⟩ := act_books ha
    have hsplit : dues (a :: rest) = dues [a] ++ dues rest := dues_append [a] rest
    have hpull : ∀ t, pulled D t (a :: rest) = pulled D t [a] + pulled D t rest :=
      fun t => pulled_append t [a] rest
    rcases hcase with ⟨hy, rfl⟩ | ⟨-, stop', hd, rfl⟩
    · refine ⟨by rw [hsplit, hdues]; rfl, fun _ => hyields hy, hpaid, fun t => ?_⟩
      have := hbal t
      simp only [Option.getD_some, hpull]
      omega
    · obtain ⟨hdues', hyields', hpaid', hbal'⟩ := ih hd
      rw [(act_escrow ha).1] at hpaid'
      refine ⟨by rw [hsplit, hdues, hdues']; simp, ?_, ?_, fun t => ?_⟩
      · intro hr
        simpa using fun _ => hyields' hr
      · intro p hp
        rcases List.mem_append.mp hp with hp | hp
        · exact hpaid p hp
        · exact hpaid' p hp
      · have := hbal t
        have := hbal' t
        simp only [hpull, paidIn_append]
        omega

/-! ## What a call owes -/

/-- What the settlement of a task owes, with the fee of that moment. -/
def plan (s : Escrow) (id : Nat) : TaskStatus → List Due
  | .completed =>
    let fee := (s.tasks id).amount * s.feeBps / 10000
    [⟨id, .worker, (s.tasks id).amount - fee⟩, ⟨id, .treasury, fee⟩].filter (·.amount ≠ 0)
  | .cancelled => [⟨id, .agent, (s.tasks id).amount⟩]
  | _ => []

theorem plan_task {st : TaskStatus} : ∀ d ∈ plan s id st, d.task = id := by
  intro d hd
  unfold plan at hd
  split at hd
  · have hd := (List.mem_filter.mp hd).1
    simp only [List.mem_cons, List.not_mem_nil, or_false] at hd
    rcases hd with rfl | rfl <;> rfl
  · rw [List.mem_singleton.mp hd]
  · cases hd

theorem plan_party {st : TaskStatus} {d : Due} (hd : d ∈ plan s id st) :
    (st = .completed ∧ (d.party = .worker ∨ d.party = .treasury)) ∨
      (st = .cancelled ∧ d.party = .agent) := by
  unfold plan at hd
  split at hd
  · have hd := (List.mem_filter.mp hd).1
    simp only [List.mem_cons, List.not_mem_nil, or_false] at hd
    rcases hd with rfl | rfl
    · exact .inl ⟨rfl, .inl rfl⟩
    · exact .inl ⟨rfl, .inr rfl⟩
  · rw [List.mem_singleton.mp hd]
    exact .inr ⟨rfl, rfl⟩
  · cases hd

theorem duesOn_self {l : List Due} (h : ∀ d ∈ l, d.task = id) : duesOn id l = l :=
  List.filter_eq_self.mpr fun d hd => by simpa using h d hd

theorem duesOn_other {l : List Due} {j : Nat} (h : ∀ d ∈ l, d.task = id) (hj : id ≠ j) :
    duesOn j l = [] :=
  List.filter_eq_nil_iff.mpr fun d hd => by simpa [h d hd] using hj

theorem total_filter (l : List Due) : total (l.filter (·.amount ≠ 0)) = total l := by
  induction l with
  | nil => rfl
  | cons d l ih => by_cases h : d.amount = 0 <;> simp_all

/-- A plan is the whole amount. -/
theorem plan_total {st : TaskStatus} (hst : st.live = false) (hbps : s.feeBps ≤ MAX_FEE_BPS) :
    total (plan s id st) = (s.tasks id).amount := by
  have hfee : (s.tasks id).amount * s.feeBps / 10000 ≤ (s.tasks id).amount := by
    apply Nat.div_le_of_le_mul
    rw [Nat.mul_comm]
    exact Nat.mul_le_mul_right _ (hbps.trans (by decide))
  cases st with
  | completed =>
    simp only [plan, total_filter, total_cons, total_nil]
    omega
  | cancelled => simp [plan]
  | _ => cases hst

theorem dues_guarded (l : List Action) : dues (guarded l) = dues l := by
  simp [guarded, dues, dues_append]

theorem dues_emits {l : List Action} (h : ∀ a ∈ l, ∃ log, a = .emit log) : dues l = [] := by
  induction l with
  | nil => rfl
  | cons a l ih =>
    obtain ⟨log, rfl⟩ := h a List.mem_cons_self
    exact ih fun b hb => h b (List.mem_cons_of_mem _ hb)

theorem dues_payout (worker treasury : Nat) (rest : List Action) :
    dues (.transferPayout id .worker worker :: .transferPayout id .treasury treasury :: rest) =
      [⟨id, .worker, worker⟩, (⟨id, .treasury, treasury⟩ : Due)].filter (·.amount ≠ 0) ++
        dues rest := by
  by_cases hw : worker = 0 <;> by_cases ht : treasury = 0 <;> simp [dues, hw, ht]

/-- A move owes the plan of the settlement, and nothing when it does not settle. -/
theorem Move.dues (h : Move x s id op r todo) (hr : RowOk D (s.row id)) :
    (r.task.status.live = true ∧ dues todo = []) ∨
      (r.task.status.live = false ∧ dues todo = plan s id r.task.status) := by
  have hamount : (s.tasks id).amount ≠ 0 := hr.amount
  cases h with
  | assign | evidence | dispute => exact .inl ⟨rfl, rfl⟩
  | submit hash ext hp ho hst =>
    refine .inl ⟨?_, rfl⟩
    simp only [Escrow.row_task, hst, TaskStatus.live]
  | escalate => exact .inl ⟨rfl, rfl⟩
  | fail op emitted disputed hl hp hop hs hw hst hem hdi =>
    refine .inl ⟨rfl, ?_⟩
    rw [dues_guarded, dues_append, dues_emits hem]
    rcases hdi with rfl | rfl <;> rfl
  | complete op fee score before after hl hfee hle h =>
    refine .inr ⟨rfl, ?_⟩
    have hafter : BlindEscrow.dues after = [] ∧ BlindEscrow.dues before = [] := by
      cases h with
      | passed op fee' emitted hp hop hs hw hst hfee' hem => exact ⟨rfl, dues_emits hem⟩
      | ruled => exact ⟨rfl, rfl⟩
      | released => exact ⟨rfl, rfl⟩
    rw [dues_guarded, dues_append, dues_append, hafter.1, hafter.2, dues_payout,
      (platformFee_eq_ok.mp hfee).2]
    simp [BlindEscrow.dues, plan]
  | refund op after hl h =>
    refine .inr ⟨rfl, ?_⟩
    rw [dues_guarded]
    cases h <;> simp [BlindEscrow.dues, plan, hamount]
  | pick op winner scorecard judge fee hl h hsub hne hfee hle =>
    refine .inr ⟨rfl, ?_⟩
    rw [dues_guarded, dues_append, dues_append, dues_payout, (platformFee_eq_ok.mp hfee).2]
    simp [BlindEscrow.dues, plan]
  | void op scorecard judge hl h =>
    refine .inr ⟨rfl, ?_⟩
    rw [dues_guarded]
    simp [BlindEscrow.dues, plan, hamount]

theorem dues_announceAll (x : Ctx) (token : Address) (tasks : List TaskInput) (next : Nat) :
    dues (announceAll x token tasks next) = [] := by
  induction tasks generalizing next with
  | nil => rfl
  | cons i tasks ih =>
    have hv : dues (verifierEvents i next) = [] := by
      unfold verifierEvents
      split <;> rfl
    simp [announceAll, dues_append, hv, ih, announceTask, dues]

/-- A call about no task owes nothing. -/
theorem Effect.dues_none (h : Effect x s op s' todo) (hop : op.taskId = none) : dues todo = [] := by
  have hverifier : ∀ i next, dues (verifierEvents i next) = [] := by
    intro i next
    unfold verifierEvents
    split <;> rfl
  have hpayment : ∀ token amount, dues (paymentOf x token amount) = [] := by
    intro token amount
    unfold paymentOf
    split <;> rfl
  cases h with
  | move id op r todo hid h => rw [hid] at hop; cases hop
  | create | createOpen =>
    simp [dues_guarded, dues_append, hverifier, hpayment, announceTask, dues]
  | batch => simp [dues_guarded, dues_append, dues_announceAll, dues]
  | configure | pause | unpause | recordPauseStart => rfl

/-- A call owes nothing on the tasks it does not move. -/
theorem Effect.dues_other (h : Effect x s op s' todo) {j : Nat} (hj : op.taskId ≠ some j)
    (hr : ∀ id, op.taskId = some id → RowOk D (s.row id)) : duesOn j (dues todo) = [] := by
  cases hop : op.taskId with
  | none => rw [h.dues_none hop]; rfl
  | some id =>
    rcases h.row id with ⟨hne, -⟩ | ⟨-, -, hmove⟩ | ⟨-, -, -, hnone, -⟩
    · exact absurd hop hne
    · rcases hmove.dues (hr id hop) with ⟨-, hdues⟩ | ⟨-, hdues⟩
      · rw [hdues]; rfl
      · rw [hdues]
        exact duesOn_other plan_task fun h => hj (h ▸ hop)
    · rw [hop] at hnone; cases hnone

/-! ## One account per task -/

/-- What suspended calls still owe on a task. -/
def pendingOn (id : Nat) (stack : List Frame) : List Due :=
  stack.flatMap fun f => duesOn id (dues f.rest)

/-- What a run has paid on a task, in order. -/
def paidOn (id : Nat) : Trace → List Due
  | [] => []
  | e :: tr => paidOn id tr ++ duesOn id (e.paid.map Payment.due)

/-- The call whose interactions an event ran. -/
def Event.cid (e : Event) : Option Nat :=
  match e.kind with
  | .called cid _ | .returned cid => some cid
  | _ => none

/-- The event is the call `cid` and settles task `id`. -/
def Event.settles (e : Event) (id cid : Nat) : Prop :=
  (∃ m, e.kind = .called cid m ∧ m.op.taskId = some id) ∧
    (e.pre.escrow.tasks id).status.live = true ∧ (e.post.escrow.tasks id).status.live = false

/-- The account of a task: untouched while it is live; once settled, one call has paid or still owes
the plan of the settlement. -/
def Account (c : Config) (tr : Trace) (id : Nat) : Prop :=
  ((c.world.escrow.tasks id).status.live = true ∧ paidOn id tr = [] ∧ pendingOn id c.stack = []) ∨
  ((c.world.escrow.tasks id).status.live = false ∧ ∃ e ∈ tr, ∃ cid, e.settles id cid ∧
    paidOn id tr ++ pendingOn id c.stack =
      plan e.pre.escrow id (c.world.escrow.tasks id).status ∧
    (∀ e' ∈ tr, duesOn id (e'.paid.map Payment.due) ≠ [] → e'.cid = some cid) ∧
    ∀ f ∈ c.stack, duesOn id (dues f.rest) ≠ [] → f.cid = cid)

@[simp] theorem pendingOn_nil (id : Nat) : pendingOn id [] = [] := rfl
@[simp] theorem pendingOn_cons (id : Nat) (f : Frame) (stack : List Frame) :
    pendingOn id (f :: stack) = duesOn id (dues f.rest) ++ pendingOn id stack := rfl

theorem pendingOn_suspend (id cid : Nat) (rest : Option (List Action)) (stack : List Frame) :
    pendingOn id (suspend cid rest stack) =
      duesOn id (dues (rest.getD [])) ++ pendingOn id stack := by
  cases rest with
  | none => simp [suspend, dues]
  | some rest => simp [suspend]

theorem mem_suspend {cid : Nat} {rest : Option (List Action)} {stack : List Frame} {f : Frame}
    (h : f ∈ suspend cid rest stack) : (f.cid = cid ∧ rest = some f.rest) ∨ f ∈ stack := by
  cases rest with
  | none => exact .inr h
  | some rest =>
    rcases List.mem_cons.mp h with rfl | h
    · exact .inl ⟨rfl, rfl⟩
    · exact .inr h

/-- What a run of interactions did to the account of every task. -/
theorem drive_account (h : drive D todo w = .ok stop) (id : Nat) :
    duesOn id (stop.paid.map Payment.due) ++ duesOn id (dues (stop.rest.getD [])) =
      duesOn id (dues todo) := by
  rw [(drive_books h).1, duesOn_append]

theorem pendingOn_eq_nil {stack : List Frame} (h : pendingOn id stack = []) :
    ∀ f ∈ stack, duesOn id (dues f.rest) = [] :=
  List.flatMap_eq_nil_iff.mp h

theorem paidOn_eq_nil (h : paidOn id tr = []) :
    ∀ e ∈ tr, duesOn id (e.paid.map Payment.due) = [] := by
  induction tr with
  | nil => simp
  | cons e tr ih =>
    simp only [paidOn, List.append_eq_nil_iff] at h
    intro e' he'
    rcases List.mem_cons.mp he' with rfl | he'
    · exact h.2
    · exact ih h.1 e' he'

theorem mem_paidOn {d : Due} (he : e ∈ tr) (hd : d ∈ duesOn id (e.paid.map Payment.due)) :
    d ∈ paidOn id tr := by
  induction tr with
  | nil => cases he
  | cons g tr ih =>
    rcases List.mem_cons.mp he with rfl | he
    · exact List.mem_append_right _ hd
    · exact List.mem_append_left _ (ih he)

/-- A step that neither moves a task nor pays on it leaves its account as it is. -/
theorem Account.of_quiet (h : Account c tr id)
    (hst : (c'.world.escrow.tasks id).status = (c.world.escrow.tasks id).status)
    (hpaid : duesOn id (e.paid.map Payment.due) = [])
    (hpending : pendingOn id c'.stack = pendingOn id c.stack)
    (hframes : ∀ f ∈ c'.stack, duesOn id (dues f.rest) ≠ [] → f ∈ c.stack) :
    Account c' (e :: tr) id := by
  unfold Account
  rw [hst, hpending, paidOn, hpaid, List.append_nil]
  rcases h with hlive | ⟨hdead, e₀, he₀, cid, hsettle, hplan, hpayer, hframe⟩
  · exact .inl hlive
  · refine .inr ⟨hdead, e₀, List.mem_cons_of_mem _ he₀, cid, hsettle, hplan, ?_, ?_⟩
    · intro e' he'
      rcases List.mem_cons.mp he' with rfl | he'
      · exact fun h => absurd hpaid h
      · exact hpayer e' he'
    · exact fun f hf hne => hframe f (hframes f hf hne) hne

/-- A returning call goes on paying what it owes. -/
theorem Account.of_return {f : Frame} {stack : List Frame} {calls : Nat}
    (h : Account ⟨w, f :: stack, calls⟩ tr id) (hd : drive D f.rest w = .ok stop) :
    Account ⟨stop.world, suspend f.cid stop.rest stack, calls⟩
      (⟨.returned f.cid, w, stop.world, stop.paid⟩ :: tr) id := by
  have hacc := drive_account hd id
  have hescrow := (drive_escrow hd).1
  unfold Account at h ⊢
  simp only [hescrow, paidOn, pendingOn_suspend, pendingOn_cons] at h ⊢
  rcases h with ⟨hlive, hpaid, hpending⟩ | ⟨hdead, e₀, he₀, cid, hsettle, hplan, hpayer, hframe⟩
  · refine .inl ⟨hlive, ?_⟩
    simp only [List.append_eq_nil_iff] at hpending
    rw [hpending.1] at hacc
    simp only [List.append_eq_nil_iff] at hacc
    exact ⟨by rw [hpaid, hacc.1]; rfl, by rw [hacc.2, hpending.2]; rfl⟩
  · refine .inr ⟨hdead, e₀, List.mem_cons_of_mem _ he₀, cid, hsettle, ?_, ?_, ?_⟩
    · rw [← hplan, ← hacc]
      simp
    · intro e' he' hne
      rcases List.mem_cons.mp he' with rfl | he'
      · have := hframe f List.mem_cons_self (by rw [← hacc]; simp [hne])
        simp [Event.cid, this]
      · exact hpayer e' he' hne
    · intro f' hf' hne
      rcases mem_suspend hf' with ⟨hcid, hrest⟩ | hf'
      · rw [hcid]
        refine hframe f List.mem_cons_self ?_
        rw [← hacc, hrest]
        simp [hne]
      · exact hframe f' (List.mem_cons_of_mem _ hf') hne

/-- A call settles the account of the task it moves, if it settles the task. -/
theorem Account.of_call {m : Msg} (hw : Sound D c.world) (hs : Sender D m.sender)
    (hb : begin D m c.world = .ok stop) (h : Account c tr id) :
    Account ⟨stop.world, suspend c.calls stop.rest c.stack, c.calls + 1⟩
      (⟨.called c.calls m, c.world, stop.world, stop.paid⟩ :: tr) id := by
  obtain ⟨ledger, s', todo, -, -, -, heff, hdrive, rfl, -⟩ := begin_ok hb
  have hacc := drive_account hdrive id
  have hrows : ∀ j, m.op.taskId = some j → RowOk D (c.world.escrow.row j) :=
    fun j hj => (hw.target hs heff hj).2.2.2
  by_cases hid : m.op.taskId = some id
  · obtain ⟨hmove, -⟩ := hw.target hs heff hid
    have hlive : (c.world.escrow.tasks id).status.live = true := hmove.live
    obtain ⟨-, hpaid, hpending⟩ : (c.world.escrow.tasks id).status.live = true ∧
        paidOn id tr = [] ∧ pendingOn id c.stack = [] := by
      rcases h with h | ⟨hdead, -⟩
      · exact h
      · exact absurd (hdead.symm.trans hlive) Bool.false_ne_true
    unfold Account
    simp only [paidOn, hpaid, pendingOn_suspend, hpending, List.nil_append, List.append_nil, hacc]
    rcases hmove.dues (hrows id hid) with ⟨hlive', hdues⟩ | ⟨hdead', hdues⟩
    · rw [hdues] at hacc
      simp only [duesOn_nil, List.append_eq_nil_iff] at hacc
      exact .inl ⟨hlive', hacc⟩
    · refine .inr ⟨hdead', _, List.mem_cons_self, c.calls, ⟨⟨m, rfl, hid⟩, hlive, hdead'⟩, ?_,
        ?_, ?_⟩
      · rw [hdues]
        exact duesOn_self plan_task
      · intro e' he' hne
        rcases List.mem_cons.mp he' with rfl | he'
        · rfl
        · exact absurd (paidOn_eq_nil hpaid e' he') hne
      · intro f hf hne
        rcases mem_suspend hf with ⟨hcid, -⟩ | hf
        · exact hcid
        · exact absurd (pendingOn_eq_nil hpending f hf) hne
  · have hdues := heff.dues_other hid hrows
    rw [hdues] at hacc
    simp only [List.append_eq_nil_iff] at hacc
    refine h.of_quiet ?_ hacc.1 (by simp [pendingOn_suspend, hacc.2]) ?_
    · rcases heff.row id with ⟨-, -, hrow⟩ | ⟨hid', -⟩ | ⟨token, i, o, -, hin, -, -, -, -, hrow⟩
      · exact congrArg (fun r => r.task.status) hrow
      · exact absurd hid' hid
      · have hblank := hw.blank id (.inr (inputAt_eq_some hin).1)
        have hnew : (stop.world.escrow.tasks id).status = .funded :=
          congrArg (fun r => r.task.status) hrow
        have hold : (c.world.escrow.tasks id).status = .funded :=
          congrArg (fun r => r.task.status) hblank
        rw [hnew, hold]
    · intro f hf hne
      rcases mem_suspend hf with ⟨-, hrest⟩ | hf
      · rw [hrest] at hacc
        exact absurd hacc.2 hne
      · exact hf

theorem Account.step (hw : Sound D c.world) (hs : Step D c e c') (h : Account c tr id) :
    Account c' (e :: tr) id := by
  cases hs with
  | call m stop hsender hb => exact h.of_call hw hsender hb
  | ret f stack stop hd => exact h.of_return hd
  | tick dt => exact h.of_quiet rfl rfl rfl fun f hf _ => hf
  | funds | reputation | registry => exact h.of_quiet rfl rfl rfl fun f hf _ => hf

theorem Initial.account (h0 : Initial D c₀) (hrun : EscrowRun D c₀ tr c) (id : Nat) :
    Account c tr id := by
  induction hrun with
  | nil =>
    obtain ⟨sender, treasury, verifier, -, -, -, hs⟩ := h0.storage
    exact .inl ⟨by rw [hs]; rfl, rfl, by rw [h0.stack]; rfl⟩
  | snoc hrun hs ih => exact ih.step (h0.sound_run hrun) hs

/-! ## The pool of funds -/

/-- What the escrow holds for one task: its amount while it is live, and what is still owed. -/
def held (s : Escrow) (stack : List Frame) (id : Nat) : Nat :=
  (if (s.tasks id).status.live then (s.tasks id).amount else 0) + total (pendingOn id stack)

/-- The amounts of all tasks in one token. -/
def funded (s : Escrow) (t : Address) : Nat :=
  ∑ id ∈ range s.nextTaskId, if (s.tasks id).token = t then (s.tasks id).amount else 0

/-- What a run has paid of one token. -/
def paidAll (t : Address) : Trace → Nat
  | [] => 0
  | e :: tr => paidAll t tr + paidIn t e.paid

/-- For every task, what is held and what was paid make up its amount. -/
theorem Initial.held_add_paid (h0 : Initial D c₀) (hrun : EscrowRun D c₀ tr c) (id : Nat) :
    held c.world.escrow c.stack id + total (paidOn id tr) = (c.world.escrow.tasks id).amount := by
  unfold held
  rcases h0.account hrun id with ⟨hlive, hpaid, hpending⟩ | ⟨hdead, e, he, cid, hsettle, hplan, -⟩
  · simp [hlive, hpaid, hpending]
  · obtain ⟨later, earlier, b, b', rfl, hb, hs, hlater⟩ := hrun.split_mem he
    have hw := h0.sound_run hb
    obtain ⟨⟨m, hk, hop⟩, hlive, hdead'⟩ := hsettle
    rw [hs.worlds.1] at hlive hplan
    rw [hs.worlds.2] at hdead'
    have hid : id < b.world.escrow.nextTaskId := by
      rcases hs.row id with ⟨-, -, hrow⟩ | ⟨m', todo, -, hsender, -, -, hmove⟩ | ⟨m', t, i, o, hc⟩
      · have := congrArg (fun r => r.task.status.live) hrow
        exact absurd (hdead'.symm.trans (this.trans hlive)) Bool.false_ne_true
      · exact (hw.moved hsender hmove).2.1
      · have := congrArg (fun t => t.status.live) hc.fields.1
        exact absurd (hdead'.symm.trans this) Bool.false_ne_true
    have hamount : (c.world.escrow.tasks id).amount = (b.world.escrow.tasks id).amount :=
      (sameTerms_run ((Run.single hs).append hlater) hid).amount
    have htotal := congrArg total hplan
    rw [total_append, plan_total hdead hw.fee] at htotal
    simp only [hdead, Bool.false_eq_true, ↓reduceIte, hamount]
    omega

/-- The value sent and the token pulled for a new task are at least its amount. -/
theorem payment_received {token amount : Nat} (hval : ValueOk x token amount)
    (hx : x.sender ≠ D.self) (t : Address) :
    (if token = t then amount else 0) ≤
      (if t = 0 then x.value else 0) + pulled D t (paymentOf x token amount) := by
  unfold ValueOk at hval
  unfold paymentOf
  by_cases ht : token = t
  · subst ht
    by_cases h0 : token = 0
    · simp_all
    · simp [h0, pulled, hx]
  · simp [ht]

theorem pulled_guarded (t : Address) (l : List Action) :
    pulled D t (guarded l) = pulled D t l := by
  simp [guarded, pulled, pulled_append]

/-- The amounts of the tasks a call creates come in with it. -/
theorem Effect.funded_le (h : Effect x s op s' todo) (hx : x.sender ≠ D.self) (t : Address) :
    (∑ k ∈ range op.inputs.length, if (s'.tasks (s.nextTaskId + k)).token = t then
      (s'.tasks (s.nextTaskId + k)).amount else 0) ≤
      (if t = 0 then x.value else 0) + pulled D t todo := by
  cases h with
  | move id op r todo hid h =>
    have hin : op.inputs = [] := by cases op <;> first | rfl | cases hid
    simp [hin]
  | create op token i hl hp hop hrec hval =>
    have hlen : op.inputs.length = 1 := by rcases hop with ⟨rfl, -⟩ | rfl <;> rfl
    have hrow : (s.recorded x token i).tasks s.nextTaskId = newTask x token i :=
      Function.update_self ..
    have hreceived := payment_received hval hx t
    simp only [hlen, range_one, sum_singleton, Nat.add_zero, hrow, newTask, pulled_guarded,
      pulled_append]
    omega
  | batch token tasks hl hp h0 hmax htok hval hrec hsum =>
    have hrow : ∀ k : Fin tasks.length,
        (s.recordedAll x token tasks).tasks (s.nextTaskId + k) = newTask x token tasks[k] := by
      intro k
      have hin : inputAt s.nextTaskId tasks (s.nextTaskId + k) = some tasks[k] := by
        simp [inputAt]
      have h := recordedAll_row x token tasks s (s.nextTaskId + k)
      rw [hin] at h
      exact congrArg Row.task h
    have hsum : (∑ k : Fin tasks.length, if token = t then tasks[k].amount else 0) =
        if token = t then (tasks.map TaskInput.amount).sum else 0 := by
      split
      · exact Fin.sum_univ_fun_getElem tasks TaskInput.amount
      · simp
    rw [Op.inputs, sum_range]
    simp only [hrow, newTask, hsum, pulled_guarded, pulled_append, pulled]
    by_cases ht : token = t
    · simp only [ht, ne_eq, hx, not_false_eq_true, and_self, ↓reduceIte]
      omega
    · simp [ht]
  | createOpen token i mode window hl hp hv hw hrec hval =>
    have hreceived := payment_received hval hx t
    simp only [Op.inputs, List.length_singleton, range_one, sum_singleton, Nat.add_zero,
      Escrow.put, Function.update_self, newRow, newTask, pulled_guarded, pulled_append]
    omega
  | configure op _ _ _ _ _ _ _ _ _ _ _ hop hin => simp [hin]
  | pause | unpause | recordPauseStart => simp [Op.inputs]

/-- A step changes the amounts on the books by no more than what comes in, and the balance by no
less than what comes in and is paid. -/
theorem Step.funds_le (hs : Step D c e c') (t : Address) :
    funded c'.world.escrow t + c.world.ledger.bal t D.self ≤
      funded c.world.escrow t + c'.world.ledger.bal t D.self + paidIn t e.paid := by
  have hold : ∀ id ∈ range c.world.escrow.nextTaskId,
      (if (c'.world.escrow.tasks id).token = t then (c'.world.escrow.tasks id).amount else 0) =
        if (c.world.escrow.tasks id).token = t then (c.world.escrow.tasks id).amount else 0 := by
    intro id hid
    have hterms := hs.sameTerms (mem_range.mp hid)
    have htoken : (c'.world.escrow.tasks id).token = (c.world.escrow.tasks id).token := hterms.token
    have hamount : (c'.world.escrow.tasks id).amount = (c.world.escrow.tasks id).amount :=
      hterms.amount
    rw [htoken, hamount]
  cases hs with
  | call m stop hsender hb =>
    obtain ⟨ledger, s', todo, hvalue, -, -, heff, hdrive, rfl, -⟩ := begin_ok hb
    have hnew := heff.funded_le hsender.2 t
    obtain ⟨hdues, hpaid, -, hbal⟩ := drive_books hdrive
    obtain ⟨hpull, hbal⟩ := hbal t
    have hreceived : c.world.ledger.bal t D.self + (if t = 0 then m.value else 0) ≤
        ledger.bal t D.self := by
      by_cases ht : t = 0
      · subst ht
        rw [Ledger.move_token hvalue, Ledger.shifted_dst _ _ hsender.2]
        exact le_rfl
      · rw [Ledger.move_other_token hvalue ht, if_neg ht, Nat.add_zero]
    have hsplit : funded stop.world.escrow t = funded c.world.escrow t +
        ∑ k ∈ range m.op.inputs.length,
          if (stop.world.escrow.tasks (c.world.escrow.nextTaskId + k)).token = t then
            (stop.world.escrow.tasks (c.world.escrow.nextTaskId + k)).amount else 0 := by
      unfold funded
      rw [heff.nextTaskId, sum_range_add, sum_congr rfl hold]
    -- a call that stopped for a payee created nothing
    have hcreates : m.op.inputs = [] ∨ stop.rest = none := by
      by_contra hboth
      have hop : m.op.taskId = none := Op.taskId_of_inputs fun hnone => hboth (.inl hnone)
      rw [heff.dues_none hop] at hdues
      simp only [List.nil_eq, List.append_eq_nil_iff, List.map_eq_nil_iff] at hdues
      exact hboth (.inr (by_contra fun hr => hpaid hr hdues.1))
    dsimp only [World.ctx] at hnew hbal ⊢
    rcases hcreates with hnone | hnone
    · simp only [hnone, List.length_nil, range_zero, sum_empty, Nat.add_zero] at hsplit
      omega
    · simp only [hnone, Option.getD_none, pulled, Nat.add_zero] at hbal
      omega
  | ret f stack stop hd =>
    obtain ⟨hpull, hbal⟩ := (drive_books hd).2.2.2 t
    have hescrow := (drive_escrow hd).1
    dsimp only
    rw [hescrow]
    omega
  | tick dt => simp
  | funds ledger h =>
    have := h t
    dsimp only [paidIn_nil]
    omega
  | reputation | registry => simp

theorem Initial.funded_le (h0 : Initial D c₀) (hrun : EscrowRun D c₀ tr c) (t : Address) :
    funded c.world.escrow t ≤ c.world.ledger.bal t D.self + paidAll t tr := by
  induction hrun with
  | nil =>
    obtain ⟨sender, treasury, verifier, -, -, -, hs⟩ := h0.storage
    simp [hs, funded]
  | snoc hrun hs ih =>
    have hstep := hs.funds_le t
    simp only [paidAll]
    omega

/-! ## Payments by task -/

/-- Every payment is on a created task, in its token, to the party's address. -/
theorem Step.paid_ok (hs : Step D c e c') (hw : Sound D c.world) (hacc : ∀ id, Account c tr id) :
    ∀ p ∈ e.paid, p.task < c.world.escrow.nextTaskId ∧
      p.token = (c'.world.escrow.tasks p.task).token ∧
      p.payee = p.party.address c'.world.escrow p.task := by
  have hpending : ∀ id, c.world.escrow.nextTaskId ≤ id → pendingOn id c.stack = [] := by
    intro id hid
    have hblank := congrArg (fun r => r.task.status.live) (hw.blank id (.inr hid))
    rcases hacc id with ⟨-, -, h⟩ | ⟨hdead, -⟩
    · exact h
    · exact absurd (hdead.symm.trans hblank) Bool.false_ne_true
  cases hs with
  | call m stop hsender hb =>
    obtain ⟨ledger, s', todo, -, -, -, heff, hdrive, rfl, -⟩ := begin_ok hb
    intro p hp
    obtain ⟨htoken, hpayee⟩ := (drive_books hdrive).2.2.1 p hp
    refine ⟨?_, htoken, hpayee⟩
    have hon : duesOn p.task (dues todo) ≠ [] := by
      rw [← drive_account hdrive]
      refine List.append_ne_nil_of_left_ne_nil (List.ne_nil_of_mem (a := p.due) ?_) _
      exact List.mem_filter.mpr ⟨List.mem_map_of_mem hp, by simp [Payment.due]⟩
    by_contra hlt
    exact hon (heff.dues_other (fun hop => hlt (hw.target hsender heff hop).2.2.1)
      fun j hj => (hw.target hsender heff hj).2.2.2)
  | ret f stack stop hd =>
    intro p hp
    obtain ⟨htoken, hpayee⟩ := (drive_books hd).2.2.1 p hp
    rw [(drive_escrow hd).1]
    refine ⟨?_, htoken, hpayee⟩
    have hon : duesOn p.task (dues f.rest) ≠ [] := by
      rw [← drive_account hd]
      refine List.append_ne_nil_of_left_ne_nil (List.ne_nil_of_mem (a := p.due) ?_) _
      exact List.mem_filter.mpr ⟨List.mem_map_of_mem hp, by simp [Payment.due]⟩
    by_contra hlt
    exact hon (pendingOn_eq_nil (hpending p.task (not_lt.mp hlt)) f List.mem_cons_self)
  | tick | funds | reputation | registry => simp

/-- Payments of one token, sorted by task. -/
theorem paidIn_by_task {n : Nat} {token : Nat → Address} {t : Address} {l : List Payment}
    (h : ∀ p ∈ l, p.task < n ∧ p.token = token p.task) :
    (∑ id ∈ range n, if token id = t then total (duesOn id (l.map Payment.due)) else 0) =
      paidIn t l := by
  induction l with
  | nil => simp
  | cons p l ih =>
    obtain ⟨hlt, htoken⟩ := h p List.mem_cons_self
    have hsplit : ∀ id, (if token id = t then total (duesOn id ((p :: l).map Payment.due)) else 0) =
        (if id = p.task then (if p.token = t then p.amount else 0) else 0) +
          if token id = t then total (duesOn id (l.map Payment.due)) else 0 := by
      intro id
      by_cases hid : p.task = id
      · subst hid
        by_cases ht : token p.task = t <;> simp [duesOn, Payment.due, htoken, ht]
      · simp [duesOn, Payment.due, hid, Ne.symm hid]
    rw [sum_congr rfl fun id _ => hsplit id, sum_add_distrib,
      ih fun q hq => h q (List.mem_cons_of_mem _ hq), sum_ite_eq', if_pos (mem_range.mpr hlt),
      paidIn_cons]

theorem Account.paidOn_blank (hw : Sound D c.world) (h : Account c tr id)
    (hid : c.world.escrow.nextTaskId ≤ id) : paidOn id tr = [] := by
  have hblank := congrArg (fun r => r.task.status.live) (hw.blank id (.inr hid))
  rcases h with ⟨-, h, -⟩ | ⟨hdead, -⟩
  · exact h
  · exact absurd (hdead.symm.trans hblank) Bool.false_ne_true

theorem Initial.paidAll_eq (h0 : Initial D c₀) (hrun : EscrowRun D c₀ tr c) (t : Address) :
    paidAll t tr = ∑ id ∈ range c.world.escrow.nextTaskId,
      if (c.world.escrow.tasks id).token = t then total (paidOn id tr) else 0 := by
  induction hrun with
  | nil => simp [paidAll, paidOn]
  | @snoc tr b c e hrun hs ih =>
    have hw := h0.sound_run hrun
    have hnext := hs.nextTaskId_le
    have hpaid := hs.paid_ok hw (h0.account hrun)
    have hnew : (∑ id ∈ range c.world.escrow.nextTaskId,
        if (c.world.escrow.tasks id).token = t then total (duesOn id (e.paid.map Payment.due))
          else 0) = paidIn t e.paid :=
      paidIn_by_task fun p hp => ⟨(hpaid p hp).1.trans_le hnext, (hpaid p hp).2.1⟩
    have hold : (∑ id ∈ range c.world.escrow.nextTaskId,
        if (c.world.escrow.tasks id).token = t then total (paidOn id tr) else 0) =
          paidAll t tr := by
      rw [ih]
      symm
      calc (∑ id ∈ range b.world.escrow.nextTaskId,
            if (b.world.escrow.tasks id).token = t then total (paidOn id tr) else 0)
          = ∑ id ∈ range b.world.escrow.nextTaskId,
              if (c.world.escrow.tasks id).token = t then total (paidOn id tr) else 0 := by
            refine sum_congr rfl fun id hid => ?_
            have htoken : (c.world.escrow.tasks id).token = (b.world.escrow.tasks id).token :=
              (hs.sameTerms (mem_range.mp hid)).token
            rw [htoken]
        _ = _ := by
            refine sum_subset (range_subset_range.mpr hnext) fun id _ hid => ?_
            rw [(h0.account hrun id).paidOn_blank hw (not_lt.mp fun h => hid (mem_range.mpr h))]
            simp
    rw [paidAll, ← hold, ← hnew, ← sum_add_distrib]
    refine sum_congr rfl fun id _ => ?_
    split <;> simp [paidOn]

/-- What the escrow holds for all tasks in a token is there. -/
theorem Initial.held_le (h0 : Initial D c₀) (hrun : EscrowRun D c₀ tr c) (t : Address) :
    (∑ id ∈ range c.world.escrow.nextTaskId,
      if (c.world.escrow.tasks id).token = t then held c.world.escrow c.stack id else 0) ≤
      c.world.ledger.bal t D.self := by
  have hfunded := h0.funded_le hrun t
  have hsplit : funded c.world.escrow t = (∑ id ∈ range c.world.escrow.nextTaskId,
      if (c.world.escrow.tasks id).token = t then held c.world.escrow c.stack id else 0) +
        paidAll t tr := by
    rw [h0.paidAll_eq hrun t, ← sum_add_distrib, funded]
    refine sum_congr rfl fun id _ => ?_
    rw [← h0.held_add_paid hrun id]
    split <;> rfl
  omega

/-- A settling event is a call that moves the task. -/
theorem Step.settling (hs : Step D c e c') (hw : Sound D c.world) (h : e.settles id cid) :
    ∃ m todo, e.kind = .called c.calls m ∧ Sender D m.sender ∧ 0 < id ∧
      id < c.world.escrow.nextTaskId ∧
      Move (c.world.ctx m) c.world.escrow id m.op (c'.world.escrow.row id) todo := by
  obtain ⟨⟨m, hk, hop⟩, -⟩ := h
  rcases hs.storage with ⟨m', todo, hk', hsender, heff, -, -⟩ | ⟨hk', -⟩
  · rw [hk'] at hk
    cases hk
    obtain ⟨hmove, h0, hlt, -⟩ := hw.target hsender heff hop
    exact ⟨m, todo, hk', hsender, h0, hlt, hmove⟩
  · exact absurd hk (hk' _ _)

/-- The call that settled a task, in a run from the start. -/
theorem Initial.settlement (h0 : Initial D c₀) (hrun : EscrowRun D c₀ tr c)
    (hdead : (c.world.escrow.tasks id).status.live = false) :
    ∃ later e earlier b b' m todo, tr = later ++ e :: earlier ∧ EscrowRun D c₀ earlier b ∧
      Step D b e b' ∧ EscrowRun D b' later c ∧ e.settles id b.calls ∧
      e.kind = .called b.calls m ∧ Sender D m.sender ∧ 0 < id ∧ id < b.world.escrow.nextTaskId ∧
      Move (b.world.ctx m) b.world.escrow id m.op (b'.world.escrow.row id) todo ∧
      c.world.escrow.row id = b'.world.escrow.row id ∧
      paidOn id tr ++ pendingOn id c.stack =
        plan b.world.escrow id (c.world.escrow.tasks id).status ∧
      ∀ e' ∈ tr, duesOn id (e'.paid.map Payment.due) ≠ [] → e'.cid = some b.calls := by
  rcases h0.account hrun id with ⟨hlive, -⟩ | ⟨-, e, he, cid, hsettle, hplan, hpayer, -⟩
  · exact absurd (hdead.symm.trans hlive) Bool.false_ne_true
  · obtain ⟨later, earlier, b, b', rfl, hb, hs, hlater⟩ := hrun.split_mem he
    obtain ⟨m, todo, hk, hsender, hid, hlt, hmove⟩ := hs.settling (h0.sound_run hb) hsettle
    have hcid : cid = b.calls := by
      obtain ⟨⟨m', hk', -⟩, -⟩ := hsettle
      rw [hk, Kind.called.injEq] at hk'
      exact hk'.1.symm
    subst hcid
    have hdead' := hsettle.2.2
    rw [hs.worlds.2] at hdead'
    rw [hs.worlds.1] at hplan
    exact ⟨later, e, earlier, b, b', m, todo, rfl, hb, hs, hlater, hsettle, hk, hsender, hid, hlt,
      hmove, settled_run hlater (hlt.trans_le hs.nextTaskId_le) hdead', hplan, hpayer⟩

/-- The escrow is solvent and settles every task exactly once. In every state of every run the
balance of each token covers the amounts of the live tasks in it. Nothing is paid on a live task;
on a settled one, one call pays what the settlement planned, and all of the amount once it has
returned, in the token of the task and to the addresses of the parties. -/
theorem escrow_solvent (h0 : Initial D c₀) (hrun : EscrowRun D c₀ tr c) :
    (∀ t, (∑ id ∈ range c.world.escrow.nextTaskId,
        if (c.world.escrow.tasks id).token = t ∧ (c.world.escrow.tasks id).status.live = true then
          (c.world.escrow.tasks id).amount else 0) ≤ c.world.ledger.bal t D.self) ∧
    (∀ id, (c.world.escrow.tasks id).status.live = true → paidOn id tr = []) ∧
    (∀ id, (c.world.escrow.tasks id).status.live = false →
      ∃ e ∈ tr, ∃ cid, e.settles id cid ∧
        paidOn id tr ++ pendingOn id c.stack =
          plan e.pre.escrow id (c.world.escrow.tasks id).status ∧
        (∀ e' ∈ tr, duesOn id (e'.paid.map Payment.due) ≠ [] → e'.cid = some cid) ∧
        ((∀ f ∈ c.stack, f.cid ≠ cid) →
          paidOn id tr = plan e.pre.escrow id (c.world.escrow.tasks id).status ∧
          total (paidOn id tr) = (c.world.escrow.tasks id).amount)) ∧
    ∀ e ∈ tr, ∀ p ∈ e.paid, p.token = (e.post.escrow.tasks p.task).token ∧
      p.payee = p.party.address e.post.escrow p.task := by
  refine ⟨fun t => ?_, fun id hlive => ?_, fun id hdead => ?_, fun e he => ?_⟩
  · refine le_trans (sum_le_sum fun id _ => ?_) (h0.held_le hrun t)
    by_cases ht : (c.world.escrow.tasks id).token = t <;>
      by_cases hlive : (c.world.escrow.tasks id).status.live = true <;> simp [ht, hlive, held]
  · rcases h0.account hrun id with ⟨-, hpaid, -⟩ | ⟨hdead, -⟩
    · exact hpaid
    · exact absurd (hdead.symm.trans hlive) Bool.false_ne_true
  · have hheld := h0.held_add_paid hrun id
    rcases h0.account hrun id with ⟨hlive, -⟩ | ⟨-, e, he, cid, hsettle, hplan, hpayer, hframe⟩
    · exact absurd (hdead.symm.trans hlive) Bool.false_ne_true
    · refine ⟨e, he, cid, hsettle, hplan, hpayer, fun hreturned => ?_⟩
      have hpending : pendingOn id c.stack = [] :=
        List.flatMap_eq_nil_iff.mpr fun f hf =>
          by_contra fun hne => hreturned f hf (hframe f hf hne)
      rw [hpending, List.append_nil] at hplan
      exact ⟨hplan, by simpa [held, hdead, hpending] using hheld⟩
  · obtain ⟨later, earlier, b, b', rfl, hb, hs, -⟩ := hrun.split_mem he
    intro p hp
    rw [hs.worlds.2]
    exact (hs.paid_ok (h0.sound_run hb) (h0.account hb) p hp).2

/-- A native payout during which the worker calls back for another task, and the treasury is paid
after it. -/
def callback : List Cue :=
  [.send ⟨1, 0, .allowToken 0⟩, .send ⟨10, 500, .createTask 7 0 500 "delivery" "north" 7200⟩,
    .send ⟨10, 300, .createTask 8 0 300 "delivery" "north" 7200⟩,
    .send ⟨10, 0, .assignWorker 1 20⟩, .send ⟨10, 0, .assignWorker 2 20⟩,
    .send ⟨20, 0, .submitEvidence 1 8⟩, .send ⟨3, 0, .completeVerification 1 true⟩,
    .send ⟨20, 0, .submitEvidence 2 9⟩, .resume, .resume]

theorem escrow_solvent_callback :
    paidOn 1 (demoPlay callback).2 = [⟨1, .worker, 450⟩, ⟨1, .treasury, 50⟩] ∧
      total (paidOn 1 (demoPlay callback).2) =
        ((demoPlay callback).1.world.escrow.tasks 1).amount ∧
      paidOn 2 (demoPlay callback).2 = [] := by
  have h := escrow_solvent (demoStart_initial (by decide)) (demoPlay_run callback)
  obtain ⟨e, -, cid, -, -, -, hreturned⟩ := h.2.2.1 1 (by decide)
  have hstack : (demoPlay callback).1.stack = [] := by decide
  exact ⟨by decide, (hreturned (by simp [hstack])).2, h.2.1 2 (by decide)⟩

end BlindEscrow

import BlindMarket.Escrow.Solvency

/-!
# What a worker is paid

The call that settles a task for its worker takes the platform's cut at the
fee of that moment. Nothing later changes what the worker was paid, nor the
fee it was paid at.
-/
namespace BlindEscrow

open Checked Runs TokenLedger

variable {D : Deployment} {c c' c₀ : Config} {tr tr' : Trace} {id : Nat}

/-- The event is a call that settles task `id`. -/
def Event.isSettlement (e : Event) (id : Nat) : Bool :=
  e.about id && (e.pre.escrow.tasks id).status.live && !(e.post.escrow.tasks id).status.live

/-- The fee in force when a task was settled. -/
def feeAt (id : Nat) : Trace → Option Nat
  | [] => none
  | e :: tr => if e.isSettlement id then some e.pre.escrow.feeBps else feeAt id tr

/-- What the worker of a task has been paid. -/
def workerPaid (id : Nat) (tr : Trace) : Nat :=
  total ((paidOn id tr).filter (·.party = .worker))

theorem feeAt_append (h : ∀ e ∈ tr', e.isSettlement id = false) :
    feeAt id (tr' ++ tr) = feeAt id tr := by
  induction tr' with
  | nil => rfl
  | cons e tr' ih =>
    rw [List.cons_append, feeAt, h e List.mem_cons_self]
    exact ih fun e' he' => h e' (List.mem_cons_of_mem _ he')

/-- Only created tasks settle. -/
theorem Sound.created (hw : Sound D c.world)
    (hdead : (c.world.escrow.tasks id).status.live = false) : id < c.world.escrow.nextTaskId := by
  by_contra hid
  have hblank := congrArg (fun r => r.task.status.live) (hw.blank id (.inr (not_lt.mp hid)))
  exact absurd (hdead.symm.trans hblank) Bool.false_ne_true

/-- A settled task is not settled again. -/
theorem settled_quiet (hw : Sound D c.world) (h : EscrowRun D c tr' c')
    (hdead : (c.world.escrow.tasks id).status.live = false) :
    ∀ e ∈ tr', e.isSettlement id = false := by
  intro e he
  obtain ⟨later, earlier, b, b', rfl, hb, hs, -⟩ := h.split_mem he
  have hrow := settled_run hb (hw.created hdead) hdead
  have hlive := congrArg (fun r => r.task.status.live) hrow
  have hpre : (e.pre.escrow.tasks id).status.live = false := by
    rw [hs.worlds.1]
    exact hlive.trans hdead
  simp [Event.isSettlement, hpre]

theorem feeAt_run (hw : Sound D c.world) (h : EscrowRun D c tr' c')
    (hdead : (c.world.escrow.tasks id).status.live = false) :
    feeAt id (tr' ++ tr) = feeAt id tr := feeAt_append (settled_quiet hw h hdead)

theorem plan_worker {s : Escrow} :
    total ((plan s id .completed).filter (·.party = .worker)) =
      (s.tasks id).amount - (s.tasks id).amount * s.feeBps / 10000 := by
  simp only [plan]
  generalize (s.tasks id).amount * s.feeBps / 10000 = fee
  generalize (s.tasks id).amount - fee = share
  by_cases hshare : share = 0 <;> by_cases hfee : fee = 0 <;> simp [hshare, hfee]

/-- A worker whose task is settled has been paid the amount less the fee of the settlement. -/
theorem Initial.workerPaid_eq (h0 : Initial D c₀) (hrun : EscrowRun D c₀ tr c)
    (hstack : c.stack = []) (hst : (c.world.escrow.tasks id).status = .completed) :
    ∃ fee, feeAt id tr = some fee ∧ fee ≤ MAX_FEE_BPS ∧ workerPaid id tr =
      (c.world.escrow.tasks id).amount - (c.world.escrow.tasks id).amount * fee / 10000 := by
  have hdead : (c.world.escrow.tasks id).status.live = false := by rw [hst]; rfl
  obtain ⟨later, e, earlier, b, b', m, todo, rfl, hb, hs, hlater, hsettles, hkind, -, -, -, hmove,
    hrow, hpaid, -⟩ := h0.settlement hrun hdead
  have hdead' : (b'.world.escrow.tasks id).status.live = false :=
    (congrArg (fun r => r.task.status.live) hrow).symm.trans hdead
  have hsame : (c.world.escrow.tasks id).amount = (b.world.escrow.tasks id).amount := by
    have hamount := congrArg (fun r => r.task.amount) hrow
    exact hamount.trans hmove.sameTerms.amount
  have hsettled : e.isSettlement id = true := by
    obtain ⟨⟨m', hkind', hop⟩, hlive, hover⟩ := hsettles
    simp [Event.isSettlement, Event.about, hkind', hop, hlive, hover]
  refine ⟨b.world.escrow.feeBps, ?_, (h0.sound_run hb).fee, ?_⟩
  · have hw := (h0.sound_run hb).step hs
    rw [feeAt_run hw hlater hdead', feeAt, if_pos hsettled, hs.worlds.1]
  · rw [hstack, pendingOn_nil, List.append_nil, hst] at hpaid
    rw [workerPaid, hpaid, hsame]
    exact plan_worker

end BlindEscrow

import BlindMarket.AgentDelegate.System

/-!
# A signed call runs at most once

The nonce of the wallet counts its journal, in every wallet a running call may
still fall back to. So each executed call carries the next number, whichever
delegate ran it and however the calls were nested.
-/
namespace BlindAgentDelegate

open BlindEscrow (Address Bytes32 Bytes word)
open Checked Runs

variable {E : Env} {c c' c₀ : Config} {e : Event} {tr : Trace} {w : Wallet} {f : Frame} {id : Nat}

/-! ## The journal -/

/-- The journal carries the nonces below the current one, in order. -/
def Ordered (w : Wallet) : Prop :=
  w.journal.map (·.call.nonce) = (List.range (nonce w.storage)).reverse

/-- Every call in the journal was executed in the trace. -/
def Executed (tr : Trace) (w : Wallet) : Prop :=
  ∀ m ∈ w.journal, ∃ e ∈ tr, ∃ (id : Nat) (signature : Bytes), e.kind = .execute id m signature

theorem Executed.cons (h : Executed tr w) : Executed (e :: tr) w := by
  intro m hm
  obtain ⟨e', he', hkind⟩ := h m hm
  exact ⟨e', List.mem_cons_of_mem _ he', hkind⟩

theorem Ordered.execute {d : Delegate} {call : Call} {made : ExternalCall} (h : Ordered w)
    (hnonce : call.nonce = nonce w.storage) :
    Ordered { w with
      storage := Function.update w.storage STORAGE_LOCATION (nonce w.storage + 1)
      journal := ⟨d, call, made⟩ :: w.journal } := by
  unfold Ordered at *
  simp only [nonce_update, List.map_cons, List.range_succ, List.reverse_append,
    List.reverse_singleton, h, hnonce]
  rfl

/-! ## Calls in progress -/

/-- The event that opened the call `id`. -/
def Event.Starts (e : Event) (id : Nat) : Prop :=
  e.kind = .enter id ∨ ∃ (made : Made) (signature : Bytes), e.kind = .execute id made signature

def Event.Ends (e : Event) (id : Nat) (ok : Bool) : Prop := e.kind = .back id ok

/-- A wallet the system is in, or may fall back to. -/
def Config.Holds (c : Config) (w : Wallet) : Prop := w = c.wallet ∨ ∃ f ∈ c.stack, w = f.saved

/-- What holds of a run up to `c`. -/
structure Sound (tr : Trace) (c : Config) : Prop where
  ordered : ∀ w, c.Holds w → Ordered w
  executed : ∀ w, c.Holds w → Executed tr w
  fresh : ∀ e ∈ tr, ∀ id, (e.Starts id ∨ ∃ ok, e.Ends id ok) → id < c.calls
  frames : ∀ f ∈ c.stack, f.id < c.calls
  saved : ∀ f ∈ c.stack, ∀ e ∈ tr, e.Starts f.id → e.pre.wallet = f.saved
  restored : ∀ e₀ ∈ tr, ∀ e ∈ tr, ∀ id, e₀.Starts id → e.Ends id false →
    e.post.wallet = e₀.pre.wallet

theorem Frame.after_false (f : Frame) (ret : Bytes) (w : Wallet) : f.after false ret w = f.saved := by
  unfold Frame.after
  cases f.body with
  | none => rfl
  | some call => rfl

theorem Frame.after_true (f : Frame) (ret : Bytes) (w : Wallet) : f.after true ret w = w := by
  unfold Frame.after
  cases f.body with
  | none => rfl
  | some call => rfl

/-- A step that opens and closes nothing, and keeps the nonce and the journal. -/
theorem Sound.quiet (h : Sound tr c) (hstart : ∀ id, ¬ e.Starts id) (hend : ∀ id ok, ¬ e.Ends id ok)
    (hstack : c'.stack = c.stack) (hcalls : c'.calls = c.calls)
    (hnonce : nonce c'.wallet.storage = nonce c.wallet.storage)
    (hjournal : c'.wallet.journal = c.wallet.journal) : Sound (e :: tr) c' where
  ordered := by
    intro w hw
    rcases hw with rfl | ⟨f, hf, rfl⟩
    · have := h.ordered _ (.inl rfl)
      unfold Ordered at *
      rw [hjournal, hnonce, this]
    · exact h.ordered _ (.inr ⟨f, hstack ▸ hf, rfl⟩)
  executed := by
    intro w hw
    rcases hw with rfl | ⟨f, hf, rfl⟩
    · have := h.executed _ (.inl rfl)
      unfold Executed at *
      rw [hjournal]
      exact Executed.cons this
    · exact (h.executed _ (.inr ⟨f, hstack ▸ hf, rfl⟩)).cons
  fresh := by
    intro e' he' id hid
    rw [hcalls]
    rcases List.mem_cons.mp he' with rfl | he'
    · obtain hid | ⟨ok, hid⟩ := hid
      · exact absurd hid (hstart id)
      · exact absurd hid (hend id ok)
    · exact h.fresh e' he' id hid
  frames := by
    rw [hstack, hcalls]
    exact h.frames
  saved := by
    rw [hstack]
    intro f hf e' he' hs
    rcases List.mem_cons.mp he' with rfl | he'
    · exact absurd hs (hstart _)
    · exact h.saved f hf e' he' hs
  restored := by
    intro e₀ he₀ e' he' id hs hb
    rcases List.mem_cons.mp he₀ with rfl | he₀
    · exact absurd hs (hstart id)
    · rcases List.mem_cons.mp he' with rfl | he'
      · exact absurd hb (hend id false)
      · exact h.restored e₀ he₀ e' he' id hs hb

/-- A call that starts, inside the running ones. -/
theorem Sound.start {body : Option Call} (h : Sound tr c) (hpre : e.pre = c)
    (hstart : ∀ id, e.Starts id → id = c.calls) (hend : ∀ id ok, ¬ e.Ends id ok)
    (hstack : c'.stack = ⟨c.calls, body, c.wallet⟩ :: c.stack) (hcalls : c'.calls = c.calls + 1)
    (hordered : Ordered c'.wallet) (hexecuted : Executed (e :: tr) c'.wallet) :
    Sound (e :: tr) c' where
  ordered := by
    intro w hw
    rcases hw with rfl | ⟨f, hf, rfl⟩
    · exact hordered
    · rw [hstack] at hf
      rcases List.mem_cons.mp hf with rfl | hf
      · exact h.ordered _ (.inl rfl)
      · exact h.ordered _ (.inr ⟨f, hf, rfl⟩)
  executed := by
    intro w hw
    rcases hw with rfl | ⟨f, hf, rfl⟩
    · exact hexecuted
    · rw [hstack] at hf
      rcases List.mem_cons.mp hf with rfl | hf
      · exact (h.executed _ (.inl rfl)).cons
      · exact (h.executed _ (.inr ⟨f, hf, rfl⟩)).cons
  fresh := by
    intro e' he' id hid
    rw [hcalls]
    rcases List.mem_cons.mp he' with rfl | he'
    · obtain hid | ⟨ok, hid⟩ := hid
      · have := hstart id hid
        omega
      · exact absurd hid (hend id ok)
    · have := h.fresh e' he' id hid
      omega
  frames := by
    rw [hstack, hcalls]
    intro f hf
    rcases List.mem_cons.mp hf with rfl | hf
    · exact Nat.lt_succ_self _
    · have := h.frames f hf
      omega
  saved := by
    rw [hstack]
    intro f hf e' he' hs
    rcases List.mem_cons.mp hf with rfl | hf
    · rcases List.mem_cons.mp he' with rfl | he'
      · rw [hpre]
      · have := h.fresh e' he' _ (.inl hs)
        exact absurd this (lt_irrefl _)
    · rcases List.mem_cons.mp he' with rfl | he'
      · have := h.frames f hf
        have := hstart _ hs
        omega
      · exact h.saved f hf e' he' hs
  restored := by
    intro e₀ he₀ e' he' id hs hb
    rcases List.mem_cons.mp he' with rfl | hold
    · exact absurd hb (hend id false)
    · rcases List.mem_cons.mp he₀ with rfl | hold₀
      · -- the identifier is new, so nothing has ended under it
        have := h.fresh e' hold id (.inr ⟨false, hb⟩)
        have := hstart id hs
        omega
      · exact h.restored e₀ hold₀ e' hold id hs hb

/-- The innermost call ends. -/
theorem Sound.finish {ok : Bool} {ret : Bytes} {stack : List Frame} (h : Sound tr c)
    (hpost : e.post = c') (hkind : e.kind = .back f.id ok) (hstack : c.stack = f :: stack)
    (hc : c' = { c with wallet := f.after ok ret c.wallet, stack }) : Sound (e :: tr) c' := by
  have hholds : ∀ w, c'.Holds w → c.Holds w := by
    intro w hw
    rw [hc] at hw
    rcases hw with rfl | ⟨g, hg, rfl⟩
    · cases ok with
      | false => exact .inr ⟨f, hstack ▸ List.mem_cons_self, f.after_false ret _⟩
      | true => exact .inl (f.after_true ret _)
    · exact .inr ⟨g, hstack ▸ List.mem_cons_of_mem _ hg, rfl⟩
  have hmem : ∀ g ∈ c'.stack, g ∈ c.stack := fun g hg => by
    rw [hc] at hg
    exact hstack ▸ List.mem_cons_of_mem _ hg
  have hcalls : c'.calls = c.calls := by rw [hc]
  have hstart : ∀ id, ¬ e.Starts id := by
    rintro id (hs | ⟨made, signature, hs⟩)
    · rw [hkind] at hs
      cases hs
    · rw [hkind] at hs
      cases hs
  have hend : ∀ id ok', e.Ends id ok' → id = f.id ∧ ok' = ok := by
    intro id ok' he
    rw [Event.Ends, hkind] at he
    cases he
    exact ⟨rfl, rfl⟩
  have hf : f ∈ c.stack := hstack ▸ List.mem_cons_self
  constructor
  case ordered => exact fun w hw => h.ordered w (hholds w hw)
  case executed => exact fun w hw => (h.executed w (hholds w hw)).cons
  case fresh =>
    intro e' he' id hid
    rw [hcalls]
    rcases List.mem_cons.mp he' with rfl | he'
    · obtain hid | ⟨ok', hid⟩ := hid
      · exact absurd hid (hstart id)
      · exact (hend id ok' hid).1 ▸ h.frames f hf
    · exact h.fresh e' he' id hid
  case frames => exact fun g hg => hcalls ▸ h.frames g (hmem g hg)
  case saved =>
    intro g hg e' he' hs
    rcases List.mem_cons.mp he' with rfl | he'
    · exact absurd hs (hstart _)
    · exact h.saved g (hmem g hg) e' he' hs
  case restored =>
    intro e₀ he₀ e' he' id hs hb
    rcases List.mem_cons.mp he₀ with rfl | hold₀
    · exact absurd hs (hstart id)
    · rcases List.mem_cons.mp he' with rfl | hold
      · obtain ⟨rfl, rfl⟩ := hend id false hb
        rw [hpost, hc]
        exact (f.after_false ret _).trans (h.saved f hf e₀ hold₀ hs).symm
      · exact h.restored e₀ hold₀ e' hold id hs hb

theorem Sound.step (h : Sound tr c) (hs : Step E c e c') : Sound (e :: tr) c' := by
  cases hs with
  | sign p hc => subst hc; exact h.quiet (by simp [Event.Starts]) (by simp [Event.Ends]) rfl rfl rfl rfl
  | delegate d hc =>
    subst hc; exact h.quiet (by simp [Event.Starts]) (by simp [Event.Ends]) rfl rfl rfl rfl
  | tick dt hc => subst hc; exact h.quiet (by simp [Event.Starts]) (by simp [Event.Ends]) rfl rfl rfl rfl
  | receive amount hc =>
    subst hc; exact h.quiet (by simp [Event.Starts]) (by simp [Event.Ends]) rfl rfl rfl rfl
  | other storage balance hslot hc =>
    subst hc; exact h.quiet (by simp [Event.Starts]) (by simp [Event.Ends]) rfl rfl hslot rfl
  | enter hc =>
    subst hc
    exact h.start rfl (by simp [Event.Starts]) (by simp [Event.Ends]) rfl rfl
      (h.ordered _ (.inl rfl)) (h.executed _ (.inl rfl)).cons
  | execute d call signature storage made hcode hx hc =>
    obtain ⟨-, -, -, hnonce, -, -, rfl, rfl⟩ := (execute_eq_ok E).mp hx
    subst hc
    refine h.start rfl (by simp [Event.Starts]) (by simp [Event.Ends]) rfl rfl
      ((h.ordered _ (.inl rfl)).execute hnonce) fun m hm => ?_
    rcases List.mem_cons.mp hm with rfl | hm
    · exact ⟨_, List.mem_cons_self, _, _, rfl⟩
    · exact (h.executed _ (.inl rfl)).cons m hm
  | back f stack ok ret hstack hc => exact h.finish rfl rfl hstack hc

theorem Initial.sound (h : Initial c) : Sound [] c where
  ordered := by
    intro w hw
    rcases hw with rfl | ⟨f, hf, -⟩
    · simp [Ordered, h.journal, h.nonce]
    · rw [h.stack] at hf
      cases hf
  executed := by
    intro w hw m hm
    rcases hw with rfl | ⟨f, hf, -⟩
    · rw [h.journal] at hm
      cases hm
    · rw [h.stack] at hf
      cases hf
  fresh := fun e he => by cases he
  frames := fun f hf => by rw [h.stack] at hf; cases hf
  saved := fun f hf => by rw [h.stack] at hf; cases hf
  restored := fun e he => by cases he

theorem WalletRun.sound (h0 : Initial c₀) (h : WalletRun E c₀ tr c) : Sound tr c :=
  Run.invariant h h0.sound fun _ _ _ _ _ hI hs => hI.step hs

/-! ## Sponsored calls -/

/-- A call that starts was signed for this chain, wallet and escrow, and carries the nonce. -/
theorem execute_signed {made : Made} {signature : Bytes} (hk : Function.Injective E.keccak256)
    (hu : ∀ p : Preimage, E.tryRecover (E.keccak256 p) signature = some E.wallet →
      ∃ q ∈ c.signed, E.keccak256 q = E.keccak256 p)
    (hs : Step E c ⟨.execute id made signature, c, c'⟩ c') :
    c.code = some made.delegate ∧
      made.made = ⟨made.delegate.ESCROW, 0, encodeCall made.call⟩ ∧
      callMessage E E.chainId E.wallet made.delegate.ESCROW made.call ∈ c.signed ∧
      made.call.nonce = nonce c.wallet.storage ∧ c.timestamp ≤ made.call.deadline ∧
      c'.wallet.journal = made :: c.wallet.journal := by
  cases hs with
  | execute d call signature storage x hcode hx hc =>
    obtain ⟨-, htime, -, hnonce, hsigned, -, -, rfl⟩ := (execute_eq_ok E).mp hx
    have hrecover : E.tryRecover (E.keccak256 (callMessage E E.chainId E.wallet d.ESCROW call))
        signature = some E.wallet := by
      unfold signedByWallet at hsigned
      split at hsigned
      · rename_i signer hsome
        rw [hsome, of_decide_eq_true hsigned]
      · cases hsigned
    obtain ⟨q, hq, hhash⟩ := hu _ hrecover
    rw [hk hhash] at hq
    exact ⟨hcode, rfl, hq, hnonce, htime, by rw [hc]⟩

/-- Whatever calls whatever in whatever order: what runs as the wallet is a zero-value call of the
delegate's escrow that the wallet's key signed, the nonces of what is executed count up from zero,
and what fails leaves nothing behind. -/
theorem sponsored_once {c₀ c : Config} {tr : Trace} (hk : Function.Injective E.keccak256)
    (hu : Unforgeable E tr) (h0 : Initial c₀) (h : WalletRun E c₀ tr c) :
    (∀ e ∈ tr, ∀ (id : Nat) (made : Made) (signature : Bytes),
      e.kind = .execute id made signature →
      e.pre.code = some made.delegate ∧
      made.made = ⟨made.delegate.ESCROW, 0, encodeCall made.call⟩ ∧
      callMessage E E.chainId E.wallet made.delegate.ESCROW made.call ∈ e.pre.signed ∧
      made.call.nonce = nonce e.pre.wallet.storage ∧ e.pre.timestamp ≤ made.call.deadline ∧
      e.post.wallet.journal = made :: e.pre.wallet.journal) ∧
    (∀ (chainId chainId' : Nat) (wallet wallet' escrow escrow' : Address) (call call' : Call),
      callMessage E chainId wallet escrow call = callMessage E chainId' wallet' escrow' call' →
      chainId = chainId' ∧ wallet = wallet' ∧ escrow = escrow' ∧ call = call') ∧
    c.wallet.journal.reverse.map (·.call.nonce) = List.range (nonce c.wallet.storage) ∧
    (∀ made ∈ c.wallet.journal, ∃ e ∈ tr, ∃ (id : Nat) (signature : Bytes),
      e.kind = .execute id made signature) ∧
    ∀ e₀ ∈ tr, ∀ e ∈ tr, ∀ (id : Nat) (made : Made) (signature : Bytes),
      e₀.kind = .execute id made signature → e.kind = .back id false →
      e.post.wallet = e₀.pre.wallet := by
  have hs := WalletRun.sound h0 h
  refine ⟨fun e he id made signature hkind => ?_,
    fun _ _ _ _ _ _ _ _ heq => callMessage_injective E hk heq, ?_,
    hs.executed _ (.inl rfl), fun e₀ he₀ e he id made signature hstart hend =>
      hs.restored e₀ he₀ e he id (.inr ⟨made, signature, hstart⟩) hend⟩
  · obtain ⟨later, earlier, b, b', -, -, hstep, -⟩ := Run.split_mem h he
    have hunforged := hu e he id made signature hkind
    obtain ⟨kind, pre, post⟩ := e
    obtain rfl : kind = .execute id made signature := hkind
    obtain ⟨rfl, rfl⟩ : pre = b ∧ post = b' := by
      cases hstep
      exact ⟨rfl, rfl⟩
    exact execute_signed hk hunforged hstep
  · rw [List.map_reverse, hs.ordered _ (.inl rfl), List.reverse_reverse]

/-! ### Two signed calls, one inside the other

Nothing here depends on what the hash computes. -/

section

variable (hash : Preimage → Bytes32)

def demoDelegate : Delegate := ⟨.two, 50, by decide⟩

def demoCall (n : Nat) : Call := ⟨.submitOpen, 7, 9, n, 100⟩

def demoMessage (n : Nat) : Preimage :=
  callMessage ⟨1, 42, hash, fun _ _ => none⟩ 1 42 50 (demoCall n)

/-- The wallet 42 on chain 1, which signed two calls and wrote `[1]` under both. -/
def demoEnv : Env where
  chainId := 1
  wallet := 42
  keccak256 := hash
  tryRecover := fun digest signature =>
    if signature = [1] ∧ (digest = hash (demoMessage hash 0) ∨ digest = hash (demoMessage hash 1))
    then some 42 else none

def demoConfig (n : Nat) (journal : List Made) (stack : List Frame) (calls : Nat) : Config where
  wallet := ⟨Function.update (fun _ => 0) STORAGE_LOCATION n, 0, journal⟩
  stack := stack
  code := some demoDelegate
  timestamp := 5
  signed := [demoMessage hash 0, demoMessage hash 1]
  calls := calls

def demoMade (n : Nat) : Made := ⟨demoDelegate, demoCall n, ⟨50, 0, encodeCall (demoCall n)⟩⟩

def demoStart : Config := demoConfig hash 0 [] [] 0

def demoOuter : Config :=
  demoConfig hash 1 [demoMade 0] [⟨0, some (demoCall 0), (demoStart hash).wallet⟩] 1

def demoInner : Config := demoConfig hash 2 [demoMade 1, demoMade 0]
  [⟨1, some (demoCall 1), (demoOuter hash).wallet⟩,
    ⟨0, some (demoCall 0), (demoStart hash).wallet⟩] 2

def demoFailed : Config :=
  demoConfig hash 1 [demoMade 0] [⟨0, some (demoCall 0), (demoStart hash).wallet⟩] 2

def demoDone : Config := demoConfig hash 1 [demoMade 0] [] 2

def demoTrace : Trace :=
  [⟨.back 0 true, demoFailed hash, demoDone hash⟩,
    ⟨.back 1 false, demoInner hash, demoFailed hash⟩,
    ⟨.execute 1 (demoMade 1) [1], demoOuter hash, demoInner hash⟩,
    ⟨.execute 0 (demoMade 0) [1], demoStart hash, demoOuter hash⟩]

theorem demo_signed (n : Nat) (hn : n = 0 ∨ n = 1) : signedByWallet (demoEnv hash)
    ((demoEnv hash).keccak256 (callMessage (demoEnv hash) 1 42 50 (demoCall n))) [1] = true := by
  have hrecover : (demoEnv hash).tryRecover
      ((demoEnv hash).keccak256 (callMessage (demoEnv hash) 1 42 50 (demoCall n))) [1] = some 42 := by
    refine if_pos ⟨rfl, ?_⟩
    rcases hn with rfl | rfl
    · exact .inl rfl
    · exact .inr rfl
  simp only [signedByWallet, hrecover]
  rfl

theorem demo_run : WalletRun (demoEnv hash) (demoStart hash) (demoTrace hash) (demoDone hash) := by
  have houter : Step (demoEnv hash) (demoStart hash)
      ⟨.execute 0 (demoMade 0) [1], demoStart hash, demoOuter hash⟩ (demoOuter hash) := by
    refine .execute demoDelegate (demoCall 0) [1] _ _ rfl ((execute_eq_ok (demoEnv hash)).mpr
      ⟨.inl rfl, (by decide : 5 ≤ 100), by decide, rfl, demo_signed hash 0 (.inl rfl),
        (by decide : 0 + 1 < word), rfl, rfl⟩) ?_
    simp [demoOuter, demoStart, demoConfig, demoMade, demoDelegate, nonce]
  have hinner : Step (demoEnv hash) (demoOuter hash)
      ⟨.execute 1 (demoMade 1) [1], demoOuter hash, demoInner hash⟩ (demoInner hash) := by
    refine .execute demoDelegate (demoCall 1) [1] _ _ rfl ((execute_eq_ok (demoEnv hash)).mpr
      ⟨.inl rfl, (by decide : 5 ≤ 100), by decide, rfl, demo_signed hash 1 (.inr rfl),
        (by decide : 1 + 1 < word), rfl, rfl⟩) ?_
    simp [demoInner, demoOuter, demoConfig, demoMade, demoDelegate, nonce]
  have hfailed : Step (demoEnv hash) (demoInner hash)
      ⟨.back 1 false, demoInner hash, demoFailed hash⟩ (demoFailed hash) :=
    .back ⟨1, some (demoCall 1), (demoOuter hash).wallet⟩ _ false [] rfl rfl
  have hdone : Step (demoEnv hash) (demoFailed hash)
      ⟨.back 0 true, demoFailed hash, demoDone hash⟩ (demoDone hash) :=
    .back ⟨0, some (demoCall 0), (demoStart hash).wallet⟩ _ true [] rfl rfl
  exact .snoc (.snoc (.snoc (.snoc .nil houter) hinner) hfailed) hdone

theorem demo_unforgeable : Unforgeable (demoEnv hash) (demoTrace hash) := by
  intro e he id made signature hkind p hp
  have hsigned : e.pre.signed = [demoMessage hash 0, demoMessage hash 1] := by
    simp only [demoTrace, List.mem_cons, List.not_mem_nil, or_false] at he
    rcases he with rfl | rfl | rfl | rfl <;> rfl
  rw [hsigned]
  have hp : (if signature = [1] ∧ (hash p = hash (demoMessage hash 0) ∨
      hash p = hash (demoMessage hash 1)) then some 42 else none) = some 42 := hp
  split at hp
  · rename_i h
    rcases h.2 with h | h
    · exact ⟨demoMessage hash 0, by simp, h.symm⟩
    · exact ⟨demoMessage hash 1, by simp, h.symm⟩
  · cases hp

end

def demoHash : Preimage → Bytes32
  | .text s => Encodable.encode (0 :: s.toList.map Char.toNat)
  | .words ws => Encodable.encode (1 :: ws)
  | .typed a b => Encodable.encode [2, a, b]

theorem demoHash_injective : Function.Injective demoHash := by
  intro p q h
  cases p <;> cases q <;> simp only [demoHash] at h <;>
    have h := Encodable.encode_injective h <;> simp at h
  case text.text s t =>
    have hchars : Function.Injective Char.toNat := fun a b hab => Char.toNat_inj.mp hab
    rw [String.toList_inj.mp (List.map_injective_iff.mpr hchars h)]
  case words.words => rw [h]
  case typed.typed => rw [h.1, h.2]

theorem sponsored_once_nested :
    (demoDone demoHash).wallet.journal.reverse.map (·.call.nonce) = List.range 1 ∧
      (demoFailed demoHash).wallet = (demoOuter demoHash).wallet := by
  obtain ⟨-, -, hnonces, -, hfailed⟩ := sponsored_once demoHash_injective
    (demo_unforgeable demoHash) ⟨rfl, rfl, rfl⟩ (demo_run demoHash)
  exact ⟨hnonces, hfailed ⟨.execute 1 (demoMade 1) [1], demoOuter demoHash, demoInner demoHash⟩
    (by simp [demoTrace]) ⟨.back 1 false, demoInner demoHash, demoFailed demoHash⟩ (by simp [demoTrace]) 1 _ _ rfl rfl⟩

end BlindAgentDelegate

import BlindMarket.AgentRunner.Code
import BlindMarket.Support.RoundRobin

/-!
# Who gets the slots after a restart

The passes over the owners are rounds: each owner that still has an agent
waiting and room under its share gets one slot a pass, for its oldest agent.
-/
namespace AgentRunner

open RoundRobin

variable {α : Type} {k k' : Nat} {v : α} {map : List (Nat × α)}

theorem lookup_setKey (k : Nat) (v : α) (map : List (Nat × α)) (k' : Nat) :
    (setKey k v map).lookup k' = if k' = k then some v else map.lookup k' := by
  induction map with
  | nil =>
    by_cases h : k' = k
    · simp [setKey, h]
    · simp [setKey, h, List.lookup_cons, beq_eq_false_iff_ne.2 h]
  | cons entry rest ih =>
    obtain ⟨j, w⟩ := entry
    by_cases hj : j = k
    · subst hj
      by_cases h : k' = j
      · simp [setKey, h]
      · simp [setKey, h, List.lookup_cons, beq_eq_false_iff_ne.2 h]
    · by_cases h : k' = j
      · subst h
        simp [setKey, hj]
      · simp [setKey, hj, List.lookup_cons, beq_eq_false_iff_ne.2 h, ih]

theorem setKey_new (h : k ∉ map.map Prod.fst) : setKey k v map = map ++ [(k, v)] := by
  induction map with
  | nil => rfl
  | cons entry rest ih =>
    simp only [List.map_cons, List.mem_cons, not_or] at h
    rw [setKey, if_neg (Ne.symm h.1), ih h.2, List.cons_append]

theorem setKey_map {f : Nat → α} {ks : List Nat} (hnodup : ks.Nodup) (h : k ∈ ks) :
    setKey k v (ks.map fun j => (j, f j)) = ks.map fun j => (j, Function.update f k v j) := by
  induction ks with
  | nil => cases h
  | cons j ks ih =>
    obtain ⟨hj, hnodup⟩ := List.nodup_cons.1 hnodup
    rw [List.map_cons, List.map_cons, setKey]
    by_cases hjk : j = k
    · subst hjk
      have hrest : (ks.map fun i => (i, f i)) = ks.map fun i => (i, Function.update f j v i) := by
        refine List.map_congr_left fun i hi => ?_
        rw [Function.update_of_ne (ne_of_mem_of_not_mem hi hj)]
      simp [hrest]
    · have hmem : k ∈ ks := (List.mem_cons.1 h).resolve_left (Ne.symm hjk)
      rw [if_neg hjk, ih hnodup hmem, Function.update_of_ne hjk]

theorem lookup_map {f : Nat → α} {ks : List Nat} :
    (ks.map fun j => (j, f j)).lookup k = if k ∈ ks then some (f k) else none := by
  induction ks with
  | nil => rfl
  | cons j ks ih =>
    by_cases hjk : k = j
    · subst hjk
      simp
    · simp [List.lookup_cons, beq_eq_false_iff_ne.2 hjk, hjk, ih]

/-! ## The queues -/

variable {running : List DeployedAgent} {owners : List Owner} {lot : Owner → List DeployedAgent}

/-- The agents of one owner, oldest first. -/
def lotOf (running : List DeployedAgent) (owner : Owner) : List DeployedAgent :=
  (running.mergeSort fun x y => x.deployedAt ≤ y.deployedAt).filter (·.ownerAddress = owner)

theorem enqueued (l : List DeployedAgent) : ∃ owners : List Owner, owners.Nodup ∧
    (∀ owner, owner ∈ owners ↔ ∃ a ∈ l, a.ownerAddress = owner) ∧
      l.foldl enqueue [] = owners.map fun owner => (owner, l.filter (·.ownerAddress = owner)) := by
  induction l using List.reverseRecOn with
  | nil => exact ⟨[], List.nodup_nil, by simp, rfl⟩
  | append_singleton l a ih =>
    obtain ⟨owners, hnodup, hmem, hqueues⟩ := ih
    have hfilter : ∀ owner, (l ++ [a]).filter (·.ownerAddress = owner) =
        Function.update (fun owner => l.filter (·.ownerAddress = owner)) a.ownerAddress
          (l.filter (·.ownerAddress = a.ownerAddress) ++ [a]) owner := by
      intro owner
      by_cases h : a.ownerAddress = owner
      · subst h
        simp
      · rw [Function.update_of_ne (Ne.symm h)]
        simp [h]
    rw [List.foldl_append, hqueues, List.foldl_cons, List.foldl_nil, enqueue, lookup_map]
    by_cases h : a.ownerAddress ∈ owners
    · refine ⟨owners, hnodup, ?_, ?_⟩
      · intro owner
        rw [hmem]
        have hself := (hmem _).1 h
        constructor
        · rintro ⟨b, hb, rfl⟩
          exact ⟨b, by simp [hb], rfl⟩
        · rintro ⟨b, hb, rfl⟩
          rcases List.mem_append.1 hb with hb | hb
          · exact ⟨b, hb, rfl⟩
          · rw [List.mem_singleton.1 hb]
            exact hself
      · rw [if_pos h, Option.getD_some, setKey_map hnodup h]
        exact List.map_congr_left fun owner _ => by rw [hfilter]
    · have hnone : l.filter (·.ownerAddress = a.ownerAddress) = [] := by
        rw [List.filter_eq_nil_iff]
        intro b hb
        simpa using fun heq => h ((hmem _).2 ⟨b, hb, heq⟩)
      refine ⟨owners ++ [a.ownerAddress], ?_, ?_, ?_⟩
      · rw [List.nodup_append]
        refine ⟨hnodup, List.nodup_singleton _, ?_⟩
        intro owner howner b hb
        rw [List.mem_singleton.1 hb]
        exact ne_of_mem_of_not_mem howner h
      · intro owner
        simp only [List.mem_append, List.mem_singleton, hmem]
        constructor
        · rintro (⟨b, hb, rfl⟩ | rfl)
          · exact ⟨b, .inl hb, rfl⟩
          · exact ⟨a, .inr rfl, rfl⟩
        · rintro ⟨b, hb | rfl, rfl⟩
          · exact .inl ⟨b, hb, rfl⟩
          · exact .inr rfl
      · rw [if_neg h, Option.getD_none, setKey_new (by simpa using h), List.map_append]
        refine congrArg₂ _ (List.map_congr_left fun owner howner => ?_) ?_
        · have hne : a.ownerAddress ≠ owner := fun heq => h (heq ▸ howner)
          simp [hne]
        · rw [List.map_singleton, hfilter, Function.update_self, hnone]

theorem queuesOf_eq (running : List DeployedAgent) : ∃ owners : List Owner, owners.Nodup ∧
    (∀ owner, owner ∈ owners ↔ ∃ a ∈ running, a.ownerAddress = owner) ∧
      queuesOf running = owners.map fun owner => (owner, lotOf running owner) := by
  obtain ⟨owners, hnodup, hmem, hqueues⟩ :=
    enqueued (running.mergeSort fun x y => x.deployedAt ≤ y.deployedAt)
  refine ⟨owners, hnodup, fun owner => ?_, hqueues⟩
  simp only [hmem, List.mem_mergeSort]

/-! ## Passes -/

variable {slots : Slots} {r : Nat} {pre post : List Owner} {d : Dealing}

/-- What an owner may get: its agents, as far as its share of the pool goes. -/
def limitOf (slots : Slots) (lot : Owner → List DeployedAgent) (owner : Owner) : Nat :=
  min (lot owner).length (slots.perOwner - slots.live owner)

/-- The pass over `post` is still to come, that over `pre` is behind. -/
structure Kept (slots : Slots) (lot : Owner → List DeployedAgent) (r : Nat) (pre post : List Owner)
    (d : Dealing) : Prop where
  queues : d.queues = pre.map fun owner => (owner, (lot owner).drop (d.takenBy owner))
  level : Level (limitOf slots lot) d.takenBy r pre post
  started : ∀ owner ∈ pre ++ post,
    d.toStart.filter (·.ownerAddress = owner) = (lot owner).take (d.takenBy owner)
  total : d.toStart.length = ((pre ++ post).map d.takenBy).sum
  bound : d.toStart.length ≤ slots.available
  idle : d.progressed = false → ∀ owner ∈ pre, d.takenBy owner = limitOf slots lot owner

/-- What a pass leaves. -/
structure Passed (slots : Slots) (lot : Owner → List DeployedAgent) (r : Nat) (owners : List Owner)
    (d d' : Dealing) : Prop where
  ends : ∃ pre post, owners = pre ++ post ∧ Level (limitOf slots lot) d'.takenBy r pre post ∧
    (post ≠ [] → d'.toStart.length = slots.available) ∧
    (d'.progressed = false → ∀ owner ∈ pre, d'.takenBy owner = limitOf slots lot owner)
  queues : d'.queues = owners.map fun owner => (owner, (lot owner).drop (d'.takenBy owner))
  started : ∀ owner ∈ owners,
    d'.toStart.filter (·.ownerAddress = owner) = (lot owner).take (d'.takenBy owner)
  total : d'.toStart.length = (owners.map d'.takenBy).sum
  bound : d'.toStart.length ≤ slots.available
  moved : d'.progressed = d.progressed ∧ d'.toStart = d.toStart ∨
    d'.progressed = true ∧ d.toStart.length < d'.toStart.length

/-- A turn that takes nothing. -/
theorem Kept.skip {owner : Owner} (h : Kept slots lot r pre (owner :: post) d)
    (hnodup : (pre ++ owner :: post).Nodup) (hfull : limitOf slots lot owner ≤ d.takenBy owner) :
    Kept slots lot r (pre ++ [owner]) post
      { d with queues := d.queues ++ [(owner, (lot owner).drop (d.takenBy owner))] } where
  queues := by
    rw [List.map_append, h.queues]
    rfl
  level := by
    have hturn : turn (limitOf slots lot) d.takenBy owner = d.takenBy := if_neg (by omega)
    have hlevel := h.level.turn hnodup
    rwa [hturn] at hlevel
  started := by
    rw [List.append_assoc]
    exact h.started
  total := by
    rw [List.append_assoc]
    exact h.total
  bound := h.bound
  idle := by
    intro hprogress o ho
    rcases List.mem_append.1 ho with ho | ho
    · exact h.idle hprogress o ho
    · rw [List.mem_singleton.1 ho]
      have hwait := h.level.waiting owner List.mem_cons_self
      exact le_antisymm (hwait.trans_le (min_le_right _ _)) hfull

/-- The owner's next agent gets a slot. -/
def Dealing.take (d : Dealing) (owner : Owner) (a : DeployedAgent) (rest : List DeployedAgent) :
    Dealing where
  queues := d.queues ++ [(owner, rest)]
  taken := setKey owner (d.takenBy owner + 1) d.taken
  toStart := d.toStart ++ [a]
  progressed := true

theorem takenBy_take {owner : Owner} {a : DeployedAgent} {rest : List DeployedAgent}
    (h : d.takenBy owner < limitOf slots lot owner) :
    (d.take owner a rest).takenBy = turn (limitOf slots lot) d.takenBy owner := by
  funext o
  rw [Dealing.takenBy, Dealing.take, lookup_setKey, turn, if_pos h]
  by_cases ho : o = owner
  · subst ho
    simp
  · rw [if_neg ho, Function.update_of_ne ho]
    rfl

/-- A turn that takes the owner's oldest agent that is left. -/
theorem Kept.take {owner : Owner} {a : DeployedAgent} {rest : List DeployedAgent}
    (h : Kept slots lot r pre (owner :: post) d) (hnodup : (pre ++ owner :: post).Nodup)
    (hlot : ∀ owner, ∀ a ∈ lot owner, a.ownerAddress = owner)
    (hqueue : (lot owner).drop (d.takenBy owner) = a :: rest)
    (hroom : slots.live owner + d.takenBy owner < slots.perOwner)
    (hslot : d.toStart.length < slots.available) :
    Kept slots lot r (pre ++ [owner]) post (d.take owner a rest) := by
  obtain ⟨hnew, -⟩ := List.nodup_cons.1 (List.nodup_middle.1 hnodup)
  have hlen : d.takenBy owner < (lot owner).length := by
    by_contra hge
    rw [List.drop_eq_nil_of_le (not_lt.1 hge)] at hqueue
    cases hqueue
  have hlt : d.takenBy owner < limitOf slots lot owner := by
    unfold limitOf
    omega
  have ha : a ∈ lot owner := List.mem_of_mem_drop (hqueue ▸ List.mem_cons_self)
  have htaken : (d.take owner a rest).takenBy = turn (limitOf slots lot) d.takenBy owner :=
    takenBy_take hlt
  have hself : turn (limitOf slots lot) d.takenBy owner owner = d.takenBy owner + 1 := by
    rw [turn, if_pos hlt, Function.update_self]
  have hother : ∀ o ∈ pre ++ post, turn (limitOf slots lot) d.takenBy owner o = d.takenBy o :=
    fun o ho => turn_other _ _ (ne_of_mem_of_not_mem ho hnew)
  have hpost : (pre ++ [owner]) ++ post = pre ++ owner :: post := by simp
  constructor
  · rw [htaken, List.map_append, Dealing.take, h.queues]
    refine congrArg₂ _ (List.map_congr_left fun o ho => ?_) ?_
    · rw [hother o (List.mem_append_left _ ho)]
    · rw [List.map_singleton, hself, ← List.drop_drop, hqueue]
      rfl
  · rw [htaken]
    exact h.level.turn hnodup
  · intro o ho
    rw [hpost] at ho
    rw [htaken, Dealing.take, List.filter_append, h.started o ho]
    by_cases hne : o = owner
    · subst hne
      have hget : (lot o)[d.takenBy o]? = some a := by
        rw [← List.head?_drop, hqueue]
        rfl
      rw [hself, List.filter_cons, if_pos (by simpa using hlot _ _ ha), List.filter_nil,
        List.take_add_one, hget]
      rfl
    · have hmem : o ∈ pre ++ post := by
        simp only [List.mem_append, List.mem_cons] at ho ⊢
        tauto
      rw [hother o hmem, List.filter_cons, if_neg (by simpa [hlot _ _ ha] using Ne.symm hne),
        List.filter_nil, List.append_nil]
  · have htotal := h.total
    have hsum : ∀ l : List Owner, owner ∉ l →
        (l.map (turn (limitOf slots lot) d.takenBy owner)).sum = (l.map d.takenBy).sum :=
      fun l hl => congrArg List.sum (List.map_congr_left fun o ho =>
        turn_other _ _ (ne_of_mem_of_not_mem ho hl))
    simp only [List.mem_append, not_or] at hnew
    rw [htaken, hpost, Dealing.take]
    simp only [List.map_append, List.map_cons, List.sum_append, List.sum_cons, List.length_append,
      List.length_singleton, hsum pre hnew.1, hsum post hnew.2, hself] at htotal ⊢
    omega
  · simp only [Dealing.take, List.length_append, List.length_singleton]
    omega
  · intro hprogress
    cases hprogress

/-- What a turn and the rest of the pass leave, the pass leaves. -/
theorem Passed.after {d₁ d' : Dealing} {owners : List Owner} (h : Passed slots lot r owners d₁ d')
    (hturn : d₁.progressed = d.progressed ∧ d₁.toStart = d.toStart ∨
      d₁.progressed = true ∧ d.toStart.length < d₁.toStart.length) :
    Passed slots lot r owners d d' := by
  refine { h with moved := ?_ }
  rcases hturn with ⟨hprogress, hstart⟩ | ⟨hprogress, hlt⟩
  · rw [← hprogress, ← hstart]
    exact h.moved
  · rcases h.moved with ⟨hprogress', hstart⟩ | ⟨hprogress', hlt'⟩
    · exact .inr ⟨hprogress'.trans hprogress, hstart ▸ hlt⟩
    · exact .inr ⟨hprogress', hlt.trans hlt'⟩

/-- By induction on the owners to come. -/
theorem Kept.pass (h : Kept slots lot r pre post d) (hnodup : (pre ++ post).Nodup)
    (hlot : ∀ owner, ∀ a ∈ lot owner, a.ownerAddress = owner) :
    Passed slots lot r (pre ++ post) d
      (pass slots (post.map fun owner => (owner, (lot owner).drop (d.takenBy owner))) d) := by
  induction post generalizing pre d with
  | nil =>
    refine ⟨⟨pre, [], rfl, h.level, ?_, h.idle⟩, ?_, h.started, h.total, h.bound, .inl ⟨rfl, rfl⟩⟩
    · intro hne
      exact absurd rfl hne
    · rw [List.append_nil]
      exact h.queues
  | cons owner post ih =>
    have hpost : (pre ++ [owner]) ++ post = pre ++ owner :: post := by simp
    have hskip : limitOf slots lot owner ≤ d.takenBy owner →
        Passed slots lot r (pre ++ owner :: post) d (AgentRunner.pass slots
          (post.map fun owner => (owner, (lot owner).drop (d.takenBy owner)))
          { d with queues := d.queues ++ [(owner, (lot owner).drop (d.takenBy owner))] }) := by
      intro hfull
      rw [← hpost]
      exact (ih (h.skip hnodup hfull) (hpost ▸ hnodup)).after (.inl ⟨rfl, rfl⟩)
    rw [List.map_cons, AgentRunner.pass.eq_def]
    simp only
    split
    · next hgone =>
      refine ⟨⟨pre, owner :: post, rfl, h.level, fun _ => le_antisymm h.bound hgone, h.idle⟩, ?_,
        h.started, h.total, h.bound, .inl ⟨rfl, rfl⟩⟩
      rw [h.queues, List.map_append, List.map_cons]
      rfl
    · next hslot =>
      split
      · next hqueue =>
        have hfull : limitOf slots lot owner ≤ d.takenBy owner :=
          (min_le_left _ _).trans (List.drop_eq_nil_iff.1 hqueue)
        rw [← hqueue]
        exact hskip hfull
      · next a rest hqueue =>
        split
        · next hheld =>
          have hfull : limitOf slots lot owner ≤ d.takenBy owner := by
            unfold limitOf
            omega
          exact hskip hfull
        · next hroom =>
          have htake := h.take hnodup hlot hqueue (not_le.1 hroom) (not_le.1 hslot)
          have hsame : (post.map fun o => (o, (lot o).drop ((d.take owner a rest).takenBy o))) =
              post.map fun o => (o, (lot o).drop (d.takenBy o)) := by
            refine List.map_congr_left fun o ho => ?_
            have hne : o ≠ owner := by
              rintro rfl
              exact (List.nodup_cons.1 (List.nodup_middle.1 hnodup)).1 (List.mem_append_right _ ho)
            rw [Dealing.takenBy, Dealing.take, lookup_setKey, if_neg hne]
            rfl
          have hrest := (ih htake (hpost ▸ hnodup)).after (d := d)
            (.inr ⟨rfl, by simp [Dealing.take]⟩)
          rw [hpost, hsame] at hrest
          exact hrest

/-! ## All passes -/

/-- The shares when the dealing is over. -/
structure Dealt (slots : Slots) (lot : Owner → List DeployedAgent) (owners : List Owner)
    (d : Dealing) : Prop where
  leveled : Leveled (limitOf slots lot) d.takenBy owners
  started : ∀ owner ∈ owners,
    d.toStart.filter (·.ownerAddress = owner) = (lot owner).take (d.takenBy owner)
  total : d.toStart.length = (owners.map d.takenBy).sum
  bound : d.toStart.length ≤ slots.available
  ends : d.toStart.length = slots.available ∨
    ∀ owner ∈ owners, d.takenBy owner = limitOf slots lot owner

/-- Between two passes, with `d.progressed` what the last one did. -/
structure Between (slots : Slots) (lot : Owner → List DeployedAgent) (owners : List Owner)
    (d : Dealing) : Prop where
  queues : d.queues = owners.map fun owner => (owner, (lot owner).drop (d.takenBy owner))
  level : d.toStart.length = slots.available ∨
    ∃ r, Level (limitOf slots lot) d.takenBy r [] owners
  leveled : Leveled (limitOf slots lot) d.takenBy owners
  started : ∀ owner ∈ owners,
    d.toStart.filter (·.ownerAddress = owner) = (lot owner).take (d.takenBy owner)
  total : d.toStart.length = (owners.map d.takenBy).sum
  bound : d.toStart.length ≤ slots.available
  idle : d.progressed = false → d.toStart.length = slots.available ∨
    ∀ owner ∈ owners, d.takenBy owner = limitOf slots lot owner

theorem Passed.between {d' : Dealing} {owners : List Owner}
    (h : Passed slots lot r owners d d') : Between slots lot owners d' := by
  obtain ⟨pre, post, rfl, hlevel, hgone, hidle⟩ := h.ends
  refine ⟨h.queues, ?_, ⟨r, pre, post, rfl, hlevel⟩, h.started, h.total, h.bound, ?_⟩
  · by_cases hpost : post = []
    · subst hpost
      rw [List.append_nil]
      exact .inr ⟨r + 1, hlevel.round⟩
    · exact .inl (hgone hpost)
  · intro hprogress
    by_cases hpost : post = []
    · subst hpost
      rw [List.append_nil]
      exact .inr (hidle hprogress)
    · exact .inl (hgone hpost)

/-- The total that the limits allow is reached before the fuel is gone. -/
theorem Between.deal {owners : List Owner} (h : Between slots lot owners d) (hnodup : owners.Nodup)
    (hlot : ∀ owner, ∀ a ∈ lot owner, a.ownerAddress = owner) (fuel : Nat)
    (hfuel : (owners.map (limitOf slots lot)).sum < fuel + d.toStart.length) :
    Dealt slots lot owners (deal slots fuel d) := by
  have hle : ∀ d : Dealing, Between slots lot owners d →
      d.toStart.length ≤ (owners.map (limitOf slots lot)).sum := by
    intro d hd
    rw [hd.total]
    exact List.sum_le_sum fun owner howner => hd.leveled.le_limit howner
  induction fuel generalizing d with
  | zero =>
    have := hle d h
    omega
  | succ fuel ih =>
    rw [AgentRunner.deal]
    split
    · next hgo =>
      simp only [Bool.and_eq_true, decide_eq_true_eq] at hgo
      obtain ⟨r, hlevel⟩ := h.level.resolve_left (by omega)
      have hkept : Kept slots lot r [] owners { d with queues := [], progressed := false } :=
        ⟨rfl, hlevel, h.started, h.total, h.bound, by simp⟩
      obtain ⟨d', hd'⟩ : ∃ d', pass slots d.queues { d with queues := [], progressed := false } = d' :=
        ⟨_, rfl⟩
      have hpass : Passed slots lot r owners { d with queues := [], progressed := false } d' := by
        rw [← hd', h.queues]
        exact hkept.pass hnodup hlot
      have hbetween := hpass.between
      rw [hd']
      rcases hpass.moved with ⟨hstill, hsame⟩ | ⟨-, hmore⟩
      · -- Nothing was taken, and the flag ends the loop.
        have hend : AgentRunner.deal slots fuel d' = d' := by
          cases fuel with
          | zero => rfl
          | succ fuel => rw [AgentRunner.deal, if_neg (by simp [hstill])]
        rw [hend]
        exact ⟨hbetween.leveled, hbetween.started, hbetween.total, hbetween.bound,
          hbetween.idle hstill⟩
      · refine ih hbetween ?_
        have hmore : d.toStart.length < d'.toStart.length := hmore
        omega
    · next hstop =>
      refine ⟨h.leveled, h.started, h.total, h.bound, ?_⟩
      simp only [Bool.and_eq_true, decide_eq_true_eq, not_and, not_lt] at hstop
      cases hprogress : d.progressed with
      | false => exact h.idle hprogress
      | true => exact .inl (le_antisymm h.bound (hstop hprogress))

/-! ## What is restarted -/

/-- How many of `agents` are an owner's. -/
def countOf (agents : List DeployedAgent) (owner : Owner) : Nat :=
  agents.countP (·.ownerAddress = owner)

theorem countOf_eq (agents : List DeployedAgent) (owner : Owner) :
    countOf agents owner = (agents.filter (·.ownerAddress = owner)).length := by
  rw [countOf, List.countP_eq_length_filter]

theorem length_lotOf (running : List DeployedAgent) (owner : Owner) :
    (lotOf running owner).length = countOf running owner := by
  rw [lotOf, ← List.countP_eq_length_filter, countOf]
  exact (List.mergeSort_perm _ _).countP_eq _

theorem sum_countOf_le (hnodup : owners.Nodup) (agents : List DeployedAgent) :
    (owners.map (countOf agents)).sum ≤ agents.length := by
  induction agents with
  | nil =>
    have hzero : owners.map (countOf []) = owners.map fun _ => 0 := rfl
    simp [hzero]
  | cons a agents ih =>
    have hstep : ∀ l : List Owner, l.Nodup → (l.map (countOf (a :: agents))).sum ≤
        (l.map (countOf agents)).sum + 1 := by
      intro l hl
      induction l with
      | nil => simp
      | cons owner l ihl =>
        obtain ⟨hnew, hl⟩ := List.nodup_cons.1 hl
        have hrest := ihl hl
        simp only [List.map_cons, List.sum_cons]
        by_cases h : a.ownerAddress = owner
        · have hsame : l.map (countOf (a :: agents)) = l.map (countOf agents) := by
            refine List.map_congr_left fun o ho => ?_
            have hne : a.ownerAddress ≠ o := by
              rw [h]
              exact (ne_of_mem_of_not_mem ho hnew).symm
            simp [countOf, hne]
          rw [hsame]
          simp only [countOf, List.countP_cons, h, decide_true, if_true]
          omega
        · simp only [countOf, List.countP_cons, h, decide_false, Bool.false_eq_true,
            if_false] at hrest ⊢
          omega
    have hcons := hstep owners hnodup
    rw [List.length_cons]
    omega

theorem lotOf_owner {owner : Owner} {a : DeployedAgent} (ha : a ∈ lotOf running owner) :
    a.ownerAddress = owner := by
  simpa using (List.mem_filter.1 ha).2

/-- Before the first pass. -/
theorem Between.start (hqueues : queuesOf running = owners.map fun owner => (owner, lotOf running owner)) :
    Between slots (lotOf running) owners { queues := queuesOf running } := by
  refine ⟨?_, .inr ⟨0, Level.start owners⟩, ⟨0, [], owners, rfl, Level.start owners⟩, ?_, ?_,
    Nat.zero_le _, ?_⟩
  · rw [hqueues]
    rfl
  · intro owner _
    rfl
  · have hzero : owners.map (Dealing.takenBy { queues := queuesOf running }) =
        owners.map fun _ => 0 := rfl
    simp [hzero]
  · intro hprogress
    cases hprogress

theorem sum_limitOf_le (hnodup : owners.Nodup) :
    (owners.map (limitOf slots (lotOf running))).sum ≤ running.length := by
  refine le_trans ?_ (sum_countOf_le hnodup running)
  exact List.sum_le_sum fun owner _ => (min_le_left _ _).trans_eq (length_lotOf running owner)

/-- What was taken for an owner is what is started. -/
theorem Dealt.countOf {owner : Owner} (h : Dealt slots lot owners d) (howner : owner ∈ owners) :
    countOf d.toStart owner = d.takenBy owner := by
  rw [countOf_eq, h.started owner howner, List.length_take]
  exact min_eq_left ((h.leveled.le_limit howner).trans (min_le_left _ _))

theorem Dealt.sum_countOf (h : Dealt slots lot owners d) :
    (owners.map (AgentRunner.countOf d.toStart)).sum = d.toStart.length := by
  rw [h.total]
  exact congrArg List.sum (List.map_congr_left fun owner howner => h.countOf howner)

/-- An owner with no agent waiting gets nothing. -/
theorem Dealt.countOf_eq_zero {owner : Owner} (h : Dealt slots lot owners d) (hnodup : owners.Nodup)
    (howner : owner ∉ owners) : AgentRunner.countOf d.toStart owner = 0 := by
  have hmore := sum_countOf_le (List.nodup_cons.2 ⟨howner, hnodup⟩) d.toStart
  rw [List.map_cons, List.sum_cons, h.sum_countOf] at hmore
  omega

theorem Dealt.leveled_countOf (h : Dealt slots lot owners d) :
    Leveled (limitOf slots lot) (AgentRunner.countOf d.toStart) owners := by
  obtain ⟨n, pre, post, heq, hlevel⟩ := h.leveled
  refine ⟨n, pre, post, heq, ?_, ?_⟩
  · intro owner howner
    rw [h.countOf (heq ▸ List.mem_append_left _ howner), hlevel.served owner howner]
  · intro owner howner
    rw [h.countOf (heq ▸ List.mem_append_right _ howner), hlevel.waiting owner howner]

variable (config : Config) (r : Runner) (agents : List DeployedAgent)

/-- How many of an owner's agents may be restarted: those that wait, within the owner's share. -/
def Runner.roomFor (owner : Owner) : Nat :=
  min (countOf (r.plan config agents).1 owner)
    (config.maxAgentsPerOwner - r.liveWorkersFor owner)

/-- What `reconcileAgents` makes of the free slots. -/
structure FairShares : Prop where
  /-- An owner's oldest agents come first. -/
  oldest : ∀ owner, (r.plan config agents).2.filter (·.ownerAddress = owner) =
    (lotOf (r.plan config agents).1 owner).take (countOf (r.plan config agents).2 owner)
  within : ∀ owner, countOf (r.plan config agents).2 owner ≤ r.roomFor config agents owner
  bound : (r.plan config agents).2.length ≤ config.maxConcurrentAgents - r.processes.length
  /-- No slot is left while an owner could use it. -/
  used : (r.plan config agents).2.length = config.maxConcurrentAgents - r.processes.length ∨
    ∀ owner, countOf (r.plan config agents).2 owner = r.roomFor config agents owner
  /-- Whoever could use one more is at most one behind. -/
  near : ∀ owner owner', countOf (r.plan config agents).2 owner < r.roomFor config agents owner →
    countOf (r.plan config agents).2 owner' ≤ countOf (r.plan config agents).2 owner + 1
  /-- Any other choice that gives an owner more gives less to one who then has no more than that
  owner has now. -/
  best : ∀ other : List DeployedAgent,
    other.length ≤ config.maxConcurrentAgents - r.processes.length →
    (∀ owner, countOf other owner ≤ r.roomFor config agents owner) →
    ∀ owner, countOf (r.plan config agents).2 owner < countOf other owner →
      ∃ owner', countOf other owner' < countOf (r.plan config agents).2 owner' ∧
        countOf other owner' ≤ countOf (r.plan config agents).2 owner

end AgentRunner

import BlindMarket.HashClaims.Protection

/-!
# A failed batch leaves no hash claimed

A batch that fails releases what it took fresh. When its batches have all
failed, a poster is left with no claim they had not had before, unless one of
them took over the claim of another, or the answer of a claim got lost.
-/
namespace HashClaims

open Async Prog Runs

variable {cfg : Config} {start s s' : State} {tr earlier later : List Ev} {e e' : Ev}
  {pool : Pool Ans Code Answer Call State} {t : Call} {a : Answers Ans Code} {h : Hash}
  {poster : Address} {cl : Claim}

/-- Every request is a batch of the poster, and has ended with an error. -/
structure AllFailed (tr : List Ev) (poster : Address) : Prop where
  batch : ∀ e ∈ tr, ∀ t, e.label.tag? = some t → ∃ body, t.op = .createTasks poster body
  failed : ∀ e ∈ tr, ∀ t, e.label.tag? = some t →
    ∃ e' ∈ tr, ∃ code, e'.label = .finished t (.error code)

/-- Every release command succeeded. -/
def AllReleasesAnswered (tr : List Ev) : Prop :=
  ∀ e ∈ tr, ∀ t h poster token code,
    e.label ≠ .ran t (.releaseTaskHashClaim h poster token) (.error code)

/-- A claim finds none of its poster's, and is answered if it is written. -/
structure TakesFresh (e : Ev) : Prop where
  unshared : ∀ t h poster token r, e.label = .ran t (.claimTaskHash h poster token) r →
    ∀ cl, e.pre.claim? h = some cl → cl.poster ≠ poster
  heard : ∀ t h poster code, e.label = .ran t (.claimTaskHash h poster t.id) (.error code) →
    ¬ Takes e t h poster

/-- A claim written under the condition was answered to be fresh. -/
theorem fresh_of_takes (hrun : PoolRun (backend cfg) ⟨start, []⟩ tr pool) (he : e ∈ tr)
    (hfresh : TakesFresh e) (htakes : Takes e t h poster) :
    ∃ v, e.label = .ran t (.claimTaskHash h poster t.id) (.ok v) ∧ v.mine = true ∧
      v.fresh = true := by
  obtain ⟨⟨r, hlabel⟩, hpost⟩ := id htakes
  obtain ⟨x, hx⟩ := backend_exec hrun he hlabel
  cases r with
  | error code => exact absurd htakes (hfresh.heard _ _ _ _ hlabel)
  | ok v =>
    refine ⟨v, hlabel, ?_⟩
    have hx := respond_ok hx
    simp only [effect, State.claimTaskHash] at hx
    split at hx
    · next cl hcl =>
      have hother := hfresh.unshared _ _ _ _ _ hlabel cl hcl
      rw [if_pos hother] at hx
      have hsame : e.pre = e.post := congrArg Prod.snd hx
      rw [← hsame, (claim?_some hcl).1] at hpost
      rw [Option.some.inj hpost] at hother
      exact absurd rfl hother
    · rw [← Except.ok.inj (congrArg Prod.fst hx)]
      exact ⟨rfl, rfl⟩

/-- A claim that was there after a step that wrote none was there before it. -/
theorem claim?_still (hclaims : s'.claims h = s.claims h) (hnow : s.now ≤ s'.now)
    (hcl : s'.claim? h = some cl) : s.claim? h = some cl := by
  obtain ⟨hcl, halive⟩ := claim?_some hcl
  exact claim?_of_claims (hclaims ▸ hcl) (by omega)

/-- What a request has released is not claimed under its token any more. -/
theorem released_stays (hrun : PoolRun (backend cfg) ⟨start, []⟩ tr pool) (he : e ∈ tr) {v : Bool}
    (hlabel : e.label = .ran t (.releaseTaskHashClaim h poster t.id) (.ok v))
    (hcl : pool.state.claim? h = some cl) (hposter : cl.poster = poster) :
    cl.token ≠ some t.id := by
  suffices hall : ∀ e ∈ tr, ∀ t h poster v,
      e.label = .ran t (.releaseTaskHashClaim h poster t.id) (.ok v) → ∀ cl,
      pool.state.claim? h = some cl → cl.poster = poster → cl.token ≠ some t.id from
    hall e he t h poster v hlabel cl hcl hposter
  clear he hlabel hcl hposter
  refine Run.invariant (I := fun tr (pool : Pool Ans Code Answer Call State) => ∀ e ∈ tr,
    ∀ t h poster v, e.label = .ran t (.releaseTaskHashClaim h poster t.id) (.ok v) → ∀ cl,
    pool.state.claim? h = some cl → cl.poster = poster → cl.token ≠ some t.id) hrun (by simp) ?_
  intro tr b e c hpre hinv hs e₁ he₁ t h poster v hrelease cl hcl hposter
  obtain ⟨hprestate, hpoststate⟩ := hs.states
  have hsnoc := hpre.snoc hs
  obtain rfl | hold := List.mem_cons.mp he₁
  · obtain ⟨x, hx⟩ := backend_exec hsnoc he₁ hrelease
    rw [← hpoststate] at hcl
    exact released_gone hx hcl hposter
  · have hm := backend_move hpre hs
    have hwas : b.state.claim? h = some cl → cl.token ≠ some t.id := fun hcl =>
      hinv e₁ hold t h poster v hrelease cl hcl hposter
    generalize b.state = s at hm hwas
    generalize c.state = s' at hm hcl
    cases hm with
    | ran t' a cmd r hknown hasks hx =>
      obtain ⟨x, hx⟩ := hx
      have hnow := (respond_keeps hx).1
      cases respond_does hx with
      | still hclaims => exact hwas (claim?_still (congrFun hclaims h) hnow.ge hcl)
      | take h' poster' token hfree hclaims =>
        obtain ⟨-, rfl⟩ := hasks
        by_cases heq : h = h'
        · subst heq
          have hnew := (claim?_some hcl).1
          rw [hclaims, Function.update_self] at hnew
          obtain rfl := Option.some.inj hnew
          intro htoken
          obtain rfl : t' = t := backend_numbered.tag_unique hsnoc he₁ List.mem_cons_self
            (by rw [hrelease]; rfl) rfl (Option.some.inj htoken)
          -- Its release came on its claim, and it claims but once.
          obtain ⟨later', earlier', rfl⟩ := List.append_of_mem hold
          obtain ⟨a', hheard, -, -, v', hmem, -⟩ := told_ran backend_numbered (P := Asks) (Q := Ends)
            hpre (fun _ _ _ _ _ hx => hx.2.1 ▸ told_prog) hrelease
          obtain ⟨e₂, he₂, hclaim⟩ := hheard.mem.mp hmem
          exact once_of_run (P := fun _ => OnceFor h) backend_numbered
            (show PoolRun _ _ ([] ++ _ :: _) _ from hsnoc) (fun _ _ _ _ _ hx => hx.2.1 ▸ once_prog)
            rfl (by simp [he₂]) hclaim rfl rfl
        · exact hwas (claim?_still (by rw [hclaims, Function.update_of_ne heq]) hnow.ge hcl)
      | drop h' poster' token cl' hcl' hposter' htoken' hclaims =>
        by_cases heq : h = h'
        · subst heq
          have hnone := (claim?_some hcl).1
          rw [hclaims, Function.update_self] at hnone
          cases hnone
        · exact hwas (claim?_still (by rw [hclaims, Function.update_of_ne heq]) hnow.ge hcl)
    | started t' p tags hfresh hx =>
      obtain ⟨-, -, rfl⟩ := hx
      exact hwas (claim?_still rfl le_rfl hcl)
    | finished t' a r ha hends => exact hwas hcl
    | env hx => exact hwas (claim?_still (congrFun hx.keeps.1 h) hx.keeps.2.1 hcl)
    | died t' a ha hx =>
      obtain rfl : s' = s := hx
      exact hwas hcl

/-- When every batch of a poster has failed and every release succeeded, in a run in which claims
are taken fresh, a hash that was unclaimed is unclaimed. -/
theorem batches_freed (hrun : PoolRun (backend cfg) ⟨start, []⟩ tr pool)
    (hfailed : AllFailed tr poster) (hanswered : AllReleasesAnswered tr)
    (hfresh : ∀ e ∈ tr, TakesFresh e) (hfree : start.claim? h = none) :
    pool.state.claim? h = none := by
  cases hcl : pool.state.claim? h with
  | none => rfl
  | some cl =>
    exfalso
    have hinv := inv_run hrun
    obtain ⟨hclaims, halive⟩ := claim?_some hcl
    obtain hold | ⟨e, he, t, htakes, hpost⟩ := hinv.writer h cl hclaims
    · rw [claim?_of_claims hold (by have := hinv.since; omega)] at hfree
      cases hfree
    · obtain ⟨v, hlabel, hmine, hv⟩ := fresh_of_takes hrun he (hfresh e he) htakes
      have htag : e.label.tag? = some t := by rw [hlabel]; rfl
      obtain ⟨body, hop⟩ := hfailed.batch e he t htag
      obtain ⟨e', he', code, hend⟩ := hfailed.failed e he t htag
      obtain ⟨later, earlier, rfl⟩ := List.append_of_mem he'
      obtain ⟨a, b, hrun', -, hknown, -, hreleased⟩ := finished_ends hrun hend
      have hbefore : e ∈ earlier := by
        obtain hmem | hmem := List.mem_append.mp he
        · exact absurd hlabel (backend_numbered.finished_last hrun hend hmem _ _)
        · obtain rfl | hmem := List.mem_cons.mp hmem
          · rw [hlabel] at hend
            cases hend
          · exact hmem
      have hknows := backend_numbered.known_all hrun' hknown hbefore hlabel
      obtain ⟨r, hr⟩ := hreleased poster body hop h cl.poster ⟨v, hknows, hmine, hv⟩
      obtain ⟨e'', he'', hlabel''⟩ := known_mem hknown hr
      have hmem'' : e'' ∈ later ++ e' :: earlier := by simp [he'']
      cases r with
      | error code => exact hanswered e'' hmem'' _ _ _ _ _ hlabel''
      | ok v' =>
        refine released_stays hrun hmem'' hlabel'' hcl rfl ?_
        have hnew := htakes.2
        rw [hpost] at hnew
        rw [Option.some.inj hnew]
        rfl

/-! ## Two batches on one hash -/

def batch (id : Nat) : Call := ⟨id, .createTasks 1
  (some ⟨7, [some { taskHash := 5, amount := some 10, duration := some 7200 }]⟩)⟩

/-- Up to its claim. -/
def upToClaim : List (Cue Call Turn Env) := List.replicate 10 (.turn 0 {})

/-- Both have claimed the hash when their builds fail: the second releases nothing, and the first
finds the token of the second. -/
def bothFail : List (Cue Call Turn Env) :=
  ([.enter (batch 0)] : Cues) ++ upToClaim ++ ([.enter (batch 1)] : Cues) ++ upToClaim ++
    ([.turn 0 { reply := .failed }, .leave 0, .turn 0 { reply := .failed }, .turn 0 {},
      .leave 0] : Cues)

/-- One batch alone fails, and releases its claim. -/
def oneFails : List (Cue Call Turn Env) :=
  ([.enter (batch 0)] : Cues) ++ upToClaim ++
    ([.turn 0 { reply := .failed }, .turn 0 {}, .leave 0] : Cues)

theorem bothFail_plays : ((stage demoConfig).play bothFail ⟨{}, []⟩).isSome = true := by decide

theorem oneFails_plays : ((stage demoConfig).play oneFails ⟨{}, []⟩).isSome = true := by decide

/-- A test of what is asked of the requests and of the releases. -/
def allFailed (tr : List Ev) : Bool :=
  tr.all fun e =>
    (match e.label.tag? with
      | some t => decide (t.op = (batch 0).op) && tr.any fun e' =>
        match e'.label with
        | .finished t' (.error _) => decide (t' = t)
        | _ => false
      | none => true) &&
    match e.label with
    | .ran _ (.releaseTaskHashClaim _ _ _) (.error _) => false
    | _ => true

theorem allFailed_allFailed (htest : allFailed tr = true) :
    AllFailed tr 1 ∧ AllReleasesAnswered tr := by
  simp only [allFailed, List.all_eq_true, Bool.and_eq_true] at htest
  refine ⟨⟨fun e he t htag => ?_, fun e he t htag => ?_⟩, fun e he t h poster token code hlabel => ?_⟩
  · have hat := (htest e he).1
    simp only [htag, Bool.and_eq_true, decide_eq_true_eq] at hat
    exact ⟨_, hat.1⟩
  · have hat := (htest e he).1
    simp only [htag, Bool.and_eq_true, List.any_eq_true] at hat
    obtain ⟨-, e', he', hends⟩ := hat
    split at hends
    · next t' code hlabel =>
      simp only [decide_eq_true_eq] at hends
      subst hends
      exact ⟨e', he', code, hlabel⟩
    · cases hends
  · have hat := (htest e he).2
    simp [hlabel] at hat

theorem bothFail_failed : allFailed (((stage demoConfig).play bothFail ⟨{}, []⟩).get
    bothFail_plays).1 = true := by decide

theorem bothFail_claimed : ((((stage demoConfig).play bothFail ⟨{}, []⟩).get
    bothFail_plays).2.state.claim? 5).isSome = true := by decide

/-- Two batches that fail, each on its own, leave their hash claimed. -/
theorem batches_freed_fails : ∃ tr pool, PoolRun (backend demoConfig) ⟨{}, []⟩ tr pool ∧
    AllFailed tr 1 ∧ AllReleasesAnswered tr ∧ ({} : State).claim? 5 = none ∧
    (pool.state.claim? 5).isSome = true := by
  obtain ⟨hfailed, hanswered⟩ := allFailed_allFailed bothFail_failed
  exact ⟨_, _, Stage.play_get bothFail_plays, hfailed, hanswered, rfl, bothFail_claimed⟩

/-- A test of the condition. -/
def takesFresh (e : Ev) : Bool :=
  match e.label with
  | .ran _ (.claimTaskHash h poster _) r =>
    ((e.pre.claim? h).all fun cl => cl.poster ≠ poster) && r.isOk
  | _ => true

theorem takesFresh_takesFresh (htest : takesFresh e = true) : TakesFresh e where
  unshared t h poster token r hlabel cl hcl := by
    simp only [takesFresh, hlabel, Bool.and_eq_true] at htest
    simpa [hcl] using htest.1
  heard t h poster code hlabel := by simp [takesFresh, hlabel, Except.isOk, Except.toBool] at htest

theorem oneFails_failed : allFailed (((stage demoConfig).play oneFails ⟨{}, []⟩).get
    oneFails_plays).1 = true := by decide

theorem oneFails_fresh : (((stage demoConfig).play oneFails ⟨{}, []⟩).get
    oneFails_plays).1.all takesFresh = true := by decide

theorem batches_freed_oneFails : (((stage demoConfig).play oneFails ⟨{}, []⟩).get
    oneFails_plays).2.state.claim? 5 = none :=
  batches_freed (Stage.play_get oneFails_plays) (allFailed_allFailed oneFails_failed).1
    (allFailed_allFailed oneFails_failed).2
    (fun e he => takesFresh_takesFresh (List.all_eq_true.mp oneFails_fresh e he)) rfl

end HashClaims

import BlindMarket.Waitlist.Line
import BlindMarket.Support.History

/-!
# Tokens and their rows

A row keeps for good what an insert gave it. So an email is signed up once, its
token is handed out once, and whoever presents the token finds the same row.
-/
namespace Waitlist

open Async Prog Runs

variable {H : Type} {db db' : Table H} {s s' : Signup H} {c : Cmd H} {t t₁ t₂ : Call}
  {a : Answers (Ans (H := H)) Failure} {hashToken : String → H} {id : Nat} {token : String}
  {standing : WaitlistStanding} {tokenHash : H}

/-! ## What each request has been told -/

/-- An answer that named a row. -/
def Found (a : Answers (Ans (H := H)) Failure) (id : Nat) : Prop :=
  (∃ new, ⟨.insert new, .ok (some id)⟩ ∈ a) ∨ (∃ email, ⟨.idByEmail email, .ok (some id)⟩ ∈ a) ∨
    (∃ tokenHash, ⟨.idByToken tokenHash, .ok (some id)⟩ ∈ a) ∨
    ∃ tokenHash task points, ⟨.addTask tokenHash task points, .ok (some id)⟩ ∈ a

def Request.email? : Request → Option String
  | .join email _ _ _ => some email
  | _ => none

def Request.token? : Request → Option String
  | .me token | .addTask token _ => some token
  | _ => none

/-- A look for the row of a token, and its answer. -/
def Sought (hashToken : String → H) (req : Request) (a : Answers (Ans (H := H)) Failure)
    (r : Except Failure (Option Nat)) : Prop :=
  ∃ token, req.token? = some token ∧ (⟨.idByToken (hashToken token), r⟩ ∈ a ∨
    ∃ task points, ⟨.addTask (hashToken token) task points, r⟩ ∈ a)

/-- What a request asks for, given its answers. -/
def Asks (hashToken : String → H) (t : Call) (a : Answers (Ans (H := H)) Failure) :
    Cmd H → Prop
  | .insert new => t.req.email? = some new.email ∧
      ∃ token, ⟨.newToken, .ok token⟩ ∈ a ∧ new.tokenHash = hashToken token
  | .idByEmail email => ∃ new, new.email = email ∧ ⟨.insert new, .ok none⟩ ∈ a
  | .standing id => Found a id
  | _ => True

/-- What a request has been told as it ends. -/
def Outcome (hashToken : String → H) (t : Call) (a : Answers (Ans (H := H)) Failure) :
    Except Failure Response → Prop
  | .ok (.created token standing) => ∃ new id, t.req.email? = some new.email ∧
      new.tokenHash = hashToken token ∧ ⟨.insert new, .ok (some id)⟩ ∈ a ∧
      ⟨.standing id, .ok (some standing)⟩ ∈ a
  | .ok (.standing standing) => ∃ id, Sought hashToken t.req a (.ok (some id)) ∧
      ⟨.standing id, .ok (some standing)⟩ ∈ a
  | .error (.vanished id) => ⟨.standing id, .ok none⟩ ∈ a ∨ ∃ c, ⟨c, .error (.vanished id)⟩ ∈ a
  | .error .unmatched => (∃ email, ⟨.idByEmail email, .ok none⟩ ∈ a) ∨
      ∃ c, ⟨c, .error .unmatched⟩ ∈ a
  | .error .tokenInvalid => Sought hashToken t.req a (.ok none) ∨
      ∃ c, ⟨c, .error .tokenInvalid⟩ ∈ a
  | _ => True

/-- An error is one that a command was answered with. -/
theorem outcome_error {c : Cmd H} {f : Failure} (h : ⟨c, .error f⟩ ∈ a) :
    Outcome hashToken t a (.error f) := by
  cases f with
  | vanished id => exact .inr ⟨c, h⟩
  | unmatched => exact .inr ⟨c, h⟩
  | tokenInvalid => exact .inr ⟨c, h⟩
  | _ => trivial

theorem Found.suffix {a b : Answers (Ans (H := H)) Failure} (h : Found a id) (hab : a <:+ b) :
    Found b id := by
  rcases h with ⟨new, hmem⟩ | ⟨email, hmem⟩ | ⟨tokenHash, hmem⟩ | ⟨tokenHash, task, points, hmem⟩
  · exact .inl ⟨new, hab.subset hmem⟩
  · exact .inr (.inl ⟨email, hab.subset hmem⟩)
  · exact .inr (.inr (.inl ⟨tokenHash, hab.subset hmem⟩))
  · exact .inr (.inr (.inr ⟨tokenHash, task, points, hab.subset hmem⟩))

theorem Sought.suffix {a b : Answers (Ans (H := H)) Failure} {req : Request}
    {r : Except Failure (Option Nat)} (h : Sought hashToken req a r) (hab : a <:+ b) :
    Sought hashToken req b r := by
  obtain ⟨token, htoken, hmem | ⟨task, points, hmem⟩⟩ := h
  · exact ⟨token, htoken, .inl (hab.subset hmem)⟩
  · exact ⟨token, htoken, .inr ⟨task, points, hab.subset hmem⟩⟩

theorem Sought.found {req : Request} (h : Sought hashToken req a (.ok (some id))) : Found a id := by
  obtain ⟨token, -, hmem | ⟨task, points, hmem⟩⟩ := h
  · exact .inr (.inr (.inl ⟨_, hmem⟩))
  · exact .inr (.inr (.inr ⟨_, _, _, hmem⟩))

section Reaches

variable {α β : Type} {R : α → Answers (Ans (H := H)) Failure → Prop}
  {R' : β → Answers (Ans (H := H)) Failure → Prop} {p : Service H α} {h : Answers (Ans (H := H)) Failure}

/-- A part of a request ends in `R` or in an outcome of the whole. -/
def Ending (hashToken : String → H) (t : Call) (R : α → Answers (Ans (H := H)) Failure → Prop)
    (a : Answers (Ans (H := H)) Failure) : Except Failure α → Prop
  | .ok v => R v a
  | .error f => Outcome hashToken t a (.error f)

abbrev Reaches (hashToken : String → H) (t : Call)
    (R : α → Answers (Ans (H := H)) Failure → Prop) (p : Service H α)
    (h : Answers (Ans (H := H)) Failure) : Prop :=
  p.Told (Asks hashToken t) (Ending hashToken t R) h

theorem reaches_call {k : Ans c → Service H β} (hc : Asks hashToken t h c)
    (hk : ∀ v, Reaches hashToken t R' (k v) (⟨c, .ok v⟩ :: h)) :
    Reaches hashToken t R' (call c >>= k) h := by
  refine ⟨hc, fun r => ?_⟩
  cases r with
  | ok v => exact hk v
  | error f => exact outcome_error List.mem_cons_self

theorem Reaches.bind {k : α → Service H β} (hp : Reaches hashToken t R p h)
    (hk : ∀ v a, h <:+ a → R v a → Reaches hashToken t R' (k v) a) :
    Reaches hashToken t R' (p >>= k) h :=
  Told.bind hp (fun a v hsuffix hv => hk v a hsuffix hv) fun _ _ _ he => he

theorem reaches_standingById (hfound : Found h id) :
    Reaches hashToken t (fun standing a => ⟨.standing id, .ok (some standing)⟩ ∈ a)
      (standingById id) h := by
  refine reaches_call hfound fun standing => ?_
  cases standing with
  | some standing => exact List.mem_cons_self
  | none => exact .inl List.mem_cons_self

theorem reaches_tryInsert {new : List Char → NewSignup H}
    (hnew : ∀ a code, h <:+ a → Asks hashToken t a (.insert (new code))) :
    Reaches hashToken t (fun r a => ∃ code, ⟨.insert (new code), r⟩ ∈ a) (tryInsert new) h := by
  refine reaches_call trivial fun bytes => ⟨hnew _ _ (List.suffix_cons _ _), fun r => ?_⟩
  exact ⟨_, List.mem_cons_self⟩

theorem reaches_insertSignup {new : List Char → NewSignup H} (again : Nat)
    (hnew : ∀ a code, h <:+ a → Asks hashToken t a (.insert (new code))) :
    Reaches hashToken t (fun inserted a => ∃ code, ⟨.insert (new code), .ok inserted⟩ ∈ a)
      (insertSignup new again) h := by
  induction again generalizing h with
  | zero =>
    refine (reaches_tryInsert hnew).bind fun r a hsuffix hr => ?_
    obtain ⟨code, hmem⟩ := hr
    cases r with
    | ok inserted => exact ⟨code, hmem⟩
    | error f => exact outcome_error hmem
  | succ again ih =>
    refine (reaches_tryInsert hnew).bind fun r a hsuffix hr => ?_
    obtain ⟨code, hmem⟩ := hr
    cases r with
    | ok inserted => exact ⟨code, hmem⟩
    | error f =>
      dsimp only
      split
      · exact ih fun b code hb => hnew b code (hsuffix.trans hb)
      · exact outcome_error hmem

theorem reaches_joinWaitlist {email xHandle : String} {tasks : List WaitlistTask}
    {ref : Option (List Char)} (hemail : t.req.email? = some email) :
    Reaches hashToken t (fun joined a => ∀ token, joined.1 = some token →
      Outcome hashToken t a (.ok (.created token joined.2)))
      (joinWaitlist hashToken email xHandle tasks ref) h := by
  refine reaches_call trivial fun token => ?_
  refine (reaches_insertSignup 2 fun a code hsuffix =>
    ⟨hemail, token, hsuffix.subset List.mem_cons_self, rfl⟩).bind fun inserted a _ hinserted => ?_
  obtain ⟨code, hmem⟩ := hinserted
  cases inserted with
  | some id =>
    refine (reaches_standingById (.inl ⟨_, hmem⟩)).bind fun standing b hb hstanding => ?_
    intro token' htoken
    cases htoken
    exact ⟨_, id, hemail, rfl, hb.subset hmem, hstanding⟩
  | none =>
    refine reaches_call ⟨_, rfl, hmem⟩ fun id => ?_
    cases id with
    | some id =>
      refine (reaches_standingById (.inr (.inl ⟨_, List.mem_cons_self⟩))).bind
        fun standing b hb hstanding => ?_
      intro token' htoken
      cases htoken
    | none => exact .inl ⟨_, List.mem_cons_self⟩

theorem reaches_standingOf {id : Option Nat} (hsought : Sought hashToken t.req h (.ok id)) :
    Reaches hashToken t (fun standing a => (standing = none → Sought hashToken t.req a (.ok none)) ∧
      ∀ found, standing = some found → Outcome hashToken t a (.ok (.standing found)))
      (standingOf id) h := by
  cases id with
  | some id =>
    refine (reaches_standingById hsought.found).bind fun standing a hsuffix hstanding => ?_
    refine ⟨fun heq => (by cases heq), fun found heq => ?_⟩
    cases heq
    exact ⟨id, hsought.suffix hsuffix, hstanding⟩
  | none => exact ⟨fun _ => hsought, fun found heq => (by cases heq)⟩

theorem reaches_orInvalid {standing : Option WaitlistStanding}
    (hnone : standing = none → Sought hashToken t.req h (.ok none))
    (hsome : ∀ found, standing = some found → Outcome hashToken t h (.ok (.standing found))) :
    Reaches hashToken t (fun response a => Outcome hashToken t a (.ok response))
      (orInvalid standing) h := by
  cases standing with
  | some found => exact hsome found rfl
  | none => exact .inl (hnone rfl)

theorem reaches_waitlistRouter :
    Reaches hashToken t (fun response a => Outcome hashToken t a (.ok response))
      (waitlistRouter hashToken t.req) h := by
  cases hreq : t.req with
  | stats => exact reaches_call trivial fun _ => trivial
  | leaderboard => exact reaches_call trivial fun _ => trivial
  | join email xHandle tasks ref =>
    refine (reaches_joinWaitlist (by rw [hreq]; rfl)).bind fun joined a hsuffix hjoined => ?_
    obtain ⟨token, standing⟩ := joined
    cases token with
    | some token => exact hjoined token rfl
    | none => trivial
  | me token =>
    have hlook : ∀ id : Option Nat, Sought hashToken t.req
        (⟨.idByToken (hashToken token), .ok id⟩ :: h) (.ok id) := fun id =>
      ⟨token, by rw [hreq]; rfl, .inl List.mem_cons_self⟩
    refine Reaches.bind (reaches_call trivial fun id => reaches_standingOf (hlook id))
      fun standing a hsuffix hstanding => ?_
    exact reaches_orInvalid hstanding.1 hstanding.2
  | addTask token task =>
    have hlook : ∀ id : Option Nat, Sought hashToken t.req
        (⟨.addTask (hashToken token) task (waitlistTaskPoints task), .ok id⟩ :: h) (.ok id) :=
      fun id => ⟨token, by rw [hreq]; rfl, .inr ⟨task, _, List.mem_cons_self⟩⟩
    refine Reaches.bind (reaches_call trivial fun id => reaches_standingOf (hlook id))
      fun standing a hsuffix hstanding => ?_
    exact reaches_orInvalid hstanding.1 hstanding.2

end Reaches

/-! ## Rows stay -/

/-- Every row of one table is a row of the other, in what it keeps for good. -/
def Table.Stays (db db' : Table H) : Prop := ∀ s ∈ db, ∃ s' ∈ db', s.Same s'

theorem Table.Stays.trans {db'' : Table H} (h : db.Stays db') (h' : db'.Stays db'') :
    db.Stays db'' := by
  intro s hs
  obtain ⟨s', hs', hsame⟩ := h s hs
  obtain ⟨s'', hs'', hsame'⟩ := h' s' hs'
  exact ⟨s'', hs'', hsame.trans hsame'⟩

theorem idByEmail_some {email : String} (h : db.idByEmail email = some id) :
    ∃ s ∈ db, s.id = id := by
  obtain ⟨s, hs, rfl⟩ := Option.map_eq_some_iff.1 h
  exact ⟨s, List.mem_of_find?_eq_some hs, rfl⟩

variable [DecidableEq H]

theorem moved_stays (h : Moved db c db') : db.Stays db' := by
  intro s hs
  cases h with
  | kept => exact ⟨s, hs, .refl s⟩
  | inserted id seen new =>
    rcases insert_cases db id seen new with ⟨heq, -⟩ | hnew
    · exact ⟨s, by rwa [heq], .refl s⟩
    · rw [hnew.eq]
      exact ⟨_, List.mem_append_left _ (List.mem_map_of_mem hs), credit_same⟩
  | task tokenHash task points =>
    refine ⟨_, List.mem_map_of_mem hs, ?_⟩
    split
    · exact addTask_same
    · exact .refl s

variable {tr later earlier : List (Ev H)} {e e' : Ev H}
  {pool b : Pool (Ans (H := H)) Failure Response Call (State H)}

theorem step_stays (h : Step (service hashToken) pool e b) :
    pool.state.signups.Stays b.state.signups := by
  cases h with
  | run l₁ l₂ t c k r hx =>
    obtain ⟨x, hx⟩ := hx
    exact moved_stays (respond_moved hx)
  | start l t p hx =>
    obtain ⟨-, -, rfl⟩ := hx
    exact fun s hs => ⟨s, hs, .refl s⟩
  | finish l₁ l₂ t r => exact fun s hs => ⟨s, hs, .refl s⟩
  | env l hx =>
    obtain rfl := hx
    exact fun s hs => ⟨s, hs, .refl s⟩
  | die l₁ l₂ t p hx =>
    obtain rfl := hx
    exact fun s hs => ⟨s, hs, .refl s⟩

theorem run_stays (h : PoolRun (service hashToken) pool tr b) :
    pool.state.signups.Stays b.state.signups :=
  Run.relates (R := fun c c' => c.state.signups.Stays c'.state.signups) h
    (fun s hs => ⟨s, hs, .refl s⟩) fun _ _ _ hb hs => hb.trans (step_stays hs)

/-- A row there before or after a step is there at the end. -/
theorem event_stays (h : PoolRun (service hashToken) ⟨{}, []⟩ tr pool) (he : e ∈ tr)
    (hs : s ∈ e.pre.signups ∨ s ∈ e.post.signups) :
    ∃ s' ∈ pool.state.signups, s.Same s' := by
  obtain ⟨later, earlier, b, b', -, hrun, hstep, hlater⟩ := Run.split_mem h he
  rw [hstep.states.1, hstep.states.2] at hs
  rcases hs with hs | hs
  · exact (step_stays hstep).trans (run_stays hlater) s hs
  · exact run_stays hlater s hs

/-! ## What the answers mean -/

theorem respond_insert {x : Reply} {st st' : State H} {new : NewSignup H}
    (h : respond x st (.insert new) = (.ok (some id), st')) :
    Inserted st.signups id x.seen new ∧ ∃ s ∈ st'.signups, s.id = id ∧ s.email = new.email ∧
      s.tokenHash = new.tokenHash := by
  obtain ⟨hok, hsignups⟩ := send_ok h
  rcases insert_cases st.signups x.id x.seen new with ⟨-, hnone⟩ | hnew
  · exact absurd hok (hnone id)
  · rw [hnew.eq] at hok hsignups
    cases hok
    refine ⟨hnew, new.row x.id (st.signups.referrer x.seen new.ref), ?_, rfl, rfl, rfl⟩
    rw [hsignups]
    exact List.mem_append_right _ List.mem_cons_self

theorem respond_conflict {x : Reply} {st st' : State H} {new : NewSignup H}
    (h : respond x st (.insert new) = (.ok none, st')) :
    ∃ s ∈ st.signups, s.email = new.email := by
  have hok := (send_ok h).1
  by_contra hnone
  have hemail : st.signups.any (fun s => decide (s.email = new.email)) = false := by
    rw [List.any_eq_false]
    intro s hs heq
    exact hnone ⟨s, hs, of_decide_eq_true heq⟩
  unfold Table.insert at hok
  rw [if_neg (by simp [hemail])] at hok
  split at hok
  · cases hok
  · split at hok
    · cases hok
    · split at hok <;> cases hok

theorem idByToken_some (h : db.idByToken tokenHash = some id) :
    ∃ s ∈ db, s.id = id ∧ s.tokenHash = tokenHash := by
  obtain ⟨s, hs, rfl⟩ := Option.map_eq_some_iff.1 h
  exact ⟨s, List.mem_of_find?_eq_some hs, rfl, by simpa using List.find?_some hs⟩

theorem idByToken_ne_none (hs : s ∈ db) : db.idByToken s.tokenHash ≠ none := by
  intro h
  have hnone := List.find?_eq_none.1 (Option.map_eq_none_iff.1 h) s hs
  simp at hnone

/-- A row that an answer named is in the table. -/
theorem ran_found {r : Except Failure (Ans c)} (h : PoolRun (service hashToken) ⟨{}, []⟩ tr pool)
    (he : e ∈ tr) (hlabel : e.label = .ran t c r) (hfound : Found [⟨c, r⟩] id) :
    ∃ s ∈ pool.state.signups, s.id = id := by
  obtain ⟨-, x, hx⟩ := ran_proper h he hlabel
  suffices hrow : ∃ s, (s ∈ e.pre.signups ∨ s ∈ e.post.signups) ∧ s.id = id by
    obtain ⟨s, hs, rfl⟩ := hrow
    obtain ⟨s', hs', hsame⟩ := event_stays h he hs
    exact ⟨s', hs', hsame.id⟩
  rcases hfound with ⟨new, hmem⟩ | ⟨email, hmem⟩ | ⟨tokenHash, hmem⟩ | ⟨tokenHash, task, points, hmem⟩
  · cases List.mem_singleton.1 hmem
    obtain ⟨-, s, hs, hid, -⟩ := respond_insert hx
    exact ⟨s, .inr hs, hid⟩
  · cases List.mem_singleton.1 hmem
    obtain ⟨s, hs, hid⟩ := idByEmail_some (by simpa using (send_ok hx).1)
    exact ⟨s, .inl hs, hid⟩
  · cases List.mem_singleton.1 hmem
    obtain ⟨s, hs, hid, -⟩ := idByToken_some (by simpa using (send_ok hx).1)
    exact ⟨s, .inl hs, hid⟩
  · cases List.mem_singleton.1 hmem
    obtain ⟨s, hs, hid, -⟩ := idByToken_some (by simpa [Table.addTask] using (send_ok hx).1)
    exact ⟨s, .inl hs, hid⟩

/-! ## What the requests heard -/

theorem start_told (tags : List Call) (st : State H) (t : Call) (p : Service H Response)
    (st' : State H) (h : (service hashToken).start tags st t p st') :
    p.Told (Asks hashToken t) (Outcome hashToken t) [] := by
  obtain ⟨-, rfl, -⟩ := h
  refine Told.mono (reaches_waitlistRouter (h := [])) (fun _ _ => id) fun a r hr => ?_
  cases r <;> exact hr

/-- Commands fail by a conflict or with the database. -/
theorem respond_error {x : Reply} {st st' : State H} {f : Failure}
    (h : respond x st c = (.error f, st')) : f = .lost ∨ ∃ index, f = .unique index := by
  have hsend : ∀ {α : Type} {r : Except Failure α × Table H} {st' : State H},
      x.send st r = (.error f, st') → f = .lost ∨ r.1 = .error f := by
    intro α r st' h
    unfold Reply.send at h
    split at h
    · exact .inr (Prod.mk.inj h).1
    · cases (Prod.mk.inj h).1
      exact .inl rfl
  cases c with
  | newToken => cases (Prod.mk.inj h).1
  | randomBytes n => cases (Prod.mk.inj h).1
  | insert new =>
    refine (hsend h).imp_right fun hr => ?_
    unfold Table.insert at hr
    split at hr
    · cases hr
    · split at hr
      · cases hr
        exact ⟨_, rfl⟩
      · split at hr
        · cases hr
          exact ⟨_, rfl⟩
        · split at hr
          · cases hr
            exact ⟨_, rfl⟩
          · cases hr
  | addTask tokenHash task points => exact (hsend h).imp_right fun hr => by cases hr
  | idByEmail email => exact (hsend h).imp_right fun hr => by cases hr
  | idByToken tokenHash => exact (hsend h).imp_right fun hr => by cases hr
  | standing id => exact (hsend h).imp_right fun hr => by cases hr
  | total => exact (hsend h).imp_right fun hr => by cases hr
  | leaderboard => exact (hsend h).imp_right fun hr => by cases hr

theorem ran_error {f : Failure} (h : PoolRun (service hashToken) ⟨{}, []⟩ tr pool) (he : e ∈ tr)
    (hlabel : e.label = .ran t c (.error f)) : f = .lost ∨ ∃ index, f = .unique index := by
  obtain ⟨-, x, hx⟩ := ran_proper h he hlabel
  exact respond_error hx

/-- What a request has found is in the table from then on. -/
theorem heard_found (h : PoolRun (service hashToken) ⟨{}, []⟩ tr pool) (ha : Heard t tr a)
    (hfound : Found a id) : ∃ s ∈ pool.state.signups, s.id = id := by
  have hmem : ∀ {c : Cmd H} {r : Except Failure (Ans c)}, ⟨c, r⟩ ∈ a → Found [⟨c, r⟩] id →
      ∃ s ∈ pool.state.signups, s.id = id := by
    intro c r hmem hone
    obtain ⟨e, he, hlabel⟩ := ha.mem.1 hmem
    exact ran_found h he hlabel hone
  rcases hfound with ⟨new, hin⟩ | ⟨email, hin⟩ | ⟨tokenHash, hin⟩ | ⟨tokenHash, task, points, hin⟩
  · exact hmem hin (.inl ⟨new, List.mem_singleton_self _⟩)
  · exact hmem hin (.inr (.inl ⟨email, List.mem_singleton_self _⟩))
  · exact hmem hin (.inr (.inr (.inl ⟨tokenHash, List.mem_singleton_self _⟩)))
  · exact hmem hin (.inr (.inr (.inr ⟨tokenHash, task, points, List.mem_singleton_self _⟩)))

/-- No row vanishes while a request waits for its standing. -/
theorem ran_standing (h : PoolRun (service hashToken) ⟨{}, []⟩ tr pool) (he : e ∈ tr) :
    e.label ≠ .ran t (.standing id) (.ok none) := by
  intro hlabel
  obtain ⟨later, earlier, b, b', rfl, hrun, hstep, -⟩ := Run.split_mem h he
  obtain ⟨a, ha, hfound⟩ := told_ran service_numbered h start_told hlabel
  obtain ⟨s, hs, rfl⟩ := heard_found hrun ha hfound
  obtain ⟨-, x, hx⟩ := ran_proper h he hlabel
  have hnone := (send_ok hx).1
  rw [hstep.states.1] at hnone
  have hfind := List.find?_eq_none.1 (Option.map_eq_none_iff.1 (Except.ok.inj hnone)) s hs
  simp at hfind

/-- An email that was in the way of an insert has a row. -/
theorem ran_idByEmail {email : String} (h : PoolRun (service hashToken) ⟨{}, []⟩ tr pool)
    (he : e ∈ tr) : e.label ≠ .ran t (.idByEmail email) (.ok none) := by
  intro hlabel
  obtain ⟨later, earlier, b, b', rfl, hrun, hstep, -⟩ := Run.split_mem h he
  obtain ⟨a, ha, new, rfl, hmem⟩ := told_ran service_numbered h start_told hlabel
  obtain ⟨e', he', hlabel'⟩ := ha.mem.1 hmem
  obtain ⟨-, x', hx'⟩ := ran_proper hrun he' hlabel'
  obtain ⟨s, hs, hemail⟩ := respond_conflict hx'
  obtain ⟨s', hs', hsame⟩ := event_stays hrun he' (.inl hs)
  obtain ⟨-, x, hx⟩ := ran_proper h he hlabel
  have hnone := (send_ok hx).1
  rw [hstep.states.1] at hnone
  have hfind := List.find?_eq_none.1 (Option.map_eq_none_iff.1 (Except.ok.inj hnone)) s' hs'
  simp [hsame.email, hemail] at hfind

/-- No row for a token is missed that is in the table. -/
theorem ran_sought {req : Request} (h : PoolRun (service hashToken) ⟨{}, []⟩ tr pool) (he : e ∈ tr)
    {r : Except Failure (Ans c)} (hlabel : e.label = .ran t c r)
    (hsought : Sought hashToken req [⟨c, r⟩] (.ok none)) (htoken : req.token? = some token)
    (hs : s ∈ e.pre.signups) : s.tokenHash ≠ hashToken token := by
  intro heq
  obtain ⟨-, x, hx⟩ := ran_proper h he hlabel
  obtain ⟨token', htoken', hmem | ⟨task, points, hmem⟩⟩ := hsought
  · cases List.mem_singleton.1 hmem
    obtain rfl : token = token' := Option.some.inj (htoken.symm.trans htoken')
    exact idByToken_ne_none hs (heq ▸ Except.ok.inj (send_ok hx).1)
  · cases List.mem_singleton.1 hmem
    obtain rfl : token = token' := Option.some.inj (htoken.symm.trans htoken')
    exact idByToken_ne_none hs (heq ▸ Except.ok.inj (send_ok hx).1)

/-! ## Tokens -/

/-- What an insert that made a row has left in the table. -/
theorem ran_inserted {new : NewSignup H} (h : PoolRun (service hashToken) ⟨{}, []⟩ tr pool)
    (he : e ∈ tr) (hlabel : e.label = .ran t (.insert new) (.ok (some id))) :
    ∃ s ∈ pool.state.signups, s.id = id ∧ s.email = new.email ∧ s.tokenHash = new.tokenHash := by
  obtain ⟨-, x, hx⟩ := ran_proper h he hlabel
  obtain ⟨-, s, hs, hid, hemail, htoken⟩ := respond_insert hx
  obtain ⟨s', hs', hsame⟩ := event_stays h he (.inr hs)
  exact ⟨s', hs', hsame.id.trans hid, hsame.email.trans hemail, hsame.tokenHash.trans htoken⟩

/-- An email is inserted once. -/
theorem inserted_once {new₁ new₂ : NewSignup H} {id₁ id₂ : Nat}
    (h : PoolRun (service hashToken) ⟨{}, []⟩ (later ++ e :: earlier) pool) (he' : e' ∈ earlier)
    (hlabel : e.label = .ran t₁ (.insert new₁) (.ok (some id₁)))
    (hlabel' : e'.label = .ran t₂ (.insert new₂) (.ok (some id₂))) :
    new₁.email ≠ new₂.email := by
  intro heq
  obtain ⟨-, x, hx⟩ := ran_proper h (by simp) hlabel
  obtain ⟨b, b', hrun, hstep, -⟩ := h.split
  obtain ⟨s, hs, -, hemail, -⟩ := ran_inserted hrun he' hlabel'
  rw [hstep.states.1] at hx
  exact (respond_insert hx).1.email s hs (hemail.trans heq.symm)

/-- The row that a standing was read from. -/
theorem ran_standing_row (h : PoolRun (service hashToken) ⟨{}, []⟩ tr pool) (he : e ∈ tr)
    (hlabel : e.label = .ran t (.standing id) (.ok (some standing))) :
    ∃ s ∈ pool.state.signups, s.id = id ∧ s.referralCode = standing.referralCode ∧
      s.xHandle = standing.xHandle := by
  obtain ⟨-, x, hx⟩ := ran_proper h he hlabel
  have hanswer : e.pre.signups.standing id = some standing := Except.ok.inj (send_ok hx).1
  obtain ⟨s, hfind, rfl⟩ := Option.map_eq_some_iff.1 hanswer
  have hid : s.id = id := by simpa using List.find?_some hfind
  obtain ⟨s', hs', hsame⟩ := event_stays h he (.inl (List.mem_of_find?_eq_some hfind))
  exact ⟨s', hs', hsame.id.trans hid, hsame.referralCode, hsame.xHandle⟩

/-- The row of a token that was found. -/
theorem heard_sought {req : Request} (h : PoolRun (service hashToken) ⟨{}, []⟩ tr pool)
    (ha : Heard t tr a) (hsought : Sought hashToken req a (.ok (some id))) :
    ∃ token, req.token? = some token ∧
      ∃ s ∈ pool.state.signups, s.id = id ∧ s.tokenHash = hashToken token := by
  obtain ⟨token, htoken, hmem⟩ := hsought
  refine ⟨token, htoken, ?_⟩
  have hrow : ∀ {e : Ev H}, e ∈ tr → e.pre.signups.idByToken (hashToken token) = some id →
      ∃ s ∈ pool.state.signups, s.id = id ∧ s.tokenHash = hashToken token := by
    intro e he hfind
    obtain ⟨s, hs, hid, hhash⟩ := idByToken_some hfind
    obtain ⟨s', hs', hsame⟩ := event_stays h he (.inl hs)
    exact ⟨s', hs', hsame.id.trans hid, hsame.tokenHash.trans hhash⟩
  rcases hmem with hmem | ⟨task, points, hmem⟩
  · obtain ⟨e, he, hlabel⟩ := ha.mem.1 hmem
    obtain ⟨-, x, hx⟩ := ran_proper h he hlabel
    exact hrow he (Except.ok.inj (send_ok hx).1)
  · obtain ⟨e, he, hlabel⟩ := ha.mem.1 hmem
    obtain ⟨-, x, hx⟩ := ran_proper h he hlabel
    exact hrow he (Except.ok.inj (send_ok hx).1)

/-- A signup that was answered with a token, and its row. -/
theorem finished_created (h : PoolRun (service hashToken) ⟨{}, []⟩ tr pool) (he : e ∈ tr)
    (hlabel : e.label = .finished t (.ok (.created token standing))) :
    ∃ s ∈ pool.state.signups, t.req.email? = some s.email ∧ s.tokenHash = hashToken token ∧
      s.referralCode = standing.referralCode ∧ s.xHandle = standing.xHandle := by
  obtain ⟨later, earlier, b, b', rfl, hrun, hstep, hlater⟩ := Run.split_mem h he
  obtain ⟨a, ha, new, id, hemail, hhash, hnew, hstanding⟩ :=
    told_finished service_numbered h start_told hlabel
  obtain ⟨e₁, he₁, hlabel₁⟩ := ha.mem.1 hnew
  obtain ⟨e₂, he₂, hlabel₂⟩ := ha.mem.1 hstanding
  obtain ⟨s, hs, hid, hmail, htoken⟩ := ran_inserted h (by simp [he₁]) hlabel₁
  obtain ⟨s', hs', hid', hcode, hhandle⟩ := ran_standing_row h (by simp [he₂]) hlabel₂
  obtain rfl : s = s' :=
    List.inj_on_of_nodup_map (sound_run h).ids hs hs' (hid.trans hid'.symm)
  exact ⟨s, hs, by rw [hmail, hemail], htoken.trans hhash, hcode, hhandle⟩

/-- Nothing a request does comes before its start. -/
theorem started_first (h : PoolRun (service hashToken) ⟨{}, []⟩ (later ++ e :: earlier) pool)
    (hlabel : e.label = .started t) (he' : e' ∈ earlier) : e'.label.tag? ≠ some t := by
  intro htag
  obtain ⟨b, b', hrun, hstep, -⟩ := h.split
  have hlt := (service_numbered.run hrun).events e' he' t htag
  cases hstep with
  | start l t' p hx =>
    cases hlabel
    exact absurd hx.1 (Nat.ne_of_lt hlt)
  | _ => cases hlabel

/-- What holds of the tokens handed out over a run. -/
structure TokensKept (tr : List (Ev H)) : Prop where
  /-- No request loses the row it has found. -/
  served : ∀ e ∈ tr, ∀ t id, e.label ≠ .finished t (.error (.vanished id)) ∧
    e.label ≠ .finished t (.error .unmatched)
  /-- One signup of an email is answered with a token. -/
  once : ∀ e₁ ∈ tr, ∀ e₂ ∈ tr, ∀ t₁ t₂ token₁ token₂ standing₁ standing₂,
    e₁.label = .finished t₁ (.ok (.created token₁ standing₁)) →
    e₂.label = .finished t₂ (.ok (.created token₂ standing₂)) →
    t₁.req.email? = t₂.req.email? → t₁ = t₂
  /-- The token shows its own signup. -/
  shows : ∀ e₁ ∈ tr, ∀ e₂ ∈ tr, ∀ t₁ t₂ token standing₁ standing₂,
    e₁.label = .finished t₁ (.ok (.created token standing₁)) →
    e₂.label = .finished t₂ (.ok (.standing standing₂)) → t₂.req.token? = some token →
    standing₂.referralCode = standing₁.referralCode ∧ standing₂.xHandle = standing₁.xHandle
  /-- Whoever comes with it later is not turned away. -/
  accepted : ∀ later e earlier, tr = later ++ e :: earlier → ∀ t token standing,
    e.label = .finished t (.ok (.created token standing)) → ∀ t', t'.req.token? = some token →
    (∃ e' ∈ later, e'.label = .started t') →
    ∀ e' ∈ later, e'.label ≠ .finished t' (.error .tokenInvalid)

theorem finished_heard {r : Except Failure Response}
    (h : PoolRun (service hashToken) ⟨{}, []⟩ tr pool) (he : e ∈ tr)
    (hlabel : e.label = .finished t r) :
    ∃ later earlier a, tr = later ++ e :: earlier ∧ Heard t earlier a ∧ Outcome hashToken t a r := by
  obtain ⟨later, earlier, rfl⟩ := List.append_of_mem he
  obtain ⟨a, ha, hr⟩ := told_finished service_numbered h start_told hlabel
  exact ⟨later, earlier, a, rfl, ha, hr⟩

/-- No command was answered with an outcome of the requests' own. -/
theorem heard_error {f : Failure} (h : PoolRun (service hashToken) ⟨{}, []⟩ tr pool)
    (ha : Heard t earlier a) (hsub : ∀ e ∈ earlier, e ∈ tr)
    (hf : ∃ c, ⟨c, .error f⟩ ∈ a) : f = .lost ∨ ∃ index, f = .unique index := by
  obtain ⟨c, hmem⟩ := hf
  obtain ⟨e, he, hlabel⟩ := ha.mem.1 hmem
  exact ran_error h (hsub e he) hlabel

/-- A signup that was answered with a token inserted its row. -/
theorem created_insert (h : PoolRun (service hashToken) ⟨{}, []⟩ tr pool) (he : e ∈ tr)
    (hlabel : e.label = .finished t (.ok (.created token standing))) : ∃ e' ∈ tr, ∃ new id,
      e'.label = .ran t (.insert new) (.ok (some id)) ∧ t.req.email? = some new.email := by
  obtain ⟨later, earlier, a, rfl, ha, new, id, hemail, -, hnew, -⟩ := finished_heard h he hlabel
  obtain ⟨e', he', hlabel'⟩ := ha.mem.1 hnew
  exact ⟨e', by simp [he'], new, id, hlabel', hemail⟩

/-- Two inserts of one email that made rows are one. -/
theorem insert_call {e₁ e₂ : Ev H} {new₁ new₂ : NewSignup H} {id₁ id₂ : Nat}
    (h : PoolRun (service hashToken) ⟨{}, []⟩ tr pool) (he₁ : e₁ ∈ tr) (he₂ : e₂ ∈ tr)
    (hran₁ : e₁.label = .ran t₁ (.insert new₁) (.ok (some id₁)))
    (hran₂ : e₂.label = .ran t₂ (.insert new₂) (.ok (some id₂))) (hsame : new₁.email = new₂.email) :
    t₁ = t₂ := by
  obtain ⟨later, earlier, rfl⟩ := List.append_of_mem he₁
  rcases List.mem_append.1 he₂ with he₂ | he₂
  · obtain ⟨later', mid, rfl⟩ := List.append_of_mem he₂
    rw [List.append_assoc, List.cons_append] at h
    exact absurd hsame.symm (inserted_once h (by simp) hran₂ hran₁)
  · rcases List.mem_cons.1 he₂ with rfl | he₂
    · rw [hran₁] at hran₂
      cases hran₂
      rfl
    · exact absurd hsame (inserted_once h he₂ hran₁ hran₂)

omit [DecidableEq H] in
/-- The look of a request that found no row for its token. -/
theorem heard_unfound {req : Request} (ha : Heard t earlier a)
    (hsought : Sought hashToken req a (.ok none)) :
    ∃ e ∈ earlier, ∃ (c : Cmd H) (r : Except Failure (Ans c)),
      e.label = .ran t c r ∧ Sought hashToken req [⟨c, r⟩] (.ok none) := by
  obtain ⟨token, htoken, hmem | ⟨task, points, hmem⟩⟩ := hsought
  · obtain ⟨e, he, hran⟩ := ha.mem.1 hmem
    exact ⟨e, he, _, _, hran, token, htoken, .inl (List.mem_singleton_self _)⟩
  · obtain ⟨e, he, hran⟩ := ha.mem.1 hmem
    exact ⟨e, he, _, _, hran, token, htoken, .inr ⟨task, points, List.mem_singleton_self _⟩⟩

/-- What a request does that started in a part of a run, it does in that part. -/
theorem mem_of_started (h : PoolRun (service hashToken) ⟨{}, []⟩ (later ++ earlier) pool)
    (hstarted : ∃ e₀ ∈ later, e₀.label = .started t) (he : e ∈ later ++ earlier)
    (htag : e.label.tag? = some t) : e ∈ later := by
  rcases List.mem_append.1 he with hmem | hmem
  · exact hmem
  · obtain ⟨e₀, he₀, hstart⟩ := hstarted
    obtain ⟨l₁, l₂, rfl⟩ := List.append_of_mem he₀
    rw [List.append_assoc, List.cons_append] at h
    exact absurd htag (started_first h hstart (List.mem_append_right _ hmem))

/-- Tokens are handed out once and stay good. -/
theorem tokens_kept (h : PoolRun (service hashToken) ⟨{}, []⟩ tr pool) : TokensKept tr where
  served := by
    intro e he t id
    constructor
    · intro hlabel
      obtain ⟨later, earlier, a, rfl, ha, hmem | herror⟩ := finished_heard h he hlabel
      · obtain ⟨e', he', hlabel'⟩ := ha.mem.1 hmem
        exact ran_standing h (by simp [he']) hlabel'
      · obtain hf | ⟨index, hf⟩ := heard_error h ha (fun e he => by simp [he]) herror <;> cases hf
    · intro hlabel
      obtain ⟨later, earlier, a, rfl, ha, ⟨email, hmem⟩ | herror⟩ := finished_heard h he hlabel
      · obtain ⟨e', he', hlabel'⟩ := ha.mem.1 hmem
        exact ran_idByEmail h (by simp [he']) hlabel'
      · obtain hf | ⟨index, hf⟩ := heard_error h ha (fun e he => by simp [he]) herror <;> cases hf
  once := by
    intro e₁ he₁ e₂ he₂ t₁ t₂ token₁ token₂ standing₁ standing₂ hlabel₁ hlabel₂ hreq
    obtain ⟨f₁, hf₁, new₁, id₁, hran₁, hemail₁⟩ := created_insert h he₁ hlabel₁
    obtain ⟨f₂, hf₂, new₂, id₂, hran₂, hemail₂⟩ := created_insert h he₂ hlabel₂
    rw [hemail₁, hemail₂] at hreq
    exact insert_call h hf₁ hf₂ hran₁ hran₂ (Option.some.inj hreq)
  shows := by
    intro e₁ he₁ e₂ he₂ t₁ t₂ token standing₁ standing₂ hlabel₁ hlabel₂ htoken
    obtain ⟨s, hs, -, hhash, hcode, hhandle⟩ := finished_created h he₁ hlabel₁
    obtain ⟨later, earlier, a, rfl, ha, id, hsought, hmem⟩ := finished_heard h he₂ hlabel₂
    have hall := service_numbered.heard_finished h hlabel₂ ha
    obtain ⟨token', htoken', s', hs', hid', hhash'⟩ := heard_sought h hall hsought
    obtain rfl : token = token' := Option.some.inj (htoken.symm.trans htoken')
    obtain ⟨e₃, he₃, hlabel₃⟩ := hall.mem.1 hmem
    obtain ⟨s'', hs'', hid'', hcode'', hhandle''⟩ := ran_standing_row h he₃ hlabel₃
    obtain rfl : s = s' :=
      List.inj_on_of_nodup_map (sound_run h).tokens hs hs' (hhash.trans hhash'.symm)
    obtain rfl : s = s'' :=
      List.inj_on_of_nodup_map (sound_run h).ids hs hs'' (hid'.trans hid''.symm)
    exact ⟨hcode''.symm.trans hcode, hhandle''.symm.trans hhandle⟩
  accepted := by
    intro later e earlier htr t token standing hlabel t' htoken hstarted e' he' hlabel'
    subst htr
    obtain ⟨b, b', hrun, hstep, hlater⟩ := h.split
    obtain ⟨s, hs, -, hhash, -⟩ := finished_created (.snoc hrun hstep) List.mem_cons_self hlabel
    obtain ⟨later', earlier', a, heq, ha, hsought | herror⟩ :=
      finished_heard h (List.mem_append_left _ he') hlabel'
    · have hsub : ∀ f ∈ earlier', f ∈ later ++ e :: earlier := by
        intro f hf
        rw [heq]
        simp [hf]
      obtain ⟨f, hf, c, r, hran, hone⟩ := heard_unfound ha hsought
      -- The look came after the start, so after the token was handed out.
      have hafter : f ∈ later := mem_of_started h hstarted (hsub f hf) (by rw [hran]; rfl)
      obtain ⟨l₁, l₂, rfl⟩ := List.append_of_mem hafter
      obtain ⟨b₁, b₂, hmid, hstep', -⟩ := hlater.split
      obtain ⟨s', hs', hsame⟩ := run_stays hmid s hs
      rw [← hstep'.states.1] at hs'
      exact ran_sought h (hsub f hf) hran hone htoken hs' (hsame.tokenHash.trans hhash)
    · obtain hf | ⟨index, hf⟩ := heard_error h ha (fun f hf => by rw [heq]; simp [hf]) herror <;>
        cases hf

theorem tokens_kept_twoSignups : TokensKept twoSignupsRun.1 := tokens_kept twoSignups_run

end Waitlist

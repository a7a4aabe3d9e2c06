import BlindMarket.Waitlist.System

/-!
# What the table always says

Emails, tokens and referral codes belong to one row each, task points are the
points of the tasks recorded, and the referrals of a row are the rows that
name it, all of which came after it.
-/
namespace Waitlist

open Async Prog Runs

variable {H : Type} {db db' : Table H} {s t : Signup H} {c : Cmd H} {new : NewSignup H}
  {id seen : Nat} {referredBy : Option Nat} {tokenHash : H} {task : WaitlistTask} {points : Nat}

/-- What `/^[a-z0-9]{4,32}$/` lets through. -/
def isRef (code : List Char) : Bool :=
  4 ≤ code.length && code.length ≤ 32 && code.all fun ch => ch.isLower || ch.isDigit

structure Sound (db : Table H) : Prop where
  ids : (db.map (·.id)).Nodup
  emails : (db.map (·.email)).Nodup
  tokens : (db.map (·.tokenHash)).Nodup
  codes : (db.map (·.referralCode)).Nodup
  shareable : ∀ s ∈ db, isRef s.referralCode = true
  tasks : ∀ s ∈ db, s.tasks.Nodup
  points : ∀ s ∈ db, s.points = pointsFor s.tasks
  referrals : ∀ s ∈ db, s.referralCount = db.countP fun t => t.referredBy = some s.id
  referred : ∀ before s after, db = before ++ s :: after → ∀ id, s.referredBy = some id →
    ∃ t ∈ before, t.id = id

/-! ## Points -/

theorem pointsFor_cons (task : WaitlistTask) (tasks : List WaitlistTask) :
    pointsFor (task :: tasks) = waitlistTaskPoints task + pointsFor tasks := by
  have h : ∀ (tasks : List WaitlistTask) (n : Nat),
      tasks.foldl (fun sum t => sum + waitlistTaskPoints t) n = n + pointsFor tasks := by
    intro tasks
    induction tasks with
    | nil => intro n; rfl
    | cons task tasks ih =>
      intro n
      simp only [pointsFor, List.foldl_cons] at ih ⊢
      rw [ih, ih (0 + _)]
      omega
  rw [pointsFor, List.foldl_cons, h]
  omega

theorem pointsFor_append (tasks : List WaitlistTask) (task : WaitlistTask) :
    pointsFor (tasks ++ [task]) = pointsFor tasks + waitlistTaskPoints task := by
  simp [pointsFor]

/-- Tasks alone never come to more than six points. -/
theorem pointsFor_le {tasks : List WaitlistTask} (h : tasks.Nodup) : pointsFor tasks ≤ 6 := by
  have hall : tasks.Subperm [.follow, .like, .repost, .comment] :=
    List.subperm_of_subset h fun task _ => by cases task <;> decide
  have hsum : ∀ tasks : List WaitlistTask,
      pointsFor tasks = (tasks.map waitlistTaskPoints).sum := by
    intro tasks
    induction tasks with
    | nil => rfl
    | cons task tasks ih => rw [pointsFor_cons, ih, List.map_cons, List.sum_cons]
  obtain ⟨l, hperm, hsub⟩ := hall
  rw [hsum, ← (hperm.map _).sum_eq]
  exact (hsub.map waitlistTaskPoints).sum_le_sum fun _ _ => Nat.zero_le _

/-! ## Referral codes -/

theorem newReferralCode_isRef {bytes : List UInt8} (h : bytes.length = 8) :
    isRef (newReferralCode bytes) = true := by
  have hchar : ∀ n : Nat, ∀ ch, codeAlphabet.getD (n % codeAlphabet.length) 'a' = ch →
      (ch.isLower || ch.isDigit) = true := by
    rintro n ch rfl
    have hall : codeAlphabet.all (fun ch => ch.isLower || ch.isDigit) = true := by decide
    have hlt : n % codeAlphabet.length < codeAlphabet.length := Nat.mod_lt _ (by decide)
    rw [List.getD_eq_getElem _ _ hlt]
    exact List.all_eq_true.1 hall _ (List.getElem_mem hlt)
  simp only [isRef, newReferralCode, List.length_map, h, List.all_map, Bool.and_eq_true,
    List.all_eq_true]
  exact ⟨⟨rfl, rfl⟩, fun byte _ => hchar byte.toNat _ rfl⟩

/-! ## What the requests ask for -/

variable {hashToken : String → H}

/-- What the requests ask of the table. -/
def Proper : Cmd H → Prop
  | .insert new => new.tasks.Nodup ∧ new.points = pointsFor new.tasks ∧
      isRef new.referralCode = true
  | .addTask _ task points => points = waitlistTaskPoints task
  | _ => True

theorem issues_standingById (id : Nat) : (standingById id : Service H _).Issues Proper := by
  refine (issues_call trivial).bind fun standing => ?_
  cases standing <;> exact trivial

theorem issues_tryInsert {new : List Char → NewSignup H}
    (hnew : ∀ code, isRef code = true → Proper (.insert (new code))) :
    (tryInsert new).Issues Proper := by
  refine (issues_call trivial).bind fun bytes => (issues_call (hnew _ ?_)).attempt
  exact newReferralCode_isRef bytes.length_toList

theorem issues_insertSignup {new : List Char → NewSignup H}
    (hnew : ∀ code, isRef code = true → Proper (.insert (new code))) (again : Nat) :
    (insertSignup new again).Issues Proper := by
  induction again with
  | zero =>
    refine (issues_tryInsert hnew).bind fun r => ?_
    cases r <;> exact trivial
  | succ again ih =>
    refine (issues_tryInsert hnew).bind fun r => ?_
    cases r with
    | ok inserted => exact trivial
    | error err =>
      dsimp only
      split
      · exact ih
      · exact trivial

theorem issues_joinWaitlist (email xHandle : String) {tasks : List WaitlistTask}
    (ref : Option (List Char)) (htasks : tasks.Nodup) :
    (joinWaitlist hashToken email xHandle tasks ref).Issues Proper := by
  refine (issues_call trivial).bind fun token => ?_
  refine (issues_insertSignup (fun code hcode => ⟨htasks, rfl, hcode⟩) 2).bind fun inserted => ?_
  cases inserted with
  | some id => exact (issues_standingById id).bind fun _ => trivial
  | none =>
    refine (issues_call trivial).bind fun id => ?_
    cases id with
    | some id => exact (issues_standingById id).bind fun _ => trivial
    | none => exact trivial

theorem issues_standingOf (id : Option Nat) : (standingOf id : Service H _).Issues Proper := by
  cases id with
  | some id => exact (issues_standingById id).bind fun _ => trivial
  | none => exact trivial

theorem issues_orInvalid (standing : Option WaitlistStanding) :
    (orInvalid standing : Service H _).Issues Proper := by
  cases standing <;> exact trivial

theorem nodup_eraseDups (tasks : List WaitlistTask) : tasks.eraseDups.Nodup := by
  induction hn : tasks.length using Nat.strong_induction_on generalizing tasks with
  | _ n ih =>
    cases tasks with
    | nil => simp
    | cons task tasks =>
      rw [List.eraseDups_cons]
      refine List.nodup_cons.2 ⟨by simp [List.mem_eraseDups], ih _ ?_ _ rfl⟩
      have hle := List.length_filter_le (fun b => !b == task) tasks
      simp only [List.length_cons] at hn
      omega

theorem issues_waitlistRouter (req : Request) :
    (waitlistRouter hashToken req).Issues Proper := by
  cases req with
  | stats => exact (issues_call trivial).bind fun _ => trivial
  | leaderboard => exact (issues_call trivial).bind fun _ => trivial
  | join email xHandle tasks ref =>
    refine (issues_joinWaitlist email xHandle ref (nodup_eraseDups tasks)).bind fun joined => ?_
    obtain ⟨token, standing⟩ := joined
    cases token <;> exact trivial
  | me token =>
    exact ((issues_call trivial).bind issues_standingOf).bind issues_orInvalid
  | addTask token task =>
    refine Issues.bind (P := Proper) (Issues.bind (issues_call ?_) issues_standingOf) issues_orInvalid
    exact rfl

/-! ## The two ways a row changes -/

@[simp] theorem credit_id : (s.credit referredBy).id = s.id := by
  unfold Signup.credit; split <;> rfl

@[simp] theorem credit_email : (s.credit referredBy).email = s.email := by
  unfold Signup.credit; split <;> rfl

@[simp] theorem credit_xHandle : (s.credit referredBy).xHandle = s.xHandle := by
  unfold Signup.credit; split <;> rfl

@[simp] theorem credit_tasks : (s.credit referredBy).tasks = s.tasks := by
  unfold Signup.credit; split <;> rfl

@[simp] theorem credit_points : (s.credit referredBy).points = s.points := by
  unfold Signup.credit; split <;> rfl

@[simp] theorem credit_tokenHash : (s.credit referredBy).tokenHash = s.tokenHash := by
  unfold Signup.credit; split <;> rfl

@[simp] theorem credit_referralCode : (s.credit referredBy).referralCode = s.referralCode := by
  unfold Signup.credit; split <;> rfl

@[simp] theorem credit_referredBy : (s.credit referredBy).referredBy = s.referredBy := by
  unfold Signup.credit; split <;> rfl

theorem credit_referralCount : (s.credit referredBy).referralCount =
    s.referralCount + if referredBy = some s.id then 1 else 0 := by
  unfold Signup.credit
  by_cases h : some s.id = referredBy
  · simp [h.symm]
  · simp [h, Ne.symm h]

/-- What a row keeps for good. -/
structure Signup.Same (s t : Signup H) : Prop where
  id : t.id = s.id
  email : t.email = s.email
  xHandle : t.xHandle = s.xHandle
  tokenHash : t.tokenHash = s.tokenHash
  referralCode : t.referralCode = s.referralCode
  referredBy : t.referredBy = s.referredBy

theorem Signup.Same.refl (s : Signup H) : s.Same s := ⟨rfl, rfl, rfl, rfl, rfl, rfl⟩

theorem Signup.Same.trans {u : Signup H} (h : s.Same t) (h' : t.Same u) : s.Same u :=
  ⟨h'.id.trans h.id, h'.email.trans h.email, h'.xHandle.trans h.xHandle,
    h'.tokenHash.trans h.tokenHash, h'.referralCode.trans h.referralCode,
    h'.referredBy.trans h.referredBy⟩

theorem credit_same : s.Same (s.credit referredBy) := by constructor <;> simp

theorem addTask_same : s.Same (s.addTask task points) := by
  unfold Signup.addTask
  split <;> constructor <;> rfl

/-- A task is recorded and scored once. -/
theorem addTask_sound (htasks : s.tasks.Nodup) (hpoints : s.points = pointsFor s.tasks) :
    (s.addTask task (waitlistTaskPoints task)).tasks.Nodup ∧
      (s.addTask task (waitlistTaskPoints task)).points =
        pointsFor (s.addTask task (waitlistTaskPoints task)).tasks := by
  unfold Signup.addTask
  split
  · exact ⟨htasks, hpoints⟩
  · next htask =>
    refine ⟨?_, by simp only [pointsFor_append, hpoints]⟩
    simp only [List.nodup_append, htasks, List.nodup_singleton, List.mem_singleton, true_and]
    rintro a ha b rfl heq
    exact htask (heq ▸ ha)

theorem addTask_referralCount : (s.addTask task points).referralCount = s.referralCount := by
  unfold Signup.addTask
  split <;> rfl

/-! ## The statements keep the table sound -/

/-- A statement that changes rows in place, none of them in what it keeps for good. -/
theorem Sound.map (h : Sound db) (f : Signup H → Signup H) (hsame : ∀ s : Signup H, s.Same (f s))
    (hcount : ∀ s, (f s).referralCount = s.referralCount)
    (htasks : ∀ s ∈ db, (f s).tasks.Nodup ∧ (f s).points = pointsFor (f s).tasks) :
    Sound (db.map f) where
  ids := by simpa [Function.comp_def, (hsame _).id] using h.ids
  emails := by simpa [Function.comp_def, (hsame _).email] using h.emails
  tokens := by simpa [Function.comp_def, (hsame _).tokenHash] using h.tokens
  codes := by simpa [Function.comp_def, (hsame _).referralCode] using h.codes
  shareable := by
    intro s hs
    obtain ⟨t, ht, rfl⟩ := List.mem_map.1 hs
    rw [(hsame t).referralCode]
    exact h.shareable t ht
  tasks := by
    intro s hs
    obtain ⟨t, ht, rfl⟩ := List.mem_map.1 hs
    exact (htasks t ht).1
  points := by
    intro s hs
    obtain ⟨t, ht, rfl⟩ := List.mem_map.1 hs
    exact (htasks t ht).2
  referrals := by
    intro s hs
    obtain ⟨t, ht, rfl⟩ := List.mem_map.1 hs
    rw [hcount, h.referrals t ht, List.countP_map, (hsame t).id]
    congr 1
    funext u
    simp [(hsame u).referredBy]
  referred := by
    intro before s after heq id hid
    obtain ⟨before', rest, rfl, rfl, hrest⟩ := List.map_eq_append_iff.1 heq
    obtain ⟨t, after', rfl, rfl, rfl⟩ := List.map_eq_cons_iff.1 hrest
    rw [(hsame t).referredBy] at hid
    obtain ⟨u, hu, rfl⟩ := h.referred before' t after' rfl id hid
    exact ⟨f u, List.mem_map_of_mem hu, (hsame u).id⟩

theorem referrer_mem {ref : Option (List Char)} (h : db.referrer seen ref = some id) :
    ∃ s ∈ db, s.id = id := by
  obtain ⟨code, -, hfind⟩ := Option.bind_eq_some_iff.1 h
  obtain ⟨s, hs, rfl⟩ := Option.map_eq_some_iff.1 hfind
  exact ⟨s, List.mem_of_mem_take (List.mem_of_find?_eq_some hs), rfl⟩

theorem nodup_inserted {β : Type} {key : Signup H → β}
    (hkey : ∀ s, key (s.credit referredBy) = key s) (h : (db.map key).Nodup)
    (hnew : ∀ s ∈ db, key s ≠ key t) :
    ((db.map (Signup.credit referredBy) ++ [t]).map key).Nodup := by
  have hmap : (db.map (Signup.credit referredBy)).map key = db.map key := by
    simp [Function.comp_def, hkey]
  rw [List.map_append, hmap, List.nodup_append]
  refine ⟨h, List.nodup_singleton _, ?_⟩
  intro a ha b hb
  obtain ⟨s, hs, rfl⟩ := List.mem_map.1 ha
  rw [List.mem_singleton.1 hb]
  exact hnew s hs

variable [DecidableEq H]

theorem Sound.addTask (h : Sound db) :
    Sound (db.addTask tokenHash task (waitlistTaskPoints task)).2 := by
  refine h.map _ ?_ ?_ ?_
  · intro s
    split
    · exact addTask_same
    · exact .refl s
  · intro s
    split
    · exact addTask_referralCount
    · rfl
  · intro s hs
    split
    · exact addTask_sound (h.tasks s hs) (h.points s hs)
    · exact ⟨h.tasks s hs, h.points s hs⟩

/-- An insert that creates a row. -/
structure Inserted (db : Table H) (id seen : Nat) (new : NewSignup H) : Prop where
  email : ∀ s ∈ db, s.email ≠ new.email
  token : ∀ s ∈ db, s.tokenHash ≠ new.tokenHash
  code : ∀ s ∈ db, s.referralCode ≠ new.referralCode
  fresh : ∀ s ∈ db, s.id ≠ id
  eq : db.insert id seen new = (.ok (some id), db.map (Signup.credit (db.referrer seen new.ref)) ++
    [new.row id (db.referrer seen new.ref)])

/-- An insert creates a row or leaves the table as it was. -/
theorem insert_cases (db : Table H) (id seen : Nat) (new : NewSignup H) :
    ((db.insert id seen new).2 = db ∧ ∀ i, (db.insert id seen new).1 ≠ .ok (some i)) ∨
      Inserted db id seen new := by
  by_cases hemail : db.any (·.email = new.email)
  · simp [Table.insert, hemail]
  by_cases htoken : db.any (·.tokenHash = new.tokenHash)
  · simp [Table.insert, hemail, htoken]
  by_cases hcode : db.any (·.referralCode = new.referralCode)
  · simp [Table.insert, hemail, htoken, hcode]
  by_cases hid : db.any (·.id = id)
  · simp [Table.insert, hemail, htoken, hcode, hid]
  refine .inr ⟨?_, ?_, ?_, ?_, by simp [Table.insert, hemail, htoken, hcode, hid]⟩
  · simpa using hemail
  · simpa using htoken
  · simpa using hcode
  · simpa using hid

theorem Sound.inserted (h : Sound db) (hnew : Inserted db id seen new)
    (htasks : new.tasks.Nodup) (hpoints : new.points = pointsFor new.tasks)
    (hcode : isRef new.referralCode = true) : Sound (db.insert id seen new).2 := by
  rw [hnew.eq]
  generalize hby : db.referrer seen new.ref = referredBy
  have hmem : ∀ {s}, s ∈ db.map (Signup.credit referredBy) ++ [new.row id referredBy] →
      (∃ t ∈ db, s = t.credit referredBy) ∨ s = new.row id referredBy := by
    intro s hs
    simpa [eq_comm] using hs
  constructor
  · exact nodup_inserted (fun _ => credit_id) h.ids hnew.fresh
  · exact nodup_inserted (fun _ => credit_email) h.emails hnew.email
  · exact nodup_inserted (fun _ => credit_tokenHash) h.tokens hnew.token
  · exact nodup_inserted (fun _ => credit_referralCode) h.codes hnew.code
  · intro s hs
    rcases hmem hs with ⟨t, ht, rfl⟩ | rfl
    · rw [credit_referralCode]
      exact h.shareable t ht
    · exact hcode
  · intro s hs
    rcases hmem hs with ⟨t, ht, rfl⟩ | rfl
    · rw [credit_tasks]
      exact h.tasks t ht
    · exact htasks
  · intro s hs
    rcases hmem hs with ⟨t, ht, rfl⟩ | rfl
    · rw [credit_tasks, credit_points]
      exact h.points t ht
    · exact hpoints
  · intro s hs
    simp only [List.countP_append, List.countP_map, Function.comp_def, credit_referredBy,
      List.countP_singleton]
    rcases hmem hs with ⟨t, ht, rfl⟩ | rfl
    · rw [credit_referralCount, credit_id, h.referrals t ht]
      by_cases hby : referredBy = some t.id <;> simp [NewSignup.row, hby]
    · have hnone : db.countP (fun t => decide (t.referredBy = some id)) = 0 := by
        rw [List.countP_eq_zero]
        intro t ht heq
        obtain ⟨before, after, rfl⟩ := List.append_of_mem ht
        obtain ⟨u, hu, hid⟩ := h.referred before t after rfl id (of_decide_eq_true heq)
        exact hnew.fresh u (List.mem_append_left _ hu) hid
      have hself : referredBy ≠ some id := by
        intro heq
        obtain ⟨u, hu, hid⟩ := referrer_mem (hby.trans heq)
        exact hnew.fresh u hu hid
      simp only [NewSignup.row, hself, decide_false, Bool.false_eq_true, if_false, Nat.add_zero]
      exact hnone.symm
  · intro before s after heq i hi
    rcases List.eq_nil_or_concat after with rfl | ⟨after, u, rfl⟩
    · obtain ⟨rfl, hs⟩ := List.append_inj' heq rfl
      cases hs
      obtain ⟨u, hu, rfl⟩ := referrer_mem (hby.trans hi)
      exact ⟨u.credit referredBy, List.mem_map_of_mem hu, credit_id⟩
    · have heq' : db.map (Signup.credit referredBy) = before ++ s :: after := by
        rw [List.concat_eq_append, ← List.cons_append, ← List.append_assoc] at heq
        exact (List.append_inj' heq rfl).1
      obtain ⟨before', rest, rfl, rfl, hrest⟩ := List.map_eq_append_iff.1 heq'
      obtain ⟨t, after', rfl, rfl, rfl⟩ := List.map_eq_cons_iff.1 hrest
      rw [credit_referredBy] at hi
      obtain ⟨u, hu, rfl⟩ := h.referred before' t after' rfl i hi
      exact ⟨u.credit referredBy, List.mem_map_of_mem hu, credit_id⟩

theorem Sound.moved (h : Sound db) (hc : Proper c) (hmove : Moved db c db') : Sound db' := by
  cases hmove with
  | kept => exact h
  | inserted id seen new =>
    rcases insert_cases db id seen new with ⟨heq, -⟩ | hnew
    · rwa [heq]
    · exact h.inserted hnew hc.1 hc.2.1 hc.2.2
  | task tokenHash task points =>
    cases hc
    exact h.addTask

/-! ## Runs -/

variable {tr : List (Ev H)} {pool : Pool (Ans (H := H)) Failure Response Call (State H)}

/-- Every command of a run is proper. -/
theorem ran_proper (h : PoolRun (service hashToken) ⟨{}, []⟩ tr pool) {e : Ev H} (he : e ∈ tr)
    {t : Call} {c : Cmd H} {r : Except Failure (Ans c)} (hlabel : e.label = .ran t c r) :
    Proper c ∧ ∃ x, respond x e.pre c = (r, e.post) := by
  refine ran_issued (P := fun _ => Proper) h (by simp) ?_ e he t c r hlabel
  rintro tags s t p s' ⟨-, rfl, -⟩
  exact issues_waitlistRouter t.req

theorem sound_run (h : PoolRun (service hashToken) ⟨{}, []⟩ tr pool) :
    Sound pool.state.signups := by
  refine Run.invariant (I := fun _ c => Sound c.state.signups) h ?_ ?_
  · constructor <;> simp
  · intro tr b e c hpre hb hs
    have hproper : ∀ t cmd r, e.label = .ran t cmd r →
        Proper cmd ∧ ∃ x, respond x e.pre cmd = (r, e.post) :=
      fun t cmd r => ran_proper (.snoc hpre hs) List.mem_cons_self
    cases hs with
    | run l₁ l₂ t cmd k r hx =>
      obtain ⟨hc, x, hrespond⟩ := hproper t cmd r rfl
      exact hb.moved hc (respond_moved hrespond)
    | start l t p hx =>
      obtain ⟨-, -, rfl⟩ := hx
      exact hb
    | finish l₁ l₂ t r => exact hb
    | env l hx =>
      obtain rfl := hx
      exact hb
    | die l₁ l₂ t p hx =>
      obtain rfl := hx
      exact hb

/-- What the table says holds throughout every run. -/
theorem signups_sound (h : PoolRun (service hashToken) ⟨{}, []⟩ tr pool) :
    Sound pool.state.signups := sound_run h

theorem signups_sound_twoSignups : Sound twoSignupsRun.2.state.signups :=
  signups_sound twoSignups_run

end Waitlist

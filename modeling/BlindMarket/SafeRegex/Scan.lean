import BlindMarket.Support.JsRegex

/-!
# The guard on regular expressions

`isSafeRegexSource` of the rubric engine, and what it refuses: a group in which
the scan saw a quantifier, with text after it that the scan takes for one. It
looks for a closing brace within 12 characters, so a longer quantifier is not
seen.
-/
namespace SafeRegex

open JsText JsRegex

/-- `/^\{\d*,?\d*\}/` -/
def looksLikeBraces : Str → Bool
  | [] => false
  | ch :: rest =>
    let bounds := rest.dropWhile isDigit
    let upper := if bounds.head? = some comma then bounds.tail else bounds
    ch = openBrace && (upper.dropWhile isDigit).head? = some closeBrace

/-- `isQuant` at the text from the current character on. -/
def isQuant (text : Str) : Bool :=
  text.head? = some star || text.head? = some plus ||
    (text.head? = some openBrace && looksLikeBraces (text.take 12))

/-- The local variables of `isSafeRegexSource`. -/
structure Scan where
  /-- Per currently open group, the innermost first. -/
  groupHasQuant : List Bool := []
  closedGroupHadQuant : Bool := false
  prevWasGroupClose : Bool := false

/-- `groupHasQuant[groupHasQuant.length - 1] = true` if `b`, when a group is open. -/
def markTop (b : Bool) : List Bool → List Bool
  | [] => []
  | had :: groups => (had || b) :: groups

/-- The text after a character class, from the character after its bracket on. -/
def skipClass : Str → Str
  | [] => []
  | ch :: rest =>
    if ch = closeBracket then rest
    else if ch = backslash then skipClass (rest.drop 1)
    else skipClass rest
termination_by text => text.length
decreasing_by all_goals grind

theorem length_skipClass (text : Str) : (skipClass text).length ≤ text.length := by
  fun_induction skipClass text <;> grind

def Scan.close (s : Scan) : Scan :=
  let had := s.groupHasQuant.headD false
  { groupHasQuant := markTop had s.groupHasQuant.tail
    closedGroupHadQuant := had
    prevWasGroupClose := true }

/-- The loop over the text that is left. -/
def scan (s : Scan) : Str → Bool
  | [] => true
  | ch :: rest =>
    if ch = backslash then
      scan { s with prevWasGroupClose := false } (rest.drop 1)
    else if ch = openBracket then
      scan { s with prevWasGroupClose := false } (skipClass rest)
    else if ch = openParen then
      scan { s with groupHasQuant := false :: s.groupHasQuant, prevWasGroupClose := false } rest
    else if ch = closeParen then
      scan s.close rest
    else if isQuant (ch :: rest) then
      if s.prevWasGroupClose && s.closedGroupHadQuant then false
      else
        scan { s with groupHasQuant := markTop true s.groupHasQuant, prevWasGroupClose := false }
          rest
    else scan { s with prevWasGroupClose := false } rest
termination_by text => text.length
decreasing_by
  all_goals
    have := length_skipClass rest
    grind

def isSafeRegexSource (src : Str) : Bool :=
  if src.length > 200 then false else scan {} src

/-! ## What the scan sees -/

/-- Some place of the name is taken for a quantifier. -/
def nameShows : Name → Str → Bool
  | [], _ => false
  | .codePoint hex _ :: name, after =>
    isQuant (openBrace :: (hex ++ closeBrace :: (Name.source name ++ after))) ||
      nameShows name after
  | _ :: name, after => nameShows name after

def headShows : GroupHead → Str → Bool
  | .named name, after => nameShows name (greater :: after)
  | _, _ => false

def atomShows : Atom → Str → Bool
  | .char ch _, after => isQuant (ch :: after)
  | .reference name, after => nameShows name (greater :: after)
  | _, _ => false

def quantifierShows (q : Option Quantifier) (after : Str) : Bool :=
  q.isSome && isQuant (quantified q ++ after)

/-- The pattern, in front of the text `after`, has a place that is taken for a quantifier. -/
def shows : Pattern → Str → Bool
  | .empty, _ => false
  | .bar rest, after => shows rest after
  | .assertion _ rest, after => shows rest after
  | .atom a q rest, after =>
    atomShows a (quantified q ++ (rest.source ++ after)) ||
      quantifierShows q (rest.source ++ after) || shows rest after
  | .group head body q rest, after =>
    let close := closeParen :: (quantified q ++ (rest.source ++ after))
    headShows head (body.source ++ close) || shows body close ||
      quantifierShows q (rest.source ++ after) || shows rest after

/-- Some group shows a quantifier and the text after it is taken for one. -/
def caught : Pattern → Str → Bool
  | .empty, _ => false
  | .bar rest, after => caught rest after
  | .assertion _ rest, after => caught rest after
  | .atom _ _ rest, after => caught rest after
  | .group head body q rest, after =>
    let behind := quantified q ++ (rest.source ++ after)
    let close := closeParen :: behind
    caught body close ||
      ((headShows head (body.source ++ close) || shows body close) && isQuant behind) ||
      caught rest after

/-! ## One step of the scan -/

variable {s : Scan} {text after rest : Str} {ch : UInt16} {b c : Bool}

@[simp] theorem markTop_false (groups : List Bool) : markTop false groups = groups := by
  cases groups <;> simp [markTop]

@[simp] theorem markTop_markTop (groups : List Bool) :
    markTop c (markTop b groups) = markTop (b || c) groups := by
  cases groups <;> simp [markTop, Bool.or_assoc]

/-- The scan refuses the text at once. -/
def Scan.refuses (s : Scan) (text : Str) : Bool :=
  s.prevWasGroupClose && s.closedGroupHadQuant && isQuant text

theorem refuses_of_prev (h : s.prevWasGroupClose = false) : s.refuses text = false := by
  simp [Scan.refuses, h]

theorem isQuant_ne (h : ch ≠ star ∧ ch ≠ plus ∧ ch ≠ openBrace) : isQuant (ch :: rest) = false := by
  simp [isQuant, h]

/-- The four characters that the scan looks at before it looks for a quantifier. -/
def isMark (ch : UInt16) : Bool := [backslash, openBracket, openParen, closeParen].contains ch

theorem not_mark (h : isMark ch = false) :
    ch ≠ backslash ∧ ch ≠ openBracket ∧ ch ≠ openParen ∧ ch ≠ closeParen := by
  simpa [isMark] using h

theorem scan_refused (hch : isMark ch = false) (h : s.refuses (ch :: rest) = true) :
    scan s (ch :: rest) = false := by
  obtain ⟨h1, h2, h3, h4⟩ := not_mark hch
  simp only [Scan.refuses, Bool.and_eq_true] at h
  simp [scan, h1, h2, h3, h4, h]

theorem isQuant_head (h : isQuant text = true) :
    ∃ ch rest, text = ch :: rest ∧ isMark ch = false := by
  cases text with
  | nil => simp [isQuant] at h
  | cons ch rest =>
    refine ⟨ch, rest, rfl, ?_⟩
    by_contra hmark
    have hne : ch ≠ star ∧ ch ≠ plus ∧ ch ≠ openBrace := by
      refine ⟨?_, ?_, ?_⟩ <;> rintro rfl <;> exact hmark (by decide)
    rw [isQuant_ne hne] at h
    cases h

/-- From any state that does not refuse it the scan passes the text, in front of `after`, and has
seen a quantifier in it if `b`. -/
def Passed (text : Str) (b : Bool) (after : Str) : Prop :=
  ∀ s : Scan, s.refuses (text ++ after) = false →
    ∃ s' : Scan, s'.prevWasGroupClose = false ∧
      s'.groupHasQuant = markTop b s.groupHasQuant ∧ scan s (text ++ after) = scan s' after

theorem Passed.append {text' : Str} (h : Passed text b (text' ++ after))
    (h' : Passed text' c after) : Passed (text ++ text') (b || c) after := by
  intro s hs
  rw [List.append_assoc] at hs ⊢
  obtain ⟨s₁, hprev₁, hgroups₁, hscan₁⟩ := h s hs
  obtain ⟨s₂, hprev₂, hgroups₂, hscan₂⟩ := h' s₁ (refuses_of_prev hprev₁)
  refine ⟨s₂, hprev₂, ?_, hscan₁.trans hscan₂⟩
  rw [hgroups₂, hgroups₁, markTop_markTop]

theorem passed_char (hch : isMark ch = false) (after : Str) :
    Passed [ch] (isQuant (ch :: after)) after := by
  obtain ⟨h1, h2, h3, h4⟩ := not_mark hch
  intro s hs
  cases hq : isQuant (ch :: after) with
  | false =>
    refine ⟨{ s with prevWasGroupClose := false }, rfl, by simp, ?_⟩
    simp [scan, h1, h2, h3, h4, hq]
  | true =>
    have hs' : ¬(s.prevWasGroupClose = true ∧ s.closedGroupHadQuant = true) := by
      rintro ⟨hp, hc⟩
      simp [Scan.refuses, hp, hc, hq] at hs
    refine ⟨{ s with groupHasQuant := markTop true s.groupHasQuant, prevWasGroupClose := false },
      rfl, rfl, ?_⟩
    simp [scan, h1, h2, h3, h4, hq, hs']

theorem passed_escape (ch : UInt16) (after : Str) : Passed [backslash, ch] false after := by
  intro s hs
  exact ⟨{ s with prevWasGroupClose := false }, rfl, by simp, by simp [scan]⟩

theorem skipClass_items (items : List ClassItem) (after : Str) :
    skipClass (items.flatMap ClassItem.source ++ closeBracket :: after) = after := by
  induction items with
  | nil => simp [skipClass]
  | cons item items ih =>
    cases item with
    | char ch h => simp [ClassItem.source, skipClass, h, ih]
    | escape ch => simp +decide [ClassItem.source, skipClass, ih]

theorem passed_class (items : List ClassItem) (after : Str) :
    Passed (Atom.charClass items).source false after := by
  intro s hs
  refine ⟨{ s with prevWasGroupClose := false }, rfl, by simp, ?_⟩
  simp +decide [Atom.source, scan, skipClass_items]

/-- The characters that change nothing. -/
def isQuiet (ch : UInt16) : Bool :=
  !isMark ch && !([star, plus, openBrace].contains ch)

theorem passed_quiet (h : isQuiet ch = true) (after : Str) : Passed [ch] false after := by
  have h' : isMark ch = false ∧ ch ≠ star ∧ ch ≠ plus ∧ ch ≠ openBrace := by
    simpa [isQuiet] using h
  have hpass := passed_char h'.1 after
  rwa [isQuant_ne h'.2] at hpass

/-- Only the first of the characters can be taken for the start of a quantifier. -/
theorem passed_cons (hch : isMark ch = false) {text : Str} (h : ∀ c ∈ text, isQuiet c = true)
    (after : Str) : Passed (ch :: text) (isQuant (ch :: (text ++ after))) after := by
  induction text generalizing ch with
  | nil => exact passed_char hch after
  | cons next text ih =>
    have hnext : isQuiet next = true := h next (by simp)
    have hfirst := passed_char hch (next :: text ++ after)
    have hrest : Passed (next :: text) false after := by
      have hmark : isMark next = false ∧ next ≠ star ∧ next ≠ plus ∧ next ≠ openBrace := by
        simpa [isQuiet] using hnext
      have hpass := ih hmark.1 fun c hc => h c (by simp [hc])
      rwa [isQuant_ne hmark.2] at hpass
    simpa using hfirst.append hrest

/-! ## Names, quantifiers and atoms -/

theorem isQuiet_hex (h : isHexDigit ch = true) : isQuiet ch = true := by
  have hne : ∀ c ∈ [backslash, openBracket, openParen, closeParen, star, plus, openBrace],
      ch ≠ c := by
    intro c hc
    rintro rfl
    revert h
    fin_cases hc <;> decide
  simp only [List.forall_mem_cons] at hne
  simp [isQuiet, isMark, hne]

theorem isQuiet_digit (h : isDigit ch = true) : isQuiet ch = true :=
  isQuiet_hex (by simp [isHexDigit, h])

theorem isMark_of_plain (h : isSyntaxChar ch = false) : isMark ch = false := by
  have h' : ch ≠ backslash ∧ ch ≠ openParen ∧ ch ≠ closeParen ∧ ch ≠ openBracket := by
    simp only [isSyntaxChar] at h
    simp at h
    tauto
  simp [isMark, h']

theorem isQuiet_of_plain (h : isSyntaxChar ch = false) (hb : ch ≠ openBrace) :
    isQuiet ch = true := by
  have hmark := isMark_of_plain h
  have h' : ch ≠ star ∧ ch ≠ plus := by
    simp only [isSyntaxChar] at h
    simp at h
    tauto
  simp [isQuiet, hmark, h', hb]

/-- Characters that change nothing, in a row. -/
theorem passed_quiets {text text' : Str} (h : text.all isQuiet = true)
    (h' : Passed text' b after) : Passed (text ++ text') b after := by
  induction text with
  | nil => exact h'
  | cons ch text ih =>
    obtain ⟨hch, htext⟩ : isQuiet ch = true ∧ text.all isQuiet = true := by simpa using h
    simpa using (passed_quiet hch ((text ++ text') ++ after)).append (ih htext)

theorem passed_name (name : Name) (after : Str) :
    Passed (Name.source name ++ [greater]) (nameShows name (greater :: after)) after := by
  induction name with
  | nil => exact passed_quiet (by decide) after
  | cons part name ih =>
    have hgreater : Name.source name ++ [greater] ++ after =
        Name.source name ++ greater :: after := by simp
    cases part with
    | char ch h =>
      have hpass := (passed_quiet (isQuiet_of_plain h.1 h.2.2) _).append ih
      simpa [Name.source, NamePart.source, nameShows] using hpass
    | unicode hex h =>
      have hpass := (passed_escape letterU _).append
        (passed_quiets (List.all_eq_true.2 fun c hc => isQuiet_hex (h c hc)) ih)
      simpa [Name.source, NamePart.source, nameShows] using hpass
    | codePoint hex h =>
      have hquiet : ∀ c ∈ hex ++ [closeBrace], isQuiet c = true := by
        intro c hc
        rcases List.mem_append.1 hc with hc | hc
        · exact isQuiet_hex (h c hc)
        · obtain rfl := List.mem_singleton.1 hc
          decide
      have hbrace := passed_cons (by decide : isMark openBrace = false) hquiet
        (Name.source name ++ [greater] ++ after)
      have hpass := (passed_escape letterU _).append (hbrace.append ih)
      simpa [Name.source, NamePart.source, nameShows] using hpass

/-- A quantifier is seen at its first character or not at all. -/
theorem passed_kind (kind : QuantifierKind) (after : Str) :
    Passed kind.source (isQuant (kind.source ++ after)) after := by
  have hdigits (n : Digits) : ∀ c ∈ n.text, isQuiet c = true :=
    fun c hc => isQuiet_digit (n.digits c hc)
  have hcomma : isQuiet comma = true := by decide
  have hclose : isQuiet closeBrace = true := by decide
  cases kind with
  | star => exact passed_char (by decide) after
  | plus => exact passed_char (by decide) after
  | optional => exact passed_char (by decide) after
  | exactly n =>
    refine passed_cons (by decide) ?_ after
    simpa [or_imp, forall_and] using ⟨hdigits n, hclose⟩
  | atLeast n =>
    refine passed_cons (by decide) ?_ after
    simpa [or_imp, forall_and] using ⟨hdigits n, hcomma, hclose⟩
  | between n m =>
    refine passed_cons (by decide) ?_ after
    simpa [or_imp, forall_and] using ⟨hdigits n, hcomma, hdigits m, hclose⟩

theorem passed_quantifier (q : Quantifier) (after : Str) :
    Passed q.source (isQuant (q.source ++ after)) after := by
  rw [Quantifier.source]
  cases q.lazy with
  | false => simpa using passed_kind q.kind after
  | true =>
    have hlazy : Passed [question] false after := passed_quiet (by decide) after
    simpa using (passed_kind q.kind ([question] ++ after)).append hlazy

theorem passed_assertion (a : Assertion) (after : Str) : Passed a.source false after := by
  cases a with
  | start => exact passed_quiet (by decide) after
  | finish => exact passed_quiet (by decide) after
  | wordBoundary => exact passed_escape _ after
  | notWordBoundary => exact passed_escape _ after

theorem passed_atom (a : Atom) (after : Str) : Passed a.source (atomShows a after) after := by
  cases a with
  | char ch h => exact passed_char (isMark_of_plain h) after
  | any => exact passed_quiet (by decide) after
  | escape ch h => exact passed_escape ch after
  | reference name =>
    have hless : Passed [less] false (Name.source name ++ [greater] ++ after) :=
      passed_quiet (by decide) _
    have hpass := (passed_escape letterK _).append (hless.append (passed_name name after))
    simpa [Atom.source, atomShows] using hpass
  | charClass items => exact passed_class items after

/-! ## Groups -/

/-- A group's head opens a group that holds what its name shows. -/
theorem scan_head (head : GroupHead) (s : Scan) (after : Str) :
    ∃ s' : Scan, s'.prevWasGroupClose = false ∧
      s'.groupHasQuant = headShows head after :: s.groupHasQuant ∧
      scan s (head.source ++ after) = scan s' after := by
  have hopen (tail : Str) : scan s (openParen :: tail) =
      scan { s with groupHasQuant := false :: s.groupHasQuant, prevWasGroupClose := false } tail := by
    simp +decide [scan]
  -- What follows the parenthesis is passed with the new group on top.
  have hpassed {text : Str} {b : Bool} (h : Passed text b after) :
      ∃ s' : Scan, s'.prevWasGroupClose = false ∧ s'.groupHasQuant = b :: s.groupHasQuant ∧
        scan s (openParen :: (text ++ after)) = scan s' after := by
    obtain ⟨s', hprev, hgroups, hscan⟩ := h
      { s with groupHasQuant := false :: s.groupHasQuant, prevWasGroupClose := false }
      (refuses_of_prev rfl)
    exact ⟨s', hprev, by simpa [markTop] using hgroups, (hopen _).trans hscan⟩
  have hquiet (text : Str) (last : UInt16) (h : text.all isQuiet = true)
      (hlast : isQuiet last = true) : Passed (text ++ [last]) false after :=
    passed_quiets h (passed_quiet hlast after)
  cases head with
  | capture => exact ⟨_, rfl, rfl, hopen after⟩
  | plain => exact hpassed (hquiet [question] colon (by decide) (by decide))
  | named name =>
    have hpass := passed_quiets (by decide : [question, less].all isQuiet = true) (passed_name name after)
    simpa [GroupHead.source, headShows] using hpassed hpass
  | modifiers on off =>
    have hcode : ∀ m : Modifier, isQuiet m.code = true := by intro m; cases m <;> decide
    have hflags : (question :: (on.map Modifier.code ++
        (off.elim [] fun off => minus :: off.map Modifier.code))).all isQuiet = true := by
      have hends : isQuiet question = true ∧ isQuiet minus = true := by decide
      cases off with
      | none => simp [hcode, hends]
      | some off => simp [hcode, hends]
    have hpass := hquiet _ colon hflags (by decide)
    simpa [GroupHead.source, headShows] using hpassed hpass
  | lookahead negative =>
    cases negative with
    | false => exact hpassed (hquiet [question] equals (by decide) (by decide))
    | true => exact hpassed (hquiet [question] bang (by decide) (by decide))
  | lookbehind negative =>
    cases negative with
    | false => exact hpassed (hquiet [question, less] equals (by decide) (by decide))
    | true => exact hpassed (hquiet [question, less] bang (by decide) (by decide))

theorem scan_close (s : Scan) (rest : Str) :
    scan s (closeParen :: rest) = scan s.close rest := by
  simp +decide [scan]

/-- The scan of a pattern: it refuses what is caught, and else has seen what is shown. -/
theorem scan_pattern (p : Pattern) (s : Scan) (after : Str)
    (hs : s.refuses (p.source ++ after) = false) :
    ∃ s' : Scan, s'.groupHasQuant = markTop (shows p after) s.groupHasQuant ∧
      scan s (p.source ++ after) = (!caught p after && scan s' after) := by
  induction p generalizing s after with
  | empty => exact ⟨s, by simp [shows], by simp [caught, Pattern.source]⟩
  | bar rest ih =>
    obtain ⟨s₁, hprev, hgroups, hscan⟩ :=
      passed_quiet (by decide : isQuiet JsRegex.bar = true) (rest.source ++ after) s hs
    obtain ⟨s', hgroups', hscan'⟩ := ih s₁ after (refuses_of_prev hprev)
    exact ⟨s', by simp [hgroups', hgroups, shows], hscan.trans hscan'⟩
  | assertion a rest ih =>
    rw [Pattern.source, List.append_assoc] at hs ⊢
    obtain ⟨s₁, hprev, hgroups, hscan⟩ := passed_assertion a (rest.source ++ after) s hs
    obtain ⟨s', hgroups', hscan'⟩ := ih s₁ after (refuses_of_prev hprev)
    exact ⟨s', by simp [hgroups', hgroups, shows], hscan.trans hscan'⟩
  | atom a q rest ih =>
    have hatom : Passed (a.source ++ quantified q)
        (atomShows a (quantified q ++ (rest.source ++ after)) ||
          quantifierShows q (rest.source ++ after)) (rest.source ++ after) := by
      cases q with
      | none => simpa [quantified, quantifierShows] using passed_atom a (rest.source ++ after)
      | some q => exact (passed_atom a _).append (passed_quantifier q _)
    have htext : (Pattern.atom a q rest).source ++ after =
        a.source ++ quantified q ++ (rest.source ++ after) := by simp [Pattern.source]
    rw [htext] at hs ⊢
    obtain ⟨s₁, hprev, hgroups, hscan⟩ := hatom s hs
    obtain ⟨s', hgroups', hscan'⟩ := ih s₁ after (refuses_of_prev hprev)
    exact ⟨s', by simp [hgroups', hgroups, shows, Bool.or_assoc], hscan.trans hscan'⟩
  | group head body q rest ihbody ihrest =>
    generalize hbehind : quantified q ++ (rest.source ++ after) = behind
    have htext : (Pattern.group head body q rest).source ++ after =
        head.source ++ (body.source ++ closeParen :: behind) := by
      simp [Pattern.source, ← hbehind]
    rw [htext]
    obtain ⟨s₁, hprev₁, hgroups₁, hscan₁⟩ :=
      scan_head head s (body.source ++ closeParen :: behind)
    obtain ⟨s₂, hgroups₂, hscan₂⟩ :=
      ihbody s₁ (closeParen :: behind) (refuses_of_prev hprev₁)
    generalize hhad : (headShows head (body.source ++ closeParen :: behind) ||
      shows body (closeParen :: behind)) = had
    have htop : s₂.groupHasQuant = had :: s.groupHasQuant := by
      rw [hgroups₂, hgroups₁, ← hhad]
      rfl
    have hclosed : s₂.close.groupHasQuant = markTop had s.groupHasQuant ∧
        s₂.close.refuses behind = (had && isQuant behind) := by
      simp [Scan.close, Scan.refuses, htop]
    rw [hscan₁, hscan₂, scan_close]
    cases hrefused : had && isQuant behind with
    | true =>
      -- The text after the group is taken for a quantifier: nothing after it is read.
      have hquant : isQuant behind = true := by simp_all
      obtain ⟨ch, tail, rfl, hmark⟩ := isQuant_head hquant
      have hfalse := scan_refused hmark (hclosed.2.trans hrefused)
      exact ⟨{ groupHasQuant := markTop (shows (.group head body q rest) after) s.groupHasQuant },
        rfl, by simp [hfalse, caught, hbehind, hhad, hrefused]⟩
    | false =>
      have hfree : s₂.close.refuses behind = false := hclosed.2.trans hrefused
      obtain ⟨s₃, hfree₃, hgroups₃, hscan₃⟩ : ∃ s₃ : Scan,
          s₃.refuses (rest.source ++ after) = false ∧
          s₃.groupHasQuant = markTop (had || quantifierShows q (rest.source ++ after))
            s.groupHasQuant ∧
          scan s₂.close behind = scan s₃ (rest.source ++ after) := by
        subst hbehind
        cases q with
        | none => exact ⟨s₂.close, hfree, by simp [hclosed.1, quantifierShows], rfl⟩
        | some q =>
          obtain ⟨s₃, hprev₃, hgroups₃, hscan₃⟩ := passed_quantifier q (rest.source ++ after) s₂.close hfree
          refine ⟨s₃, refuses_of_prev hprev₃, ?_, hscan₃⟩
          rw [hgroups₃, hclosed.1, markTop_markTop]
          rfl
      obtain ⟨s', hgroups', hscan'⟩ := ihrest s₃ after hfree₃
      refine ⟨s', ?_, ?_⟩
      · rw [hgroups', hgroups₃, markTop_markTop]
        simp only [shows, hbehind, hhad]
      · rw [hscan₃, hscan']
        simp only [caught, hbehind, hhad, hrefused, Bool.or_false]
        cases caught body (closeParen :: behind) <;> simp

/-- The guard accepts a source that is short enough and in which nothing is caught. -/
theorem isSafeRegexSource_eq (p : Pattern) :
    isSafeRegexSource p.source = (decide (p.source.length ≤ 200) && !caught p []) := by
  obtain ⟨s', -, hscan⟩ := scan_pattern p {} [] rfl
  have hend : scan s' [] = true := by simp [scan]
  rw [List.append_nil, hend, Bool.and_true] at hscan
  rw [isSafeRegexSource, hscan]
  by_cases hlen : 200 < p.source.length
  · simp [hlen]
  · simp [hlen, not_lt.1 hlen]

end SafeRegex

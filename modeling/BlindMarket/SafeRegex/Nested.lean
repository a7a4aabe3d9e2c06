import BlindMarket.SafeRegex.Scan

/-!
# Nested quantifiers

What the guard lets through: a quantified group that holds a quantifier, where
one of the two is written in more than the 12 characters the scan looks at.
-/
namespace SafeRegex

open JsText JsRegex

/-- A repeating quantifier of more than 12 characters: its closing brace is out of sight. -/
def isLong (q : Quantifier) : Bool := q.repeats && decide (12 < q.kind.source.length)

variable {p : Pattern} {q : Quantifier} {kind : QuantifierKind} {rest src : Str}

theorem dropWhile_digits (n : Digits) {ch : UInt16} (h : isDigit ch = false) (rest : Str) :
    (n.text ++ ch :: rest).dropWhile isDigit = ch :: rest := by
  rw [List.dropWhile_append_of_pos n.digits, List.dropWhile_cons_of_neg (by simp [h])]

/-- The scan sees every repeating quantifier that is short enough. -/
theorem isQuant_source (h : q.repeats = true) (hshort : isLong q = false) (rest : Str) :
    isQuant (q.source ++ rest) = true := by
  obtain ⟨kind, lazy⟩ := q
  have hlen : kind.source.length ≤ 12 := by simpa [isLong, h] using hshort
  have htake (tail : Str) : (kind.source ++ tail).take 12 =
      kind.source ++ tail.take (12 - kind.source.length) := by
    rw [List.take_append, List.take_of_length_le hlen]
  have hclose : isDigit closeBrace = false ∧ isDigit comma = false := by decide
  rw [Quantifier.source, List.append_assoc]
  generalize (if lazy then [question] else []) ++ rest = tail
  cases kind with
  | star => rfl
  | plus => rfl
  | optional => cases h
  | exactly n =>
    have hlook (tail : Str) :
        looksLikeBraces ((QuantifierKind.exactly n).source ++ tail) = true := by
      simp +decide [QuantifierKind.source, looksLikeBraces, dropWhile_digits n hclose.1]
    rw [isQuant, htake, hlook]
    simp [QuantifierKind.source]
  | atLeast n =>
    have hlook (tail : Str) :
        looksLikeBraces ((QuantifierKind.atLeast n).source ++ tail) = true := by
      simp +decide [QuantifierKind.source, looksLikeBraces, dropWhile_digits n hclose.2]
    rw [isQuant, htake, hlook]
    simp [QuantifierKind.source]
  | between n m hle =>
    have hlook (tail : Str) :
        looksLikeBraces ((QuantifierKind.between n m hle).source ++ tail) = true := by
      simp +decide [QuantifierKind.source, looksLikeBraces, dropWhile_digits n hclose.2,
        dropWhile_digits m hclose.1]
    rw [isQuant, htake, hlook]
    simp [QuantifierKind.source]

theorem quantifierShows_of_short (h : (some q).any Quantifier.repeats = true)
    (hshort : isLong q = false) (after : Str) : quantifierShows (some q) after = true := by
  simpa [quantifierShows, quantified] using isQuant_source (by simpa using h) hshort after

/-- A quantifier in the pattern is too long, or seen. -/
theorem holds_repeats (p : Pattern) (h : p.holds Quantifier.repeats = true) (after : Str) :
    p.holds isLong = true ∨ shows p after = true := by
  induction p generalizing after with
  | empty => cases h
  | bar rest ih => exact ih h after
  | assertion a rest ih => exact ih h after
  | atom a q rest ih =>
    rcases Bool.or_eq_true_iff.1 h with hq | hrest
    · cases q with
      | none => cases hq
      | some q =>
        cases hlong : isLong q with
        | true => exact .inl (by simp [Pattern.holds, hlong])
        | false =>
          have hseen := quantifierShows_of_short hq hlong (rest.source ++ after)
          exact .inr (by simp [shows, hseen])
    · rcases ih hrest after with hlong | hseen
      · exact .inl (by simp [Pattern.holds, hlong])
      · exact .inr (by simp [shows, hseen])
  | group head body q rest ihbody ihrest =>
    have hcases : body.holds Quantifier.repeats = true ∨ q.any Quantifier.repeats = true ∨
        rest.holds Quantifier.repeats = true := by
      simpa [Pattern.holds, or_assoc] using h
    rcases hcases with hbody | hq | hrest
    · rcases ihbody hbody (closeParen :: (quantified q ++ (rest.source ++ after))) with
        hlong | hseen
      · exact .inl (by simp [Pattern.holds, hlong])
      · exact .inr (by simp [shows, hseen])
    · cases q with
      | none => cases hq
      | some q =>
        cases hlong : isLong q with
        | true => exact .inl (by simp [Pattern.holds, hlong])
        | false =>
          have hseen := quantifierShows_of_short hq hlong (rest.source ++ after)
          exact .inr (by simp [shows, hseen])
    · rcases ihrest hrest after with hlong | hseen
      · exact .inl (by simp [Pattern.holds, hlong])
      · exact .inr (by simp [shows, hseen])

/-- A quantifier after a group that holds one is caught, or one of the two is too long. -/
theorem nests_repeats (p : Pattern)
    (h : p.nests Quantifier.repeats Quantifier.repeats = true) (after : Str) :
    caught p after = true ∨ p.nests isLong Quantifier.repeats = true ∨
      p.nests Quantifier.repeats isLong = true := by
  induction p generalizing after with
  | empty => cases h
  | bar rest ih => exact ih h after
  | assertion a rest ih => exact ih h after
  | atom a q rest ih => exact ih h after
  | group head body q rest ihbody ihrest =>
    have hcases : (body.holds Quantifier.repeats = true ∧ q.any Quantifier.repeats = true) ∨
        body.nests Quantifier.repeats Quantifier.repeats = true ∨
        rest.nests Quantifier.repeats Quantifier.repeats = true := by
      simpa [Pattern.nests, or_assoc] using h
    rcases hcases with ⟨hbody, hq⟩ | hbody | hrest
    · cases q with
      | none => cases hq
      | some q =>
        cases hlong : isLong q with
        | true =>
          right; right
          simp [Pattern.nests, hbody, hlong]
        | false =>
          have hbehind := isQuant_source (by simpa using hq) hlong (rest.source ++ after)
          rcases holds_repeats body hbody
            (closeParen :: (quantified (some q) ++ (rest.source ++ after))) with hinner | hseen
          · right; left
            have hq' : q.repeats = true := by simpa using hq
            simp [Pattern.nests, hinner, hq']
          · left
            have hquant : isQuant (quantified (some q) ++ (rest.source ++ after)) = true := hbehind
            simp [caught, hseen, hquant]
    · rcases ihbody hbody (closeParen :: (quantified q ++ (rest.source ++ after))) with
        hc | hl | hl
      · exact .inl (by simp [caught, hc])
      · exact .inr (.inl (by simp [Pattern.nests, hl]))
      · exact .inr (.inr (by simp [Pattern.nests, hl]))
    · rcases ihrest hrest after with hc | hl | hl
      · exact .inl (by simp [caught, hc])
      · exact .inr (.inl (by simp [Pattern.nests, hl]))
      · exact .inr (.inr (by simp [Pattern.nests, hl]))

theorem repeats_of_long (h : isLong q = true) : q.repeats = true := by
  simp_all [isLong]

/-- An accepted source has no nested quantifiers, or a pair of them is partly out of sight. -/
theorem nests_of_accepted (h : isSafeRegexSource p.source = true)
    (hnests : p.nests Quantifier.repeats Quantifier.repeats = true) :
    p.nests isLong Quantifier.repeats = true ∨ p.nests Quantifier.repeats isLong = true := by
  rw [isSafeRegexSource_eq] at h
  have hc : caught p [] = false := by simp_all
  rcases nests_repeats p hnests [] with hcaught | hlong
  · rw [hc] at hcaught
    cases hcaught
  · exact hlong

/-- `(a+)` with the quantifier after it. -/
def repeated (q : QuantifierKind) : Pattern :=
  .group .capture (.atom (.char 97 (by decide)) (some ⟨.plus, false⟩) .empty) (some ⟨q, false⟩)
    .empty

/-- `{00000000001,}`, in 14 characters. -/
def padded : QuantifierKind :=
  .atLeast ⟨ascii "00000000001", by decide, List.all_eq_true.1 (by decide)⟩

theorem repeated_padded_reads : (repeated padded).Reads (ascii "(a+){00000000001,}") where
  source := by decide
  valid := by
    refine ⟨⟨?_, trivial⟩, trivial⟩
    decide

end SafeRegex

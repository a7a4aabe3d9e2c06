import BlindMarket.Support.JsText

/-!
# JavaScript regular expression sources

The grammar of a pattern without the `u` and `v` flags, with the extensions
every browser and Node take: a brace that opens no quantifier, a closing brace
and a closing bracket stand for themselves, and a look-ahead can be repeated.
A pattern is kept as the sequence of its terms and bars. An escape is its
backslash and the character after it, and what is left of a longer one
(`\x41`, `\cJ`) reads as the characters it is written in.

The rules that only refuse more sources (a group name used twice, a class range
out of order, which names are identifiers) are left out.
-/
namespace JsRegex

open JsText

abbrev bang : UInt16 := 33
abbrev dollar : UInt16 := 36
abbrev openParen : UInt16 := 40
abbrev closeParen : UInt16 := 41
abbrev star : UInt16 := 42
abbrev plus : UInt16 := 43
abbrev comma : UInt16 := 44
abbrev minus : UInt16 := 45
abbrev dot : UInt16 := 46
abbrev colon : UInt16 := 58
abbrev less : UInt16 := 60
abbrev equals : UInt16 := 61
abbrev greater : UInt16 := 62
abbrev question : UInt16 := 63
abbrev openBracket : UInt16 := 91
abbrev backslash : UInt16 := 92
abbrev closeBracket : UInt16 := 93
abbrev caret : UInt16 := 94
abbrev letterK : UInt16 := 107
abbrev letterU : UInt16 := 117
abbrev openBrace : UInt16 := 123
abbrev bar : UInt16 := 124
abbrev closeBrace : UInt16 := 125

def isDigit (ch : UInt16) : Bool := 48 ≤ ch && ch ≤ 57

def isHexDigit (ch : UInt16) : Bool :=
  isDigit ch || (65 ≤ ch && ch ≤ 70) || (97 ≤ ch && ch ≤ 102)

/-- The characters that a pattern gives a meaning of their own. -/
def isSyntaxChar (ch : UInt16) : Bool :=
  [caret, dollar, backslash, dot, star, plus, question, openParen, closeParen, openBracket,
    bar].contains ch

structure Digits where
  text : Str
  nonempty : text ≠ []
  digits : ∀ ch ∈ text, isDigit ch = true

def Digits.value (n : Digits) : Nat := n.text.foldl (fun v ch => 10 * v + (ch.toNat - 48)) 0

inductive QuantifierKind
  | star
  | plus
  | optional
  | exactly (n : Digits)
  | atLeast (n : Digits)
  | between (n m : Digits) (h : n.value ≤ m.value)

def QuantifierKind.source : QuantifierKind → Str
  | .star => [JsRegex.star]
  | .plus => [JsRegex.plus]
  | .optional => [question]
  | .exactly n => openBrace :: (n.text ++ [closeBrace])
  | .atLeast n => openBrace :: (n.text ++ [comma, closeBrace])
  | .between n m _ => openBrace :: (n.text ++ comma :: (m.text ++ [closeBrace]))

structure Quantifier where
  kind : QuantifierKind
  lazy : Bool := false

def Quantifier.source (q : Quantifier) : Str :=
  q.kind.source ++ if q.lazy then [question] else []

/-- `*`, `+` or one with braces. -/
def Quantifier.repeats (q : Quantifier) : Bool :=
  match q.kind with
  | .optional => false
  | _ => true

/-- A part of a group's name. -/
inductive NamePart
  | char (ch : UInt16)
      (h : isSyntaxChar ch = false ∧ ch ≠ greater ∧ ch ≠ openBrace)
  | unicode (hex : Str) (h : ∀ ch ∈ hex, isHexDigit ch = true)
  | codePoint (hex : Str) (h : ∀ ch ∈ hex, isHexDigit ch = true)

def NamePart.source : NamePart → Str
  | .char ch _ => [ch]
  | .unicode hex _ => backslash :: letterU :: hex
  | .codePoint hex _ => backslash :: letterU :: openBrace :: (hex ++ [closeBrace])

abbrev Name := List NamePart

def Name.source (name : Name) : Str := name.flatMap NamePart.source

inductive ClassItem
  | char (ch : UInt16) (h : ch ≠ backslash ∧ ch ≠ closeBracket)
  | escape (ch : UInt16)

def ClassItem.source : ClassItem → Str
  | .char ch _ => [ch]
  | .escape ch => [backslash, ch]

inductive Assertion
  | start
  | finish
  | wordBoundary
  | notWordBoundary

def Assertion.source : Assertion → Str
  | .start => [caret]
  | .finish => [dollar]
  | .wordBoundary => [backslash, 98]
  | .notWordBoundary => [backslash, 66]

inductive Atom
  | char (ch : UInt16) (h : isSyntaxChar ch = false)
  | any
  | escape (ch : UInt16) (h : ch ≠ 98 ∧ ch ≠ 66)
  | reference (name : Name)
  | charClass (items : List ClassItem)

def Atom.source : Atom → Str
  | .char ch _ => [ch]
  | .any => [dot]
  | .escape ch _ => [backslash, ch]
  | .reference name => backslash :: letterK :: less :: (name.source ++ [greater])
  | .charClass items => openBracket :: (items.flatMap ClassItem.source ++ [closeBracket])

/-- A flag that a group turns on or off. -/
inductive Modifier
  | ignoreCase
  | multiline
  | dotAll

def Modifier.code : Modifier → UInt16
  | .ignoreCase => 105
  | .multiline => 109
  | .dotAll => 115

inductive GroupHead
  | capture
  | plain
  | named (name : Name)
  | modifiers (on : List Modifier) (off : Option (List Modifier))
  | lookahead (negative : Bool)
  | lookbehind (negative : Bool)

def GroupHead.source : GroupHead → Str
  | .capture => [openParen]
  | .plain => [openParen, question, colon]
  | .named name => openParen :: question :: less :: (name.source ++ [greater])
  | .modifiers on off =>
    openParen :: question :: (on.map Modifier.code ++
      (off.elim [] fun off => minus :: off.map Modifier.code) ++ [colon])
  | .lookahead negative => [openParen, question, if negative then bang else equals]
  | .lookbehind negative => [openParen, question, less, if negative then bang else equals]

/-- The terms and bars of a pattern. -/
inductive Pattern
  | empty
  | bar (rest : Pattern)
  | assertion (a : Assertion) (rest : Pattern)
  | atom (a : Atom) (q : Option Quantifier) (rest : Pattern)
  | group (head : GroupHead) (body : Pattern) (q : Option Quantifier) (rest : Pattern)

/-- The text of a quantifier, if there is one. -/
def quantified (q : Option Quantifier) : Str := q.elim [] Quantifier.source

def Pattern.source : Pattern → Str
  | .empty => []
  | .bar rest => JsRegex.bar :: rest.source
  | .assertion a rest => a.source ++ rest.source
  | .atom a q rest => a.source ++ (quantified q ++ rest.source)
  | .group head body q rest =>
    head.source ++ (body.source ++ closeParen :: (quantified q ++ rest.source))

/-- The text starts with a quantifier in braces. -/
def opensBraces : Str → Bool
  | [] => false
  | ch :: rest =>
    let bounds := rest.dropWhile isDigit
    ch = openBrace && (rest.head?.any isDigit) && (bounds.head? = some closeBrace ||
      (bounds.head? = some comma && (bounds.tail.dropWhile isDigit).head? = some closeBrace))

/-- No brace that opens a quantifier is read as a character, and no look-behind is repeated. -/
def Pattern.Valid : Pattern → Prop
  | .empty => True
  | .bar rest => rest.Valid
  | .assertion _ rest => rest.Valid
  | .atom (.char ch _) q rest =>
    opensBraces (ch :: (quantified q ++ rest.source)) = false ∧ rest.Valid
  | .atom _ _ rest => rest.Valid
  | .group (.lookbehind _) body q rest => body.Valid ∧ q.isNone = true ∧ rest.Valid
  | .group _ body _ rest => body.Valid ∧ rest.Valid

/-- The pattern is what the source says. -/
structure Pattern.Reads (p : Pattern) (src : Str) : Prop where
  source : p.source = src
  valid : p.Valid

/-- The pattern holds such a quantifier, at any depth. -/
def Pattern.holds (such : Quantifier → Bool) : Pattern → Bool
  | .empty => false
  | .bar rest => rest.holds such
  | .assertion _ rest => rest.holds such
  | .atom _ q rest => q.any such || rest.holds such
  | .group _ body q rest => body.holds such || q.any such || rest.holds such

/-- Some group of the pattern, at any depth, holds the one kind of quantifier and is followed by
one of the other. -/
def Pattern.nests (inner outer : Quantifier → Bool) : Pattern → Bool
  | .empty => false
  | .bar rest => rest.nests inner outer
  | .assertion _ rest => rest.nests inner outer
  | .atom _ _ rest => rest.nests inner outer
  | .group _ body q rest =>
    (body.holds inner && q.any outer) || body.nests inner outer || rest.nests inner outer

theorem Pattern.holds_mono {such such' : Quantifier → Bool}
    (hsuch : ∀ q, such q = true → such' q = true) {p : Pattern} (h : p.holds such = true) :
    p.holds such' = true := by
  have hq (q : Option Quantifier) (h : q.any such = true) : q.any such' = true := by
    cases q with
    | none => exact h
    | some q => exact hsuch q h
  induction p with
  | empty => exact h
  | bar rest ih => exact ih h
  | assertion a rest ih => exact ih h
  | atom a q rest ih =>
    rcases Bool.or_eq_true_iff.1 h with h | h
    · simp [Pattern.holds, hq q h]
    · simp [Pattern.holds, ih h]
  | group head body q rest ihbody ihrest =>
    have hcases : body.holds such = true ∨ q.any such = true ∨ rest.holds such = true := by
      simpa [Pattern.holds, or_assoc] using h
    rcases hcases with h | h | h
    · simp [Pattern.holds, ihbody h]
    · simp [Pattern.holds, hq q h]
    · simp [Pattern.holds, ihrest h]

theorem Pattern.nests_mono {inner inner' outer outer' : Quantifier → Bool}
    (hinner : ∀ q, inner q = true → inner' q = true)
    (houter : ∀ q, outer q = true → outer' q = true) {p : Pattern}
    (h : p.nests inner outer = true) : p.nests inner' outer' = true := by
  induction p with
  | empty => exact h
  | bar rest ih => exact ih h
  | assertion a rest ih => exact ih h
  | atom a q rest ih => exact ih h
  | group head body q rest ihbody ihrest =>
    have hcases : (body.holds inner = true ∧ q.any outer = true) ∨
        body.nests inner outer = true ∨ rest.nests inner outer = true := by
      simpa [Pattern.nests, or_assoc] using h
    rcases hcases with ⟨hbody, hq⟩ | h | h
    · cases q with
      | none => cases hq
      | some q => simp [Pattern.nests, holds_mono hinner hbody, houter q hq]
    · simp [Pattern.nests, ihbody h]
    · simp [Pattern.nests, ihrest h]

end JsRegex

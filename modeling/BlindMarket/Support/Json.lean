import BlindMarket.Support.JsText

/-!
# JSON texts

`JSON.stringify` of a JSON value, and the UTF-8 length of a string. A number is
kept as its text.
-/
namespace Json

open JsText

mutual

inductive Value where
  | null
  | bool (b : Bool)
  | num (text : Str)
  | str (s : Str)
  | arr (items : Items)
  | obj (fields : Fields)
  deriving DecidableEq

inductive Items where
  | nil
  | cons (v : Value) (items : Items)
  deriving DecidableEq

inductive Fields where
  | nil
  | cons (key : Str) (v : Value) (fields : Fields)
  deriving DecidableEq

end

def Items.ofList : List Value → Items
  | [] => .nil
  | v :: items => .cons v (ofList items)

/-- A field set in its place, or put at the end. -/
def Fields.set (key : Str) (v : Value) : Fields → Fields
  | .nil => .cons key v .nil
  | .cons key' v' fields =>
    if key' = key then .cons key v fields else .cons key' v' (fields.set key v)

def isHigh (ch : UInt16) : Bool := 0xD800 ≤ ch && ch ≤ 0xDBFF

def isLow (ch : UInt16) : Bool := 0xDC00 ≤ ch && ch ≤ 0xDFFF

/-- `Buffer.byteLength(s, 'utf8')`: a pair of surrogates takes four bytes, one alone becomes the
three bytes of the replacement character. -/
def byteLength : Str → Nat
  | [] => 0
  | [ch] => unitLength ch
  | ch :: ch' :: rest =>
    if isHigh ch && isLow ch' then 4 + byteLength rest else unitLength ch + byteLength (ch' :: rest)
where
  unitLength (ch : UInt16) : Nat := if ch < 0x80 then 1 else if ch < 0x800 then 2 else 3

def hexDigit (n : UInt16) : UInt16 := if n < 10 then 48 + n else 87 + n

/-- A backslash, a `u` and four digits. -/
def unicodeEscape (ch : UInt16) : Str :=
  ascii "\\u" ++ [hexDigit (ch >>> 12), hexDigit ((ch >>> 8) % 16), hexDigit ((ch >>> 4) % 16),
    hexDigit (ch % 16)]

/-- One code unit inside quotes, if it is not of a pair. -/
def escape (ch : UInt16) : Str :=
  if ch = 34 then ascii "\\\""
  else if ch = 92 then ascii "\\\\"
  else if ch = 8 then ascii "\\b"
  else if ch = 9 then ascii "\\t"
  else if ch = 10 then ascii "\\n"
  else if ch = 12 then ascii "\\f"
  else if ch = 13 then ascii "\\r"
  else if ch < 32 || isHigh ch || isLow ch then unicodeEscape ch
  else [ch]

def escapeAll : Str → Str
  | [] => []
  | [ch] => escape ch
  | ch :: ch' :: rest =>
    if isHigh ch && isLow ch' then ch :: ch' :: escapeAll rest
    else escape ch ++ escapeAll (ch' :: rest)

def quote (s : Str) : Str := [34] ++ escapeAll s ++ [34]

mutual

def stringify : Value → Str
  | .null => ascii "null"
  | .bool b => if b then ascii "true" else ascii "false"
  | .num text => text
  | .str s => quote s
  | .arr items => ascii "[" ++ (ascii ",").intercalate (stringifyItems items) ++ ascii "]"
  | .obj fields => ascii "\x7b" ++ (ascii ",").intercalate (stringifyFields fields) ++ ascii "\x7d"

def stringifyItems : Items → List Str
  | .nil => []
  | .cons v items => stringify v :: stringifyItems items

def stringifyFields : Fields → List Str
  | .nil => []
  | .cons key v fields => (quote key ++ ascii ":" ++ stringify v) :: stringifyFields fields

end

example : stringify (.obj (.cons (ascii "a") (.arr (.cons (.str (ascii "\"")) .nil)) .nil)) =
    ascii "\x7b\"a\":[\"\\\"\"]\x7d" := by decide

end Json

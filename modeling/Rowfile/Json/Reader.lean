import Rowfile.Json.Basic
import Rowfile.Json.FloatReader

/-!
# Reading documents

A document is read from its characters by the grammar of the format: no comments, no trailing
commas, no leading zeros, no control characters within texts, and nothing but blanks after the
document. How the digits of a number are read is left to a `FloatReader`. The fuel of the recursive
readers is the length of the text, which no reading uses up.
-/
namespace Rowfile.Json

/-- Space, tab, line feed and carriage return. -/
def isBlank (c : Char) : Bool := c == ' ' || c == '\t' || c == '\n' || c == '\x0d'

def skipBlanks (cs : List Char) : List Char := cs.dropWhile isBlank

def hexDigit? (c : Char) : Option Nat :=
  if '0' ≤ c && c ≤ '9' then some (c.toNat - '0'.toNat)
  else if 'a' ≤ c && c ≤ 'f' then some (c.toNat - 'a'.toNat + 10)
  else if 'A' ≤ c && c ≤ 'F' then some (c.toNat - 'A'.toNat + 10)
  else none

def hexUnit? (a b c d : Char) : Option Nat := do
  let a ← hexDigit? a
  let b ← hexDigit? b
  let c ← hexDigit? c
  let d ← hexDigit? d
  return ((a * 16 + b) * 16 + c) * 16 + d

/-- The character that a backslash and a letter write. -/
def shortEscape? (c : Char) : Option Char :=
  match c with
  | '"' => some '"'
  | '\\' => some '\\'
  | '/' => some '/'
  | 'b' => some '\x08'
  | 'f' => some '\x0c'
  | 'n' => some '\n'
  | 'r' => some '\x0d'
  | 't' => some '\t'
  | _ => none

inductive Piece where
  | char (c : Char)
  | unit (n : Nat)
  deriving DecidableEq, Repr

/-- The pieces up to the closing quote of a text, and what follows the quote. -/
def readPieces? : List Char → Option (List Piece × List Char)
  | [] => none
  | '"' :: r => some ([], r)
  | '\\' :: 'u' :: a :: b :: c :: d :: r => do
    let n ← hexUnit? a b c d
    let (pieces, rest) ← readPieces? r
    return (.unit n :: pieces, rest)
  | '\\' :: c :: r => do
    let c ← shortEscape? c
    let (pieces, rest) ← readPieces? r
    return (.char c :: pieces, rest)
  | c :: r => do
    if c.toNat < 0x20 || c == '\\' then none
    let (pieces, rest) ← readPieces? r
    return (.char c :: pieces, rest)

/-- The characters that pieces write: two halves of a surrogate pair make one character, and half a
pair makes none. -/
def assemble? : List Piece → Option (List Char)
  | [] => some []
  | .char c :: r => (assemble? r).map (c :: ·)
  | .unit n :: r =>
    if n < 0xD800 || 0xE000 ≤ n then (assemble? r).map (Char.ofNat n :: ·)
    else if n < 0xDC00 then
      match r with
      | .unit m :: r =>
        if 0xDC00 ≤ m && m < 0xE000 then
          (assemble? r).map (Char.ofNat (0x10000 + (n - 0xD800) * 0x400 + (m - 0xDC00)) :: ·)
        else none
      | _ => none
    else none

/-- What follows the first of two texts if the second begins with it. -/
def after? (word : List Char) (cs : List Char) : Option (List Char) :=
  if word.isPrefixOf cs then some (cs.drop word.length) else none

/-- The document of a number, if its reader has found a place for it. -/
def ofPlace? (negative : Bool) : Option (Fin 0x7FF0000000000000) → Json
  | some place => .number negative place
  | none => .unreadable

variable [FloatReader]

/-- The document of a number: an integer if it has neither point nor exponent and fits in 64 bits
with or without a sign, and otherwise what the reader makes of its digits. -/
def ofNumber (negative : Bool) (whole part exponent : List Char) : Json :=
  let n := ofDigits whole
  if part.isEmpty && exponent.isEmpty && !(negative && n == 0) &&
      n ≤ (if negative then Int64.minValue.toInt.natAbs else UInt64.size - 1) then
    .integer (if negative then -(n : Int) else n)
  else
    ofPlace? negative (FloatReader.place? whole part ((Decimal.readInt? exponent).getD 0))

/-- The digits at the front of a text, at least one, and what follows them. -/
def readDigits? (cs : List Char) : Option (List Char × List Char) :=
  let ds := cs.takeWhile Text.isAsciiDigit
  if ds.isEmpty then none else some (ds, cs.dropWhile Text.isAsciiDigit)

/-- The digits after a point, none if there is no point. -/
def readPart? : List Char → Option (List Char × List Char)
  | '.' :: r => readDigits? r
  | cs => some ([], cs)

/-- The sign and digits of an exponent, none if there is no exponent. -/
def readPower? : List Char → Option (List Char × List Char)
  | c :: r =>
    if c == 'e' || c == 'E' then
      match r with
      | '+' :: r => readDigits? r
      | '-' :: r => (readDigits? r).map fun (ds, rest) => ('-' :: ds, rest)
      | r => readDigits? r
    else some ([], c :: r)
  | [] => some ([], [])

def readNumber? (cs : List Char) : Option (Json × List Char) := do
  let (negative, cs) := match cs with
    | '-' :: r => (true, r)
    | cs => (false, cs)
  let (whole, cs) ← readDigits? cs
  if whole.length ≠ 1 ∧ whole.head? = some '0' then none
  let (part, cs) ← readPart? cs
  let (exponent, cs) ← readPower? cs
  return (ofNumber negative whole part exponent, cs)

/-- The name of a field, if it can be read, and what follows its colon. -/
def readName? (cs : List Char) : Option (Option String × List Char) :=
  match skipBlanks cs with
  | '"' :: r => do
    let (pieces, r) ← readPieces? r
    match skipBlanks r with
    | ':' :: r => some ((assemble? pieces).map String.ofList, r)
    | _ => none
  | _ => none

/-- A field put in front of the fields of an object. A name that cannot be read makes the whole
object unreadable. -/
def consField (name : Option String) (value : Json) : Json → Json
  | .object fields =>
    match name with
    | some name => .object ((name, value) :: fields)
    | none => .unreadable
  | _ => .unreadable

mutual

/-- A document at the front of a text, and what follows it. -/
def readValue? : Nat → List Char → Option (Json × List Char)
  | 0, _ => none
  | fuel + 1, cs =>
    match skipBlanks cs with
    | '"' :: r => do
      let (pieces, rest) ← readPieces? r
      match assemble? pieces with
      | some cs => return (.text (String.ofList cs), rest)
      | none => return (.unreadable, rest)
    | '[' :: r =>
      match skipBlanks r with
      | ']' :: r => some (.array [], r)
      | r => do
        let (items, rest) ← readItems? fuel r
        return (.array items, rest)
    | '{' :: r =>
      match skipBlanks r with
      | '}' :: r => some (.object [], r)
      | r => readFields? fuel r
    | 'n' :: r => (after? "ull".toList r).map (Json.null, ·)
    | 't' :: r => (after? "rue".toList r).map (Json.boolean true, ·)
    | 'f' :: r => (after? "alse".toList r).map (Json.boolean false, ·)
    | r => readNumber? r

/-- The items of an array up to its closing bracket, at least one. -/
def readItems? : Nat → List Char → Option (List Json × List Char)
  | 0, _ => none
  | fuel + 1, cs => do
    let (item, r) ← readValue? fuel cs
    match skipBlanks r with
    | ',' :: r => do
      let (items, rest) ← readItems? fuel r
      return (item :: items, rest)
    | ']' :: r => some ([item], r)
    | _ => none

/-- The fields of an object up to its closing brace, at least one, as an object. -/
def readFields? : Nat → List Char → Option (Json × List Char)
  | 0, _ => none
  | fuel + 1, cs => do
    let (name, r) ← readName? cs
    let (value, r) ← readValue? fuel r
    match skipBlanks r with
    | ',' :: r => do
      let (fields, rest) ← readFields? fuel r
      return (consField name value fields, rest)
    | '}' :: r => some (consField name value (.object []), r)
    | _ => none

end

def read? (cs : List Char) : Option Json :=
  match readValue? (cs.length + 1) cs with
  | some (document, rest) => if (skipBlanks rest).isEmpty then some document else none
  | none => none

end Rowfile.Json

import Rowfile.Text.Class
import Rowfile.Binary64.Basic

/-!
# Decimal notation

A decimal is a coefficient times a power of ten. It is read from digits with an optional point and
exponent, it is rounded to the nearest double-precision number, and it is written with or without an
exponent. Digits are the ten of arithmetic notation.
-/
namespace Rowfile

def digits (n : Nat) : List Char := Nat.toDigits 10 n

def ofDigits (cs : List Char) : Nat := Nat.ofDigitChars 10 cs 0

@[simp]
theorem ofDigits_digits (n : Nat) : ofDigits (digits n) = n := Nat.ofDigitChars_ten_toDigits

/-- The digits of an integer, after a minus sign if it is negative. -/
def intText (n : Int) : List Char :=
  if n < 0 then '-' :: digits n.natAbs else digits n.natAbs

structure Decimal where
  coefficient : Nat
  exponent : Int
  deriving DecidableEq, Repr

namespace Decimal

/-- The place of the double-precision magnitude nearest to a decimal. A power of ten with a negative
exponent lies below the same power of eight, so a decimal that is far too small is recognised without
computing the power; one with a large exponent is far too large. -/
def place (d : Decimal) : Nat :=
  if d.coefficient = 0 ∨ d.coefficient.log2 + 3 * d.exponent < -1100 then 0
  else if 400 < d.exponent then Binary64.places
  else if 0 ≤ d.exponent then
    Binary64.nearestPlace (d.coefficient * Nat.pow 10 d.exponent.toNat) 1
  else Binary64.nearestPlace d.coefficient (Nat.pow 10 (-d.exponent).toNat)

def toBinary64 (negative : Bool) (d : Decimal) : Binary64 := Binary64.atPlace negative d.place

/-- The decimal with the zeros at the end of its coefficient moved into the exponent; `fuel` bounds
their number. -/
def stripFrom (fuel : Nat) (d : Decimal) : Decimal :=
  match fuel with
  | 0 => d
  | fuel + 1 =>
    if d.coefficient ≠ 0 ∧ d.coefficient % 10 = 0 then
      stripFrom fuel ⟨d.coefficient / 10, d.exponent + 1⟩
    else d

/-- The decimal whose coefficient does not end in zero. -/
def strip (d : Decimal) : Decimal := d.stripFrom (digits d.coefficient).length

/-- The exponent of the first digit. -/
def order (d : Decimal) : Int := (digits d.coefficient).length - 1 + d.exponent

/-- The digits before and after the point when the decimal is written without an exponent. -/
def split (d : Decimal) : List Char × List Char :=
  let ds := digits d.coefficient
  if 0 ≤ d.exponent then (ds ++ List.replicate d.exponent.toNat '0', [])
  else
    let places := (-d.exponent).toNat
    if places < ds.length then (ds.take (ds.length - places), ds.drop (ds.length - places))
    else (['0'], List.replicate (places - ds.length) '0' ++ ds)

/-- Written without an exponent, and without a point if it is whole. -/
def positional (d : Decimal) : List Char :=
  match d.split with
  | (whole, []) => whole
  | (whole, part) => whole ++ '.' :: part

/-- Written without an exponent, with at least one digit after the point. -/
def pointed (d : Decimal) : List Char :=
  match d.split with
  | (whole, []) => whole ++ ['.', '0']
  | (whole, part) => whole ++ '.' :: part

/-- Written as one digit, the other digits after a point, and a signed exponent. -/
def scientific (d : Decimal) : List Char :=
  let tail :=
    'e' :: (if d.order < 0 then '-' else '+') :: digits d.order.natAbs
  match digits d.coefficient with
  | [] => tail
  | [c] => c :: tail
  | c :: cs => c :: '.' :: cs ++ tail

/-- A sign in front of a text, and the text after it. -/
def takeSign : List Char → Bool × List Char
  | '-' :: cs => (true, cs)
  | '+' :: cs => (false, cs)
  | cs => (false, cs)

/-- The whole number that a text of digits with an optional sign writes. -/
def readInt? (cs : List Char) : Option Int :=
  let (negative, ds) := takeSign cs
  if ds.isEmpty || !ds.all Text.isAsciiDigit then none
  else
    let n : Int := ofDigits ds
    some (if negative then -n else n)

/-- The exponent that a text after the digits of a decimal writes: none for the empty text, or the
letter e, an optional sign and digits. -/
def readExponent? : List Char → Option Int
  | [] => some 0
  | c :: cs => if c == 'e' || c == 'E' then readInt? cs else none

/-- The decimal that digits with an optional point and an optional exponent write. There is at least
one digit. -/
def read? (cs : List Char) : Option Decimal :=
  let whole := cs.takeWhile Text.isAsciiDigit
  let rest := cs.dropWhile Text.isAsciiDigit
  let (part, tail) :=
    match rest with
    | '.' :: r => (r.takeWhile Text.isAsciiDigit, r.dropWhile Text.isAsciiDigit)
    | r => ([], r)
  if whole.isEmpty && part.isEmpty then none
  else (readExponent? tail).map fun e => ⟨ofDigits (whole ++ part), e - part.length⟩

end Decimal

namespace Binary64

/-- The number that a text writes: a decimal, `inf`, `infinity` or `nan` in any case, each after an
optional sign. -/
def read? (cs : List Char) : Option Binary64 :=
  let (negative, rest) := Decimal.takeSign cs
  if Text.asciiCaseEq rest "inf".toList || Text.asciiCaseEq rest "infinity".toList then
    some (.infinite negative)
  else if Text.asciiCaseEq rest "nan".toList then some .nan
  else (Decimal.read? rest).map (·.toBinary64 negative)

end Binary64

end Rowfile

import Rowfile.Decimal

/-!
# The fewest digits that read back

A finite magnitude is written with the fewest decimal digits that read back to it, and with the
nearest such digits. On each grid of decimals only the two neighbours of the magnitude can be
nearest, so the grids of one digit, two digits, and so on are searched until a neighbour reads back.
Where both neighbours are equally near, the format says which one is written.
-/
namespace Rowfile.Binary64

inductive Tie where
  | even
  | up
  deriving DecidableEq, Repr

/-- The exponent of the first power of ten above the magnitude at a place. -/
def decimalTop (place : Nat) : Int :=
  (digits (units place * Nat.pow 10 400 / unitsPerOne)).length - 400

def exactDecimal (place : Nat) : Decimal :=
  Decimal.strip ⟨units place * Nat.pow 5 1074, -1074⟩

/-- The nearest decimal with the given exponent that reads back to a place, if one does. -/
def gridDecimal? (tie : Tie) (place : Nat) (exponent : Int) : Option Decimal :=
  let num := if 0 ≤ exponent then units place else units place * Nat.pow 10 (-exponent).toNat
  let den := if 0 ≤ exponent then unitsPerOne * Nat.pow 10 exponent.toNat else unitsPerOne
  let low : Decimal := ⟨num / den, exponent⟩
  let high : Decimal := ⟨num / den + 1, exponent⟩
  let twice := 2 * (num % den)
  let lowFirst := twice < den || (twice == den && tie == .even && low.coefficient % 2 == 0)
  if lowFirst then
    if low.place = place then some low else if high.place = place then some high else none
  else if high.place = place then some high else if low.place = place then some low else none

/-- The fewest digits that read back to the magnitude at a place. -/
def shortest (tie : Tie) (place : Nat) : Decimal :=
  if place = 0 then ⟨0, 0⟩
  else
    let top := decimalTop place
    let found := (List.range 17).findSome? fun n => gridDecimal? tie place (top - (n + 1 : Nat))
    match found with
    | some d => d.strip
    | none => exactDecimal place

def signText (negative : Bool) : List Char := if negative then ['-'] else []

/-- A number as plain text: the fewest digits that read back, never an exponent. -/
def plainText : Binary64 → List Char
  | .finite negative place => signText negative ++ (shortest .up place.val).positional
  | .infinite negative => signText negative ++ "inf".toList
  | .nan => "NaN".toList

/-- A number as plain text that shows it is no integer: a whole number is written with all its
digits and `.0`. -/
def fractionText : Binary64 → List Char
  | .finite negative place =>
    signText negative ++
      if units place.val % unitsPerOne = 0 then
        digits (units place.val / unitsPerOne) ++ ['.', '0']
      else (shortest .up place.val).positional
  | .infinite negative => signText negative ++ "inf".toList
  | .nan => "NaN".toList

/-- A finite number as a JSON number: without an exponent from five places after the point up to
sixteen before it, and with one beyond. -/
def jsonText (negative : Bool) (place : Nat) : List Char :=
  let d := shortest .even place
  signText negative ++ if -5 ≤ d.order ∧ d.order ≤ 15 then d.pointed else d.scientific

end Rowfile.Binary64

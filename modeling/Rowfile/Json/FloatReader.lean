import Rowfile.Decimal

/-!
# Reading the digits of a number

A number with a point or an exponent is given by its digits around the point and its exponent. The
format leaves open how exactly such a number is read, so the reader is a parameter of everything that
reads documents.

Two readers are given. The exact one takes every decimal to the nearest finite magnitude. The one a
program gets unless it asks for another keeps as many digits as fit in 64 bits and scales them by
powers of ten that are rounded themselves, so it rounds more than once and can miss the nearest
magnitude: it reads `99.99999999999999` as 100.
-/
namespace Rowfile

/-- A reader of digits around a point with an exponent. It names the place of a finite magnitude, or
nothing if the number is out of range. -/
class FloatReader where
  place? (whole part : List Char) (exponent : Int) : Option (Fin 0x7FF0000000000000)

namespace FloatReader

def finite? (place : Nat) : Option (Fin 0x7FF0000000000000) :=
  if h : place < Binary64.places then some ⟨place, h⟩ else none

/-- The reader that finds the nearest magnitude. -/
@[reducible]
def exact : FloatReader where
  place? whole part exponent :=
    finite? (Decimal.mk (ofDigits (whole ++ part)) (exponent - part.length)).place

/-- Digits are put behind a number as long as it fits in 64 bits. The rest of the digits begins with
the first one that does not fit. -/
def absorb (n : Nat) : List Char → Nat × List Char
  | [] => (n, [])
  | c :: cs =>
    let longer := 10 * n + (c.toNat - '0'.toNat)
    if longer < UInt64.size then absorb longer cs else (n, c :: cs)

def largestExponent : Nat := 308

/-- The place nearest to a power of ten. -/
def power (exponent : Nat) : Nat := Binary64.nearestPlace (Nat.pow 10 exponent) 1

def product (a b : Nat) : Nat :=
  Binary64.nearestPlace (Binary64.units a * Binary64.units b)
    (Binary64.unitsPerOne * Binary64.unitsPerOne)

def quotient (a b : Nat) : Nat := Binary64.nearestPlace (Binary64.units a) (Binary64.units b)

/-- A magnitude divided by the largest power of ten a number of times, or until nothing is left. -/
def descend (place : Nat) : Nat → Nat
  | 0 => place
  | rounds + 1 => if place = 0 then 0 else descend (quotient place (power largestExponent)) rounds

/-- The place of a whole number times a power of ten, rounded after every step. -/
def scale? (significand : Nat) (exponent : Int) : Option Nat :=
  let place := Binary64.nearestPlace significand 1
  if 0 ≤ exponent then
    if exponent.toNat ≤ largestExponent then some (product place (power exponent.toNat))
    else if place = 0 then some 0 else none
  else
    let below := (-exponent).toNat
    let rounds := (below - 1) / largestExponent
    some (quotient (descend place rounds) (power (below - largestExponent * rounds)))

/-- The reader that scales what fits in 64 bits. A digit before the point that does not fit counts as
a zero, and one behind the point is passed over. -/
@[reducible]
def scaled : FloatReader where
  place? whole part exponent :=
    let (front, missed) := absorb 0 whole
    let (significand, unread) := absorb front part
    let exponent := exponent + missed.length - (part.length - unread.length : Nat)
    (scale? significand exponent).bind finite?

instance : FloatReader := scaled

end FloatReader

example : FloatReader.scaled.place? "99".toList "99999999999999".toList 0 =
    FloatReader.exact.place? "100".toList [] 0 := by decide +kernel

end Rowfile

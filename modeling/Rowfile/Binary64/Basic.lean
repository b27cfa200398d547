/-!
# Double-precision numbers

The numbers of the 64-bit binary interchange format. Finite magnitudes are named by their place in
increasing order, so that the order of numbers is the order of places and a neighbour is one place
away. Every magnitude is a whole multiple of the smallest positive one, and all arithmetic here is
exact arithmetic on that multiple; rounding happens once, at the end, to the nearest magnitude.
-/
namespace Rowfile

/-- A double-precision number: a sign with the place of a finite magnitude, an infinity, or the
value that is no number. -/
inductive Binary64 where
  | finite (negative : Bool) (place : Fin 0x7FF0000000000000)
  | infinite (negative : Bool)
  | nan
  deriving DecidableEq, Repr

namespace Binary64

def places : Nat := 0x7FF0000000000000

/-- The number of smallest positive magnitudes in one. -/
def unitsPerOne : Nat := 1 <<< 1074

/-- The number of places between two powers of two. -/
def placesPerBinade : Nat := 0x10000000000000

/-- The magnitude at a place, counted in smallest positive magnitudes. -/
def units (place : Nat) : Nat :=
  if place < placesPerBinade then place
  else (placesPerBinade + place % placesPerBinade) <<< (place / placesPerBinade - 1)

@[simp] theorem units_zero : units 0 = 0 := rfl

/-- The whole number nearest to a quotient, the even one of two that are equally near. -/
def roundHalfEven (num den : Nat) : Nat :=
  let q := num / den
  let r := num % den
  if 2 * r < den || (2 * r == den && q % 2 == 0) then q else q + 1

/-- The place nearest to a quotient. It is at least `places` when the quotient lies beyond every
finite magnitude. -/
def nearestPlace (num den : Nat) : Nat :=
  let shift := (num * unitsPerOne / den).log2 - 52
  shift * placesPerBinade + roundHalfEven (num * unitsPerOne) (den <<< shift)

/-- The number at a place, or an infinity past the last one. -/
def atPlace (negative : Bool) (place : Nat) : Binary64 :=
  if h : place < places then .finite negative ⟨place, h⟩ else .infinite negative

def ofQuotient (negative : Bool) (num den : Nat) : Binary64 :=
  atPlace negative (nearestPlace num den)

def ofInt (n : Int) : Binary64 := ofQuotient (decide (n < 0)) n.natAbs 1

def zero : Binary64 := .finite false 0

def one : Binary64 := ofInt 1

def isFinite : Binary64 → Bool
  | .finite _ _ => true
  | _ => false

def isZero : Binary64 → Bool
  | .finite _ place => place.val == 0
  | _ => false

/-- The place with its sign, which orders all numbers but `nan`. The two zeros share a rank. -/
def rank? : Binary64 → Option Int
  | .finite negative place => some (if negative then -(place.val : Int) else place.val)
  | .infinite negative => some (if negative then -(places : Int) else places)
  | .nan => none

/-- Equality of numbers: the two zeros are equal, and `nan` equals nothing. -/
def numEq (x y : Binary64) : Bool :=
  match x.rank?, y.rank? with
  | some a, some b => a == b
  | _, _ => false

def numLt (x y : Binary64) : Bool :=
  match x.rank?, y.rank? with
  | some a, some b => decide (a < b)
  | _, _ => false

def numLe (x y : Binary64) : Bool :=
  match x.rank?, y.rank? with
  | some a, some b => decide (a ≤ b)
  | _, _ => false

@[simp] theorem numEq_nan (x : Binary64) : numEq x .nan = false := by
  simp only [numEq, rank?]; split <;> simp_all

@[simp] theorem nan_numEq (x : Binary64) : numEq .nan x = false := by
  simp only [numEq, rank?]

/-- The whole part toward zero, if the number is finite. -/
def truncate? : Binary64 → Option Int
  | .finite negative place =>
    let n : Int := (units place.val / unitsPerOne : Nat)
    some (if negative then -n else n)
  | _ => none

end Binary64

end Rowfile

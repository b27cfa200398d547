import Rowfile.Binary64.Shortest
import Rowfile.ColumnType

/-!
# Values

What a field of a record holds. There is no null: a field without a value is absent from its
record. Every value has one text by which it is shown, compared, sorted and indexed, and it has a
reading as an integer, a number and a truth value where its content allows one. The readings decide
which columns accept a value and what a column keeps of it.
-/
namespace Rowfile

inductive Value where
  | integer (n : Int64)
  | float (x : Binary64)
  | boolean (b : Bool)
  | text (s : String)
  deriving DecidableEq, Repr

/-- An integer of 64 bits, if the number is in range. -/
def int64? (n : Int) : Option Int64 :=
  if Int64.minValue.toInt ≤ n ∧ n ≤ Int64.maxValue.toInt then some (Int64.ofInt n) else none

namespace Value

def shownChars : Value → List Char
  | .integer n => intText n.toInt
  | .float x => x.fractionText
  | .boolean true => "TRUE".toList
  | .boolean false => "FALSE".toList
  | .text s => s.toList

def shown (v : Value) : String := String.ofList v.shownChars

@[simp]
theorem shown_text (s : String) : (text s).shown = s := by simp [shown, shownChars]

/-- The order of the shown texts, by code points. -/
def compareShown (v w : Value) : Ordering := compare v.shown w.shown

/-- The same kind of value with the same content, numbers being compared as numbers. -/
def numericallyEq : Value → Value → Bool
  | .integer m, .integer n => m == n
  | .float x, .float y => x.numEq y
  | .boolean a, .boolean b => a == b
  | .text s, .text t => s == t
  | _, _ => false

/-- The integer reading: a number loses its fraction, truth values are one and zero, and a text is
read without the blanks around it. -/
def asInteger? : Value → Option Int64
  | .integer n => some n
  | .float x => x.truncate?.bind int64?
  | .boolean b => some (if b then 1 else 0)
  | .text s => (Decimal.readInt? (Text.trim s.toList)).bind int64?

def asNumber? : Value → Option Binary64
  | .integer n => some (Binary64.ofInt n.toInt)
  | .float x => some x
  | .boolean b => some (if b then Binary64.one else Binary64.zero)
  | .text s => Binary64.read? (Text.trim s.toList)

/-- The reading as a truth value: only values shown as true, false, one or zero have one. -/
def asBoolean? (v : Value) : Option Bool :=
  let cs := v.shownChars
  if Text.asciiCaseEq cs "TRUE".toList || cs == ['1'] then some true
  else if Text.asciiCaseEq cs "FALSE".toList || cs == ['0'] then some false
  else none

/-- A value that cannot serve as a key: zero, false or the empty text. -/
def isFalsy : Value → Bool
  | .integer n => n == 0
  | .float x => x.isZero
  | .boolean b => !b
  | .text s => s.isEmpty

def fits (v : Value) : ColumnType → Bool
  | .int => v.asInteger?.isSome
  | .float => v.asNumber?.any Binary64.isFinite
  | .boolean => v.asBoolean?.isSome
  | .text | .date => true

/-- What a column of the given type keeps of a value: its reading, or the value itself where the
type has none. -/
def conform (v : Value) : ColumnType → Value
  | .int => (v.asInteger?.map .integer).getD v
  | .float => (v.asNumber?.map .float).getD v
  | .boolean => (v.asBoolean?.map .boolean).getD v
  | .text | .date => v

@[simp] theorem fits_text (v : Value) : v.fits .text = true := rfl

@[simp] theorem fits_date (v : Value) : v.fits .date = true := rfl

@[simp] theorem conform_text (v : Value) : v.conform .text = v := rfl

@[simp] theorem conform_date (v : Value) : v.conform .date = v := rfl

end Value

end Rowfile

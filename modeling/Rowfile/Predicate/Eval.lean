import Rowfile.Fault
import Rowfile.Predicate.Like
import Rowfile.Record

/-!
# Evaluating predicates

A condition on a record holds, does not hold, or cannot be evaluated. Equality and inequality compare
shown texts, an absent field counting as the empty text; a pattern never takes an absent field; the
four order comparisons need a number on both sides. AND stops at the first part that does not hold
and OR at the first that does, so a part behind that is not evaluated.
-/
namespace Rowfile

namespace Condition

/-- The text by which a field is compared, empty if the field is absent. -/
def fieldText (record : Record) (column : String) : String :=
  ((record.find? column).map Value.shown).getD ""

def leftNumber (record : Record) (condition : Condition) : Except Fault Binary64 :=
  match record.find? condition.column with
  | none => .error (.comparesNothing condition.column condition.operator)
  | some value =>
    match value.asNumber? with
    | none => .error (.comparesNoNumber condition.column condition.operator value.shown)
    | some x => .ok x

def rightNumber (condition : Condition) : Except Fault Binary64 :=
  match Binary64.read? (Text.trim condition.literal.toList) with
  | none => .error (.comparesNoNumber condition.column condition.operator condition.literal)
  | some y => .ok y

def compareNumbers (record : Record) (condition : Condition)
    (test : Binary64 → Binary64 → Bool) : Except Fault Bool := do
  let x ← condition.leftNumber record
  let y ← condition.rightNumber
  return test x y

def eval (record : Record) (condition : Condition) : Except Fault Bool :=
  match condition.operator with
  | .eq => .ok (fieldText record condition.column == condition.literal)
  | .ne => .ok (fieldText record condition.column != condition.literal)
  | .like =>
    match record.find? condition.column with
    | none => .ok false
    | some value => .ok (Like.takes condition.literal.toList value.shownChars)
  | .gt => condition.compareNumbers record fun x y => y.numLt x
  | .lt => condition.compareNumbers record Binary64.numLt
  | .ge => condition.compareNumbers record fun x y => y.numLe x
  | .le => condition.compareNumbers record Binary64.numLe

end Condition

namespace Predicate

mutual

def eval (record : Record) : Predicate → Except Fault Bool
  | .compare condition => condition.eval record
  | .all parts => evalAll record parts
  | .any parts => evalAny record parts

/-- Whether every part holds, up to the first that does not. -/
def evalAll (record : Record) : List Predicate → Except Fault Bool
  | [] => .ok true
  | part :: parts =>
    match eval record part with
    | .error fault => .error fault
    | .ok false => .ok false
    | .ok true => evalAll record parts

/-- Whether some part holds, up to the first that does. -/
def evalAny (record : Record) : List Predicate → Except Fault Bool
  | [] => .ok false
  | part :: parts =>
    match eval record part with
    | .error fault => .error fault
    | .ok true => .ok true
    | .ok false => evalAny record parts

end

/-- Whether a record passes a filter. Without a filter every record does. -/
def accepts (filter : Option Predicate) (record : Record) : Except Fault Bool :=
  match filter with
  | none => .ok true
  | some predicate => predicate.eval record

@[simp] theorem accepts_none (record : Record) : accepts none record = .ok true := rfl

end Predicate

end Rowfile

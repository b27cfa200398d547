/-!
# Conditions on records

A condition compares one field with a literal; a predicate joins conditions with AND and OR. The
literal of a condition is a text, which each operator reads as it needs.
-/
namespace Rowfile

inductive Operator where
  | ge
  | le
  | ne
  | eq
  | gt
  | lt
  | like
  deriving DecidableEq, Repr

namespace Operator

def symbol : Operator → String
  | .ge => ">="
  | .le => "<="
  | .ne => "!="
  | .eq => "="
  | .gt => ">"
  | .lt => "<"
  | .like => "LIKE"

/-- Every operator, in the order in which a condition is searched for one: the operators of two
characters come before those of one, and the word comes last. -/
def all : List Operator := [.ge, .le, .ne, .eq, .gt, .lt, .like]

def ofSymbol? (symbol : String) : Option Operator := all.find? (·.symbol == symbol)

@[simp]
theorem ofSymbol?_symbol (op : Operator) : ofSymbol? op.symbol = some op := by
  cases op <;> decide

end Operator

structure Condition where
  column : String
  operator : Operator
  literal : String
  deriving DecidableEq, Repr

inductive Predicate where
  | compare (condition : Condition)
  | all (parts : List Predicate)
  | any (parts : List Predicate)
  deriving Repr

namespace Predicate

mutual

def conditions : Predicate → List Condition
  | .compare condition => [condition]
  | .all parts => conditionsOfAll parts
  | .any parts => conditionsOfAll parts

def conditionsOfAll : List Predicate → List Condition
  | [] => []
  | part :: parts => conditions part ++ conditionsOfAll parts

end

theorem conditionsOfAll_eq (parts : List Predicate) :
    conditionsOfAll parts = parts.flatMap conditions := by
  induction parts with
  | nil => rfl
  | cons part parts ih => rw [conditionsOfAll, ih, List.flatMap_cons]

theorem mem_conditionsOfAll {condition : Condition} {parts : List Predicate} :
    condition ∈ conditionsOfAll parts ↔ ∃ part ∈ parts, condition ∈ part.conditions := by
  rw [conditionsOfAll_eq, List.mem_flatMap]

end Predicate

end Rowfile

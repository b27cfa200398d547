import Rowfile.Fault
import Rowfile.Statement.Split
import Rowfile.Value.Literal

/-!
# Conditions and WHERE clauses

A condition is a column, an operator and a literal. It is cut at the first operator that stands
outside quotes, operators being tried in a fixed order rather than by place. A WHERE clause is cut at
OR and each part at AND, so AND binds more tightly; a part that stands alone is not wrapped.
-/
namespace Rowfile.Clause

open Masked

/-- What a cut finds, or the fault of a cut that falls inside a character. -/
def orTorn {α : Type} : Option α → Except Malformed α
  | some a => .ok a
  | none => .error .tornCharacter

/-- How an operator is looked for: the word stands between spaces. -/
def operatorWord : Operator → List Char
  | .like => " LIKE ".toList
  | op => op.symbol.toList

/-- The case of the operator that is a word does not matter. -/
def operatorLetter : Operator → Char → Char
  | .like => Char.toUpper
  | _ => id

/-- The first operator of a list that a text shows, with the cells before and after it. -/
def findOperator? (cells : List Cell) :
    List Operator → Option (Operator × List Cell × List Cell)
  | [] => none
  | op :: rest =>
    match breakAt? (operatorLetter op) (operatorWord op) cells with
    | some (before, after) => some (op, before, after)
    | none => findOperator? cells rest

def readTrimmed (cells : List Cell) : Except Malformed (List Char) :=
  (orTorn (read? cells)).map Text.trim

def readCondition (text : List Char) : Except Malformed Condition := do
  let text := Text.trim text
  match findOperator? (mask text) Operator.all with
  | none => throw (.conditionWithoutOperator (String.ofList text))
  | some (operator, before, after) =>
    let column ← readTrimmed before
    let literal ← readTrimmed after
    if column.isEmpty then throw (.conditionWithoutColumn (String.ofList text))
    if literal.isEmpty then throw (.conditionWithoutValue (String.ofList text))
    return ⟨String.ofList column, operator, String.ofList (unquote literal)⟩

def join (combine : List Predicate → Predicate) : List Predicate → Predicate
  | [part] => part
  | parts => combine parts

/-- The predicate of a text without OR. -/
def readConjunction (text : List Char) : Except Malformed Predicate := do
  let parts ← orTorn (Split.atKeyword? "AND".toList text)
  let conditions ← parts.mapM readCondition
  return join .all (conditions.map .compare)

def readWhere (text : List Char) : Except Malformed Predicate := do
  let text := Text.trim text
  if text.isEmpty then throw .emptyWhere
  let parts ← orTorn (Split.atKeyword? "OR".toList text)
  let alternatives ← parts.mapM readConjunction
  return join .any alternatives

end Rowfile.Clause

/-!
# Declared column types

The five types that a column is declared with. A date is kept and checked like a text.
-/
namespace Rowfile

inductive ColumnType where
  | int
  | float
  | boolean
  | text
  | date
  deriving DecidableEq, Repr

namespace ColumnType

def all : List ColumnType := [.int, .float, .boolean, .text, .date]

def name : ColumnType → String
  | .int => "INT"
  | .float => "FLOAT"
  | .boolean => "BOOLEAN"
  | .text => "TEXT"
  | .date => "DATE"

def ofName? (name : String) : Option ColumnType := all.find? (·.name == name)

@[simp]
theorem ofName?_name (t : ColumnType) : ofName? t.name = some t := by cases t <;> decide

/-- The type that a word of a column declaration stands for, in either case. Only the words for
numbers, truth values and dates stand for one; a column without such a word holds texts. -/
def ofKeyword? (word : List Char) : Option ColumnType :=
  match String.ofList (word.map Char.toUpper) with
  | "INT" | "INTEGER" => some .int
  | "FLOAT" | "DOUBLE" | "DECIMAL" => some .float
  | "BOOLEAN" | "BOOL" => some .boolean
  | "DATE" | "DATETIME" => some .date
  | _ => none

end ColumnType

end Rowfile

import Rowfile.Schema
import Rowfile.Statement.Clause

/-!
# Column declarations

A column declaration is a name and words. The words are read from left to right: a later type
overrides an earlier one, unknown words are passed over, and a column without a type holds texts. A
default has to fit the type that the column ends up with.
-/
namespace Rowfile.ColumnText

/-- A word of a declaration in upper case, without a parenthesised part such as a precision. -/
def keyword (token : List Char) : String :=
  String.ofList ((token.takeWhile (· != '(')).map Char.toUpper)

def nextIs (word : String) : List (List Char) → Bool
  | [] => false
  | token :: _ => keyword token == word

/-- A column after the words of its declaration. -/
def readWords (column : Column) : List (List Char) → Column
  | [] => column
  | token :: rest =>
    match ColumnType.ofKeyword? (keyword token).toList with
    | some type => readWords { column with type := type } rest
    | none =>
      if keyword token = "PRIMARY" ∧ nextIs "KEY" rest = true then
        readWords { column with primaryKey := true } rest
      else if keyword token = "NOT" ∧ nextIs "NULL" rest = true then
        readWords { column with notNull := true } rest
      else if keyword token = "UNIQUE" then
        readWords { column with unique := true } rest
      else if keyword token = "DEFAULT" then
        match rest with
        | [] => column
        | value :: rest => readWords { column with default? := some (Value.ofLiteral value) } rest
      else readWords column rest

def read (text : List Char) : Except Malformed Column := do
  match ← Clause.orTorn (Split.atBlanks? text) with
  | [] => throw .emptyColumn
  | name :: words =>
    let column := readWords { name := String.ofList name, type := .text } words
    match column.default? with
    | some value =>
      if value.fits column.type then return column
      else throw (.defaultOfOtherType value.shown column.name column.type)
    | none => return column

end Rowfile.ColumnText

import Rowfile.Statement.Basic
import Rowfile.Statement.ColumnText
import Rowfile.Statement.Pattern

/-!
# Reading statements

Each form of statement has a recogniser, which finds its parts in the masked text, and a reader,
which reads those parts. `Statement.read` chooses the reader by the first words of the text. A
CREATE TABLE or INSERT ends with the last closing parenthesis of its text, and the clauses of a
SELECT are looked for one by one, each wherever it first stands.
-/
namespace Rowfile

namespace Statement

open Masked Pattern Clause

def readPart (cells : List Cell) : Except Malformed (List Char) := orTorn (read? cells)

def readName (cells : List Cell) : Except Malformed String :=
  (readPart cells).map String.ofList

/-- The part that a recogniser finds, or a fault. -/
def orFault {α : Type} (problem : Malformed) : Option α → Except Malformed α
  | some a => .ok a
  | none => .error problem

/-! ## Tables and indexes -/

/-- The name and the body of `CREATE TABLE name (body)`. -/
def createTableParts? (cells : List Cell) : Option (List Cell × List Cell) := do
  let r ← keywords? "CREATE".toList "TABLE".toList (skipBlanks cells)
  let (name, r) ← (blanks? r).bind word?
  let body ← outerBody? (skipBlanks r)
  return (name, body)

/-- A schema with the columns of declarations added one by one. Empty declarations are passed
over. -/
def readColumns (table : String) (schema : Schema) :
    List (List Char) → Except Malformed Schema
  | [] => .ok schema
  | text :: rest =>
    if text.isEmpty then readColumns table schema rest
    else do
      let column ← ColumnText.read text
      match schema.add? column with
      | some schema => readColumns table schema rest
      | none => throw (.repeatedColumn column.name table)

def readCreateTable (text : List Char) : Except Malformed Statement := do
  let (name, body) ← orFault .createTable (createTableParts? (mask text))
  let table ← readName name
  let declarations ← orTorn (Split.atSeparator? ',' (← readPart body))
  return .createTable table (← readColumns table .empty declarations)

/-- The name of `DROP TABLE name` or `SHOW TABLE name`. -/
def tableNamePart? (verb : List Char) (cells : List Cell) : Option (List Cell) :=
  (keywords? verb "TABLE".toList (skipBlanks cells)).bind lastWord?

def readDropTable (text : List Char) : Except Malformed Statement := do
  let name ← orFault .dropTable (tableNamePart? "DROP".toList (mask text))
  return .dropTable (← readName name)

def readShowTable (text : List Char) : Except Malformed Statement := do
  let name ← orFault .showTable (tableNamePart? "SHOW".toList (mask text))
  return .showTable (← readName name)

/-- The two names of `RENAME TABLE name TO name`. -/
def renameTableParts? (cells : List Cell) : Option (List Cell × List Cell) := do
  let r ← keywords? "RENAME".toList "TABLE".toList (skipBlanks cells)
  let (old, r) ← (blanks? r).bind word?
  let new ← ((blanks? r).bind (keyword? "TO".toList)).bind lastWord?
  return (old, new)

def readRenameTable (text : List Char) : Except Malformed Statement := do
  let (old, new) ← orFault .renameTable (renameTableParts? (mask text))
  return .renameTable (← readName old) (← readName new)

/-- The name of `DESC name` or `DESCRIBE name`. -/
def describePart? (cells : List Cell) : Option (List Cell) :=
  let cells := skipBlanks cells
  match (keyword? "DESC".toList cells).bind lastWord? with
  | some name => some name
  | none => (keyword? "DESCRIBE".toList cells).bind lastWord?

def readDescribe (text : List Char) : Except Malformed Statement := do
  return .describe (← readName (← orFault .describe (describePart? (mask text))))

/-- The names of table and column of `CREATE INDEX ON name (name)`. -/
def createIndexParts? (cells : List Cell) : Option (List Cell × List Cell) := do
  let r ← keywords? "CREATE".toList "INDEX".toList (skipBlanks cells)
  let r ← (blanks? r).bind (keyword? "ON".toList)
  let (table, r) ← (blanks? r).bind word?
  let r ← char? '(' (skipBlanks r)
  let (column, r) ← word? (skipBlanks r)
  let r ← char? ')' (skipBlanks r)
  if atEnd r then return (table, column) else none

def readCreateIndex (text : List Char) : Except Malformed Statement := do
  let (table, column) ← orFault .createIndex (createIndexParts? (mask text))
  return .createIndex (← readName table) (← readName column)

/-! ## Inserting -/

/-- The name, the column list if there is one, and the values of
`INSERT INTO name (columns) VALUES (values)`. -/
def insertParts? (cells : List Cell) :
    Option (List Cell × Option (List Cell) × List Cell) := do
  let r ← keywords? "INSERT".toList "INTO".toList (skipBlanks cells)
  let (name, r) ← (blanks? r).bind word?
  let (columns, r) :=
    match (char? '(' (skipBlanks r)).bind (beforeFirst? ')') with
    | some (columns, r) => (some columns, r)
    | none => (none, r)
  let r ← (blanks? r).bind (keyword? "VALUES".toList)
  let values ← outerBody? (skipBlanks r)
  return (name, columns, values)

/-- A name of letters, numbers and low lines, with at least one character. -/
def isIdentifier (cs : List Char) : Bool := !cs.isEmpty && cs.all Text.isName

def readColumnList (list : List Char) : Except Malformed (List String) := do
  let names ← orTorn (Split.atSeparator? ',' list)
  if names.isEmpty || !names.all isIdentifier then
    throw (.columnList (String.ofList (Text.trim list)))
  return names.map String.ofList

def readListedValue (text : List Char) : Except Malformed Value :=
  if text.isEmpty then .error .emptyValue
  else if (mask text).any Split.isParenthesis then
    .error (.parenthesisInValue (String.ofList text))
  else .ok (Value.ofLiteral text)

def readInsert (text : List Char) : Except Malformed Statement := do
  let (name, columns, values) ← orFault .insert (insertParts? (mask text))
  let table ← readName name
  let columns ←
    match columns with
    | some list => (readPart list >>= readColumnList).map some
    | none => pure none
  let values ← orTorn (Split.atSeparator? ',' (← readPart values))
  if values.isEmpty then throw .noValues
  return .insert table columns (← values.mapM readListedValue)

/-! ## Selecting -/

/-- The word after the first FROM. -/
def fromPart? (cells : List Cell) : Option (List Cell) :=
  search? (fun cells =>
    ((keyword? "FROM".toList cells).bind blanks?).bind fun r => (word? r).map Prod.fst) false cells

/-- The cells after a keyword at the front that ends there. -/
def wholeKeyword? (word : List Char) (cells : List Cell) : Option (List Cell) :=
  (keyword? word cells).filter atWordEnd

def atOrderBy (cells : List Cell) : Bool :=
  (keywords? "ORDER".toList "BY".toList cells).any atWordEnd

/-- A blank stands at the front, and after it ORDER BY or LIMIT. -/
def atClauseEnd : List Cell → Bool
  | [] => false
  | cell :: r => cell.isBlank && (atOrderBy r || (wholeKeyword? "LIMIT".toList r).isSome)

/-- The cells up to the first place where another clause begins. -/
def untilClauseEnd : List Cell → List Cell
  | [] => []
  | cell :: r => if atClauseEnd (cell :: r) then [] else cell :: untilClauseEnd r

def wherePart? (cells : List Cell) : Option (List Cell) :=
  (search? (wholeKeyword? "WHERE".toList) false cells).map untilClauseEnd

def mentionsOrderBy (cells : List Cell) : Bool :=
  (search? (fun cells => if atOrderBy cells then some () else none) false cells).isSome

/-- The direction at the front: blanks and then a whole ASC or DESC. -/
def directionPart? (cells : List Cell) : Option (List Cell) := do
  let r ← blanks? cells
  if (wholeKeyword? "ASC".toList r).isSome then return r.take 3
  else if (wholeKeyword? "DESC".toList r).isSome then return r.take 4
  else none

/-- The column and the direction of the first ORDER BY that a word follows. -/
def orderByParts? (cells : List Cell) : Option (List Cell × Option (List Cell)) :=
  search? (fun cells => do
    let r ← (keywords? "ORDER".toList "BY".toList cells).bind blanks?
    let (column, r) ← word? r
    return (column, directionPart? r)) false cells

def readOrderBy (cells : List Cell) : Except Malformed (Option OrderBy) :=
  if mentionsOrderBy cells then do
    let (column, direction) ← orFault .orderBy (orderByParts? cells)
    let direction ← readPart (direction.getD [])
    return some ⟨← readName column, Text.asciiCaseEq direction "DESC".toList⟩
  else .ok none

def mentionsLimit (cells : List Cell) : Bool :=
  (search? (wholeKeyword? "LIMIT".toList) false cells).isSome

def limitPart? (cells : List Cell) : Option (List Cell) :=
  search? (fun cells => do
    let r ← (keyword? "LIMIT".toList cells).bind blanks?
    let (ds, r) ← number? r
    if atWordEnd r then return ds else none) false cells

/-- A count of 64 bits in the digits of arithmetic notation. -/
def readCount? (ds : List Char) : Option Nat :=
  if isDigits ds && ofDigits ds < UInt64.size then some (ofDigits ds) else none

def readLimit (cells : List Cell) : Except Malformed (Option Nat) :=
  if mentionsLimit cells then do
    let ds ← readPart (← orFault .limit (limitPart? cells))
    return some (← orFault .limitTooLarge (readCount? ds))
  else .ok none

def readSelect (text : List Char) : Except Malformed Statement := do
  let cells := mask text
  let table ← readName (← orFault .selectWithoutFrom (fromPart? cells))
  let filter ←
    match wherePart? cells with
    | some clause => (readPart clause >>= readWhere).map some
    | none => pure none
  let orderBy ← readOrderBy cells
  let limit ← readLimit cells
  return .select table filter orderBy limit

/-! ## Changing and deleting -/

/-- The name, the assignments and the filter of `UPDATE name SET assignments WHERE filter`. If the
assignments are missing, so that WHERE follows the blanks behind SET, one blank of three or more
stands for them. -/
def updateParts? (cells : List Cell) : Option (List Cell × List Cell × List Cell) := do
  let r ← (keyword? "UPDATE".toList (skipBlanks cells)).bind blanks?
  let (name, r) ← word? r
  let r ← (blanks? r).bind (keyword? "SET".toList)
  let (gap, r) := (r.takeWhile Cell.isBlank, skipBlanks r)
  match gap, clauseAfter? "WHERE".toList r with
  | _ :: _, some (assignments, filter) => return (name, assignments, filter)
  | _ :: blank :: _ :: _, none =>
    return (name, [blank], ← (keyword? "WHERE".toList r).bind clause?)
  | _, _ => none

def readAssignment (text : List Char) : Except Malformed Assignment := do
  let (before, after) ←
    orFault (.setClause (String.ofList text)) (breakAt? id ['='] (mask text))
  let column ← readTrimmed before
  let value ← readTrimmed after
  if !isIdentifier column then throw (.setClause (String.ofList text))
  if value.isEmpty then throw (.assignmentWithoutValue (String.ofList column))
  return ⟨String.ofList column, Value.ofLiteral value⟩

def readUpdate (text : List Char) : Except Malformed Statement := do
  let (name, assignments, filter) ← orFault .update (updateParts? (mask text))
  let table ← readName name
  let parts ← orTorn (Split.atSeparator? ',' (← readPart assignments))
  let assignments ← parts.mapM readAssignment
  if assignments.isEmpty then throw .noAssignments
  return .update table assignments (← readPart filter >>= readWhere)

/-- The name and the filter of `DELETE FROM name WHERE filter`. -/
def deleteParts? (cells : List Cell) : Option (List Cell × List Cell) := do
  let r ← keywords? "DELETE".toList "FROM".toList (skipBlanks cells)
  let (name, r) ← (blanks? r).bind word?
  let filter ← ((blanks? r).bind (keyword? "WHERE".toList)).bind clause?
  return (name, filter)

def readDelete (text : List Char) : Except Malformed Statement := do
  let (name, filter) ← orFault .delete (deleteParts? (mask text))
  return .delete (← readName name) (← readPart filter >>= readWhere)

/-! ## Choosing the form -/

/-- A statement without the blanks around it and without one semicolon at its end. -/
def body (text : List Char) : List Char :=
  let text := Text.trim text
  if text.getLast? = some ';' then Text.trimEnd text.dropLast else text

/-- The text begins with a word, up to the case of the letters A to Z. -/
def startsWith (word : String) (text : List Char) : Bool :=
  word.toList.isPrefixOf (text.map Char.toUpper)

def orMalformed {α : Type} : Except Malformed α → Except Fault α
  | .ok a => .ok a
  | .error problem => .error (.malformed problem)

def read (text : List Char) : Except Fault Statement :=
  let text := body text
  if startsWith "CREATE TABLE" text then orMalformed (readCreateTable text)
  else if startsWith "DROP TABLE" text then orMalformed (readDropTable text)
  else if startsWith "RENAME TABLE" text then orMalformed (readRenameTable text)
  else if startsWith "INSERT INTO" text then orMalformed (readInsert text)
  else if startsWith "SELECT" text then orMalformed (readSelect text)
  else if startsWith "UPDATE" text then orMalformed (readUpdate text)
  else if startsWith "DELETE FROM" text then orMalformed (readDelete text)
  else if startsWith "DESC " text || startsWith "DESCRIBE " text then
    orMalformed (readDescribe text)
  else if Text.asciiCaseEq text "SHOW TABLES".toList then .ok .showTables
  else if startsWith "SHOW TABLE " text then orMalformed (readShowTable text)
  else if startsWith "CREATE INDEX" text then orMalformed (readCreateIndex text)
  else .error .unsupported

end Statement

end Rowfile

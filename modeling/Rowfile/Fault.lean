import Rowfile.ColumnType
import Rowfile.Predicate.Basic

/-!
# Faults

Everything that can go wrong with a statement or with the data file, as causes. The kind of a fault,
its place among the five groups of kinds, and its message are functions of the cause.
-/
namespace Rowfile

inductive FaultKind where
  | parse
  | unsupportedQuery
  | alreadyExists
  | notFound
  | noPrimaryKey
  | unknownColumn
  | missingRequiredColumn
  | missingPrimaryKeyValue
  | duplicateKey
  | duplicateValue
  | columnCountMismatch
  | typeMismatch
  | evaluation
  | io
  | serialization
  | locked
  | internal
  deriving DecidableEq, Repr

inductive FaultGroup where
  | parse
  | schema
  | validation
  | evaluation
  | storage
  deriving DecidableEq, Repr

namespace FaultKind

def all : List FaultKind :=
  [.parse, .unsupportedQuery, .alreadyExists, .notFound, .noPrimaryKey, .unknownColumn,
    .missingRequiredColumn, .missingPrimaryKeyValue, .duplicateKey, .duplicateValue,
    .columnCountMismatch, .typeMismatch, .evaluation, .io, .serialization, .locked, .internal]

def name : FaultKind → String
  | .parse => "Parse"
  | .unsupportedQuery => "UnsupportedQuery"
  | .alreadyExists => "AlreadyExists"
  | .notFound => "NotFound"
  | .noPrimaryKey => "NoPrimaryKey"
  | .unknownColumn => "UnknownColumn"
  | .missingRequiredColumn => "MissingRequiredColumn"
  | .missingPrimaryKeyValue => "MissingPrimaryKeyValue"
  | .duplicateKey => "DuplicateKey"
  | .duplicateValue => "DuplicateValue"
  | .columnCountMismatch => "ColumnCountMismatch"
  | .typeMismatch => "TypeMismatch"
  | .evaluation => "Evaluation"
  | .io => "Io"
  | .serialization => "Serialization"
  | .locked => "Locked"
  | .internal => "Internal"

def ofName? (name : String) : Option FaultKind := all.find? (·.name == name)

def group : FaultKind → FaultGroup
  | .parse | .unsupportedQuery => .parse
  | .alreadyExists | .notFound | .noPrimaryKey => .schema
  | .unknownColumn | .missingRequiredColumn | .missingPrimaryKeyValue | .duplicateKey
  | .duplicateValue | .columnCountMismatch | .typeMismatch => .validation
  | .evaluation => .evaluation
  | .io | .serialization | .locked | .internal => .storage

end FaultKind

def FaultGroup.name : FaultGroup → String
  | .parse => "Parse"
  | .schema => "Schema"
  | .validation => "Validation"
  | .evaluation => "Evaluation"
  | .storage => "Storage"

inductive Malformed where
  | createTable
  | repeatedColumn (column table : String)
  | insert
  | columnList (list : String)
  | noValues
  | emptyValue
  | parenthesisInValue (value : String)
  | selectWithoutFrom
  | orderBy
  | limit
  | limitTooLarge
  | update
  | setClause (clause : String)
  | assignmentWithoutValue (column : String)
  | noAssignments
  | delete
  | dropTable
  | renameTable
  | showTable
  | describe
  | createIndex
  | emptyColumn
  | defaultOfOtherType (shown column : String) (type : ColumnType)
  | emptyWhere
  | conditionWithoutColumn (condition : String)
  | conditionWithoutValue (condition : String)
  | conditionWithoutOperator (condition : String)
  | tornCharacter
  deriving DecidableEq, Repr

def Malformed.message : Malformed → String
  | .createTable => "Invalid CREATE TABLE syntax"
  | .repeatedColumn column table => s!"Duplicate column '{column}' in table '{table}'"
  | .insert => "Invalid INSERT syntax"
  | .columnList list => s!"Invalid column list '({list})'"
  | .noValues => "INSERT requires at least one value"
  | .emptyValue => "Empty value in VALUES list"
  | .parenthesisInValue value => s!"Unexpected parenthesis in value '{value}'"
  | .selectWithoutFrom => "Invalid SELECT syntax: Missing FROM clause"
  | .orderBy => "Invalid ORDER BY clause: expected ORDER BY column [ASC|DESC]"
  | .limit => "LIMIT requires a non-negative integer"
  | .limitTooLarge => "LIMIT value is too large"
  | .update => "Invalid UPDATE syntax"
  | .setClause clause => s!"Invalid SET clause '{clause}'"
  | .assignmentWithoutValue column => s!"Missing value for column '{column}'"
  | .noAssignments => "UPDATE requires at least one assignment"
  | .delete => "Invalid DELETE syntax"
  | .dropTable => "Invalid DROP TABLE syntax. Use: DROP TABLE table_name"
  | .renameTable => "Invalid RENAME syntax. Use: RENAME TABLE old_name TO new_name"
  | .showTable => "Invalid SHOW TABLE syntax. Use: SHOW TABLE table_name"
  | .describe => "Invalid DESCRIBE syntax. Use: DESC table_name"
  | .createIndex =>
    "Invalid CREATE INDEX syntax. Use: CREATE INDEX ON table_name(column_name)"
  | .emptyColumn => "Empty column definition"
  | .defaultOfOtherType shown column type =>
    s!"Invalid DEFAULT '{shown}' for column '{column}': must be {type.name}"
  | .emptyWhere => "WHERE clause is empty"
  | .conditionWithoutColumn condition => s!"Missing column in condition '{condition}'"
  | .conditionWithoutValue condition => s!"Missing value in condition '{condition}'"
  | .conditionWithoutOperator condition =>
    s!"Invalid condition '{condition}': no comparison operator"
  | .tornCharacter => "A cut falls inside a character"

/-- Why a statement or a file operation failed. -/
inductive Fault where
  | malformed (problem : Malformed)
  | unsupported
  | tableExists (table : String)
  | renameTargetExists (table : String)
  | indexExists (table column : String)
  | tableNotFound (table : String)
  | noPrimaryKey
  | unknownColumn (column table : String)
  | missingColumn (column : String)
  | missingKey (column : String)
  | duplicateKey (id : String)
  | duplicateValue (column shown : String)
  | listedCount (columns values : Nat)
  | schemaCount (columns values : Nat)
  | typeMismatch (column : String) (type : ColumnType)
  | comparesNothing (column : String) (operator : Operator)
  | comparesNoNumber (column : String) (operator : Operator) (shown : String)
  | fileAccess
  | fileContent
  | fileLocked
  | lostPosition
  deriving DecidableEq, Repr

namespace Fault

def kind : Fault → FaultKind
  | .malformed _ => .parse
  | .unsupported => .unsupportedQuery
  | .tableExists _ | .renameTargetExists _ | .indexExists _ _ => .alreadyExists
  | .tableNotFound _ => .notFound
  | .noPrimaryKey => .noPrimaryKey
  | .unknownColumn _ _ => .unknownColumn
  | .missingColumn _ => .missingRequiredColumn
  | .missingKey _ => .missingPrimaryKeyValue
  | .duplicateKey _ => .duplicateKey
  | .duplicateValue _ _ => .duplicateValue
  | .listedCount _ _ | .schemaCount _ _ => .columnCountMismatch
  | .typeMismatch _ _ => .typeMismatch
  | .comparesNothing _ _ | .comparesNoNumber _ _ _ => .evaluation
  | .fileAccess => .io
  | .fileContent => .serialization
  | .fileLocked => .locked
  | .lostPosition => .internal

def message : Fault → String
  | .malformed problem => problem.message
  | .unsupported => "Unsupported SQL command"
  | .tableExists table =>
    s!"Table '{table}' already exists! Use a different name or DROP TABLE first."
  | .renameTargetExists table => s!"Table '{table}' already exists"
  | .indexExists table column => s!"Index on '{table}.{column}' already exists"
  | .tableNotFound table => s!"Table '{table}' does not exist"
  | .noPrimaryKey => "No primary key defined in table schema"
  | .unknownColumn column table => s!"Unknown column '{column}' in table '{table}'"
  | .missingColumn column => s!"Required column '{column}' is missing"
  | .missingKey column => s!"Primary key '{column}' is required"
  | .duplicateKey id => s!"Duplicate primary key '{id}' - record already exists"
  | .duplicateValue column shown =>
    s!"Duplicate value '{shown}' for unique column '{column}'"
  | .listedCount columns values =>
    s!"Column count mismatch. {columns} columns listed, but {values} values provided"
  | .schemaCount columns values =>
    s!"Column count mismatch. Table has {columns} columns, but {values} values provided"
  | .typeMismatch column type => s!"Column '{column}' must be {type.name}"
  | .comparesNothing column operator =>
    s!"Cannot compare '{column}' using {operator.symbol}: column has no value"
  | .comparesNoNumber column operator shown =>
    s!"Cannot compare '{column}' using {operator.symbol}: '{shown}' is not a number"
  | .fileAccess => "The data file cannot be read or written"
  | .fileContent => "The data file holds no catalog"
  | .fileLocked => "The data file is locked"
  | .lostPosition => "A recorded position lies past the last record"

def label (kind : FaultKind) (message : String) : String := s!"{kind.name}: {message}"

def shown (fault : Fault) : String := label fault.kind fault.message

end Fault

end Rowfile

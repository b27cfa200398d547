import Rowfile.Catalog.Basic

/-!
# Inserting

A record is filled with defaults, checked against the schema, converted to what its columns keep, and
then stored under its shown primary key, which no recorded record may have. A column that is declared
unique and is no primary key may not repeat a shown value.
-/
namespace Rowfile

namespace Record

/-- The id of a record: its shown primary key, which is present and not falsy. -/
def key (record : Record) (column : String) : Except Fault RecordId :=
  match record.find? column with
  | some value => if value.isFalsy then .error (.missingKey column) else .ok value.shown
  | none => .error (.missingKey column)

end Record

namespace Table

/-- No record shows in a unique column what a new record shows there. -/
def checkUnique (table : Table) (record : Record) : List Column → Except Fault Unit
  | [] => .ok ()
  | column :: columns =>
    match record.find? column.name with
    | none => checkUnique table record columns
    | some value =>
      if table.records.values.any (·.shows column.name value.shown) then
        .error (.duplicateValue column.name value.shown)
      else checkUnique table record columns

/-- The id and the record under which a record is to be stored: filled with defaults, checked and
converted. -/
def prepare (table : Table) (name : String) (record : Record) :
    Except Fault (RecordId × Record) := do
  let schema := table.schema
  let record := schema.fill record
  schema.check name record
  let record := schema.conform record
  match schema.primaryKey? with
  | none => throw .noPrimaryKey
  | some column => return (← record.key column.name, record)

/-- The id and the record under which a record is stored, if the table takes it. -/
def accept (table : Table) (name : String) (record : Record) :
    Except Fault (RecordId × Record) := do
  let (id, record) ← table.prepare name record
  if table.records.contains id then throw (.duplicateKey id)
  table.checkUnique record table.schema.uniqueColumns
  return (id, record)

def store (table : Table) (id : RecordId) (record : Record) : Except Fault Table :=
  match table.records.insert id record with
  | (.ok _, records) => .ok { table with records := records }
  | (.error _, _) => .error .lostPosition

/-- The columns to which the values of an INSERT are bound: those listed, or all in order. -/
def boundColumns (table : Table) (name : String) (columns : Option (List String)) (count : Nat) :
    Except Fault (List String) :=
  match columns with
  | some columns =>
    if columns.length ≠ count then .error (.listedCount columns.length count)
    else
      match columns.find? fun column => (table.schema.column? column).isNone with
      | some column => .error (.unknownColumn column name)
      | none => .ok columns
  | none =>
    if table.schema.size ≠ count then .error (.schemaCount table.schema.size count)
    else .ok table.schema.names

end Table

namespace Catalog

def insert (name : String) (record : Record) (catalog : Catalog) :
    Except Fault (Step RecordId) := do
  let table ← catalog.table name
  let (id, record) ← table.accept name record
  let table ← table.store id record
  return ⟨id, (catalog.fileRecord name id record).setTable name table, true⟩

/-- Store a record of values that are bound to columns by position. The answer is its id. -/
def insertValues (name : String) (columns : Option (List String)) (values : List Value)
    (catalog : Catalog) : Except Fault (Step RecordId) := do
  let table ← catalog.table name
  let columns ← table.boundColumns name columns values.length
  catalog.insert name (KeyedMap.ofList (columns.zip values))

end Catalog

end Rowfile

import Rowfile.Catalog.Insert
import Rowfile.Catalog.Select

/-!
# Updating

Assignments are checked and converted first. Then every record that passes the filter is staged: the
record it becomes is computed with its new id. Only when all staged records have been checked against
each other and against the rest of the table are they put in place, so an update changes all records
or none.
-/
namespace Rowfile

structure Staged where
  oldId : RecordId
  newId : RecordId
  old : Record
  new : Record
  deriving DecidableEq, Repr

namespace Table

/-- The assignments with their values as the columns keep them. -/
def changes (table : Table) (name : String) :
    List Assignment → Except Fault (List (String × Value))
  | [] => .ok []
  | assignment :: rest =>
    match table.schema.column? assignment.column with
    | none => .error (.unknownColumn assignment.column name)
    | some column => do
      column.check assignment.value
      let rest ← changes table name rest
      return (column.name, assignment.value.conform column.type) :: rest

/-- The id of a record that replaces another: its key, or the old id in a table without one. -/
def newId (table : Table) (oldId : RecordId) (record : Record) : Except Fault RecordId :=
  match table.schema.primaryKey? with
  | some column => record.key column.name
  | none => .ok oldId

/-- The records that pass a filter, each with the record that changes make of it. -/
def stage (table : Table) (changes : List (String × Value)) (filter : Option Predicate) :
    List (RecordId × Record) → Except Fault (List Staged)
  | [] => .ok []
  | (id, record) :: rest => do
    if ← Predicate.accepts filter record then
      let new := record.insertAll changes
      let newId ← table.newId id new
      let staged ← stage table changes filter rest
      return ⟨id, newId, record, new⟩ :: staged
    else stage table changes filter rest

/-- No two staged records have one new id, and none has the id of another record. `seen` holds the
new ids so far. -/
def checkKeys (table : Table) (seen : List RecordId) : List Staged → Except Fault Unit
  | [] => .ok ()
  | s :: rest =>
    if seen.contains s.newId then .error (.duplicateKey s.newId)
    else if s.newId ≠ s.oldId ∧ table.records.contains s.newId = true then
      .error (.duplicateKey s.newId)
    else checkKeys table (s.newId :: seen) rest

/-- No staged record shows in a column what is taken there; it takes what it shows. -/
def checkColumn (column : String) (taken : List String) : List Staged → Except Fault Unit
  | [] => .ok ()
  | s :: rest =>
    match s.new.find? column with
    | none => checkColumn column taken rest
    | some value =>
      if taken.contains value.shown then .error (.duplicateValue column value.shown)
      else checkColumn column (value.shown :: taken) rest

/-- What the records that are not staged show in a column. -/
def takenBeside (table : Table) (staged : List Staged) (column : String) : List String :=
  table.records.entries.filterMap fun entry =>
    if (staged.map Staged.oldId).contains entry.1 then none
    else (entry.2.find? column).map Value.shown

def checkStagedUnique (table : Table) (staged : List Staged) : Except Fault Unit :=
  table.schema.uniqueColumns.forM fun column =>
    checkColumn column.name (table.takenBeside staged column.name) staged

/-- Staged records put in the places of the records that they replace. -/
def place (records : PositionedMap Record) : List Staged → Except Fault (PositionedMap Record)
  | [] => .ok records
  | s :: rest =>
    match records.rekey s.oldId s.newId s.new with
    | (.ok _, records) => place records rest
    | (.error _, _) => .error .lostPosition

end Table

namespace Catalog

/-- Apply assignments to every record that passes a filter. The answer is the number of these. -/
def update (name : String) (assignments : List Assignment) (filter : Option Predicate)
    (catalog : Catalog) : Except Fault (Step Nat) := do
  let table ← catalog.table name
  let changes ← table.changes name assignments
  let staged ← table.stage changes filter table.records.entries
  if staged.isEmpty then return ⟨0, catalog, false⟩
  table.checkKeys [] staged
  table.checkStagedUnique staged
  let records ← Table.place table.records staged
  let refiled := staged.foldl (fun catalog s =>
    catalog.refileRecord name s.oldId s.old s.newId s.new) catalog
  return ⟨staged.length, refiled.setTable name { table with records := records }, true⟩

end Catalog

end Rowfile

import Rowfile.Index
import Rowfile.Schema

/-!
# The catalog

A catalog is what a database holds: tables with their schemas and records, and the indexes of each
table. Every operation on a catalog either fails and gives nothing, or gives its answer with the next
catalog and says whether that is to be saved.
-/
namespace Rowfile

structure Table where
  schema : Schema
  records : PositionedMap Record
  deriving DecidableEq, Repr

abbrev TableIndexes := KeyedMap Index

structure Catalog where
  tables : KeyedMap Table
  indexes : KeyedMap TableIndexes
  deriving Repr

/-- The outcome of an operation: its answer, the catalog after it, and whether it is to be saved. -/
structure Step (α : Type) where
  answer : α
  catalog : Catalog
  saves : Bool

structure TableSummary where
  name : String
  columns : List String
  records : Nat
  indexes : List String
  deriving DecidableEq, Repr

def TableSummary.text (summary : TableSummary) : String :=
  let indexes :=
    if summary.indexes.isEmpty then "None" else String.intercalate ", " summary.indexes
  s!"Table: {summary.name}\nRecords: {summary.records}\nIndexes: {indexes}"

namespace Table

def ofSchema (schema : Schema) : Table := ⟨schema, .empty⟩

def size (table : Table) : Nat := table.records.size

end Table

namespace Catalog

def empty : Catalog := ⟨.empty, .empty⟩

instance : Inhabited Catalog := ⟨empty⟩

def table (catalog : Catalog) (name : String) : Except Fault Table :=
  match catalog.tables.find? name with
  | some table => .ok table
  | none => .error (.tableNotFound name)

def setTable (catalog : Catalog) (name : String) (table : Table) : Catalog :=
  { catalog with tables := catalog.tables.insert name table }

def indexesOf (catalog : Catalog) (name : String) : TableIndexes :=
  (catalog.indexes.find? name).getD .empty

def index? (catalog : Catalog) (name column : String) : Option Index :=
  (catalog.indexes.find? name).bind (·.find? column)

/-- The catalog with every index of one table changed under its column. -/
def mapIndexes (catalog : Catalog) (name : String) (change : String → Index → Index) : Catalog :=
  match catalog.indexes.find? name with
  | none => catalog
  | some indexes =>
    { catalog with indexes := catalog.indexes.insert name (indexes.mapWithKey change) }

def fileRecord (catalog : Catalog) (name : String) (id : RecordId) (record : Record) : Catalog :=
  catalog.mapIndexes name fun column index => index.file column id record

def unfileRecord (catalog : Catalog) (name : String) (id : RecordId) (record : Record) : Catalog :=
  catalog.mapIndexes name fun column index => index.unfile column id record

/-- A record is moved, in every index of its table, to the place of the record that replaces it. -/
def refileRecord (catalog : Catalog) (name : String) (oldId : RecordId) (old : Record)
    (newId : RecordId) (new : Record) : Catalog :=
  catalog.mapIndexes name fun column index => index.refile column oldId old newId new

def totalRecords (catalog : Catalog) : Nat :=
  catalog.tables.values.foldr (fun table total => table.size + total) 0

def summary (catalog : Catalog) (name : String) : Except Fault TableSummary :=
  (catalog.table name).map fun table =>
    ⟨name, table.schema.names, table.size, (catalog.indexesOf name).keys⟩

def summaries (catalog : Catalog) : List TableSummary :=
  catalog.tables.entries.map fun entry =>
    ⟨entry.1, entry.2.schema.names, entry.2.size, (catalog.indexesOf entry.1).keys⟩

@[simp]
theorem tables_mapIndexes (catalog : Catalog) (name : String) (change : String → Index → Index) :
    (catalog.mapIndexes name change).tables = catalog.tables := by
  unfold mapIndexes; split <;> rfl

@[simp]
theorem index?_mapIndexes (catalog : Catalog) (name other column : String)
    (change : String → Index → Index) :
    (catalog.mapIndexes name change).index? other column =
      if other = name then (catalog.index? name column).map (change column)
      else catalog.index? other column := by
  unfold mapIndexes
  by_cases h : other = name
  · subst h
    split
    · next hnone => simp [index?, hnone]
    · next indexes hsome => simp [index?, hsome]
  · split
    · rw [if_neg h]
    · simp [index?, h]

@[simp]
theorem index?_setTable (catalog : Catalog) (name other column : String) (table : Table) :
    (catalog.setTable name table).index? other column = catalog.index? other column := rfl

theorem find?_setTable (catalog : Catalog) (name : String) (table : Table) :
    (catalog.setTable name table).tables.find? name = some table := by
  rw [setTable, KeyedMap.find?_insert, if_pos rfl]

theorem table_eq_ok_iff {catalog : Catalog} {name : String} {table : Table} :
    catalog.table name = .ok table ↔ catalog.tables.find? name = some table := by
  unfold Catalog.table
  cases catalog.tables.find? name <;> simp

end Catalog

end Rowfile

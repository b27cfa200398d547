import Rowfile.Catalog.Basic

/-!
# Defining tables and indexes

Tables are created under free names, dropped with their indexes, and renamed, which moves them to the
end of the catalog. An index is built over the records that the table holds at that time.
-/
namespace Rowfile.Catalog

def createTable (name : String) (schema : Schema) (catalog : Catalog) : Except Fault (Step Unit) :=
  if catalog.tables.contains name then .error (.tableExists name)
  else .ok ⟨(), catalog.setTable name (.ofSchema schema), true⟩

/-- Drop a table with its records and indexes. The answer is the number of its records. -/
def dropTable (name : String) (catalog : Catalog) : Except Fault (Step Nat) := do
  let table ← catalog.table name
  return ⟨table.size, ⟨catalog.tables.erase name, catalog.indexes.erase name⟩, true⟩

/-- The entry of a map moved to the end under a new key, if it is there. -/
def moveEntry {V : Type} (old new : String) (m : KeyedMap V) : KeyedMap V :=
  match m.find? old with
  | some value => (m.erase old).insert new value
  | none => m

theorem find?_moveEntry {V : Type} {m : KeyedMap V} {old : String} {value : V}
    (h : m.find? old = some value) (new other : String) :
    (moveEntry old new m).find? other =
      if other = new then some value else if other = old then none else m.find? other := by
  simp only [moveEntry, h, KeyedMap.find?_insert, KeyedMap.find?_erase]

theorem moveEntry_of_absent {V : Type} {m : KeyedMap V} {old : String}
    (h : m.find? old = none) (new : String) : moveEntry old new m = m := by
  simp only [moveEntry, h]

def renameTable (old new : String) (catalog : Catalog) : Except Fault (Step Unit) :=
  if !catalog.tables.contains old then .error (.tableNotFound old)
  else if catalog.tables.contains new then .error (.renameTargetExists new)
  else .ok ⟨(), ⟨moveEntry old new catalog.tables, moveEntry old new catalog.indexes⟩, true⟩

def createIndex (name column : String) (catalog : Catalog) : Except Fault (Step Unit) := do
  let table ← catalog.table name
  if (table.schema.column? column).isNone then throw (.unknownColumn column name)
  let indexes := catalog.indexesOf name
  if indexes.contains column then throw (.indexExists name column)
  let indexes := indexes.insert column (Index.build column table.records.entries)
  return ⟨(), { catalog with indexes := catalog.indexes.insert name indexes }, true⟩

end Rowfile.Catalog

import Rowfile.Catalog.Select

/-!
# Deleting

The records that pass a filter are taken out of the indexes of their table and then out of the table.
The others stay as they are and where they are.
-/
namespace Rowfile.Catalog

def delete (name : String) (filter : Option Predicate) (catalog : Catalog) :
    Except Fault (Step Nat) := do
  let table ← catalog.table name
  let doomed ← passing filter table.records.entries
  if doomed.isEmpty then return ⟨0, catalog, false⟩
  let unfiled := doomed.foldl (fun catalog entry =>
    catalog.unfileRecord name entry.1 entry.2) catalog
  let ids := doomed.map Prod.fst
  let records := table.records.retain fun id _ => !ids.contains id
  return ⟨doomed.length, unfiled.setTable name { table with records := records }, true⟩

end Rowfile.Catalog

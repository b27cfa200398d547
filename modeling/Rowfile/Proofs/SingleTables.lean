import Rowfile.Proofs.Outcomes

/-!
# Changes to a single table

Storing, updating and deleting records set one table and pass over the indexes of that table. Every
other table and its indexes stay as they are, no table or index comes or goes, and the order of both
is kept. What a database holds after such a change is the catalog of the change whether or not saving
it works; an answer is given only for a change that was made.
-/
namespace Rowfile

namespace Catalog

/-- The same tables and indexes in the same order, which differ at most in one table and in what the
indexes of that table list. -/
structure SameBeside (name : String) (before after : Catalog) : Prop where
  names : after.tables.keys = before.tables.keys
  tables : ∀ other, other ≠ name → after.tables.find? other = before.tables.find? other
  indexedTables : after.indexes.keys = before.indexes.keys
  indexes : ∀ other, other ≠ name → after.indexes.find? other = before.indexes.find? other
  indexedColumns : (after.indexesOf name).keys = (before.indexesOf name).keys

variable {before after : Catalog} {name : String}

theorem sameBeside_refl (name : String) (catalog : Catalog) : catalog.SameBeside name catalog :=
  ⟨rfl, fun _ _ => rfl, rfl, fun _ _ => rfl, rfl⟩

theorem find?_indexes_mapIndexes (catalog : Catalog) (name other : String)
    (change : String → Index → Index) :
    (catalog.mapIndexes name change).indexes.find? other =
      if other = name then (catalog.indexes.find? name).map (KeyedMap.mapWithKey change)
      else catalog.indexes.find? other := by
  unfold mapIndexes
  cases hi : catalog.indexes.find? name with
  | none =>
    by_cases h : other = name
    · rw [if_pos h, h, Option.map_none, hi]
    · rw [if_neg h]
  | some indexes => rw [KeyedMap.find?_insert, Option.map_some]

namespace SameBeside

theorem mapIndexes (h : before.SameBeside name after) (change : String → Index → Index) :
    before.SameBeside name (after.mapIndexes name change) := by
  refine ⟨?_, fun other hother => ?_, ?_, fun other hother => ?_, ?_⟩
  · rw [tables_mapIndexes, h.names]
  · rw [tables_mapIndexes, h.tables other hother]
  · rw [keys_indexes_mapIndexes, h.indexedTables]
  · rw [find?_indexes_mapIndexes, if_neg hother, h.indexes other hother]
  · rw [← h.indexedColumns, indexesOf, indexesOf, find?_indexes_mapIndexes, if_pos rfl]
    cases after.indexes.find? name with
    | none => rfl
    | some indexes => exact KeyedMap.keys_mapWithKey change indexes

theorem foldl_mapIndexes {α : Type} (change : α → String → Index → Index) (l : List α)
    (h : before.SameBeside name after) : before.SameBeside name
      (l.foldl (fun catalog a => catalog.mapIndexes name (change a)) after) := by
  induction l generalizing after with
  | nil => exact h
  | cons a l ih => exact ih (h.mapIndexes (change a))

theorem setTable (h : before.SameBeside name after) {table : Table}
    (ht : before.tables.find? name = some table) (table' : Table) :
    before.SameBeside name (after.setTable name table') := by
  refine ⟨?_, fun other hother => ?_, h.indexedTables, h.indexes, h.indexedColumns⟩
  · have hmem : name ∈ after.tables.keys := by
      rw [h.names, ← KeyedMap.find?_isSome, ht]
      rfl
    rw [← h.names]
    exact (KeyedMap.entryKeys_setEntry name table' after.tables.entries).trans (if_pos hmem)
  · rw [Catalog.setTable, KeyedMap.find?_insert, if_neg hother, h.tables other hother]

end SameBeside

end Catalog

namespace Database

variable {σ α : Type} [Store σ] {db : Database σ} {operation : Catalog → Except Fault (Step α)}

/-- A failed operation leaves the database as it was. -/
theorem change_of_error {fault : Fault} (h : operation db.catalog = .error fault) :
    db.change operation = (.error fault, db) := by
  rw [change, h]
  rfl

/-- A successful operation is answered unless it is to be saved and saving fails. -/
theorem change_of_ok {step : Step α} (h : operation db.catalog = .ok step) :
    (db.change operation).2.catalog = step.catalog ∧
      (db.change operation).1 =
        (if step.saves then (Store.save step.catalog db.store).1 else .ok ()).map
          fun _ => step.answer := by
  refine ⟨by rw [catalog_change, h]; rfl, ?_⟩
  obtain ⟨answer, catalog, saves⟩ := step
  cases saves with
  | false =>
    rw [change, h]
    rfl
  | true => rw [change, h, commit_of_saves, if_pos rfl]

/-- What is answered is the answer of a step, and the catalog after it is held. -/
theorem exists_step_of_change {answer : α} (h : (db.change operation).1 = .ok answer) :
    ∃ step, operation db.catalog = .ok step ∧ step.answer = answer ∧
      (db.change operation).2.catalog = step.catalog := by
  cases hstep : operation db.catalog with
  | error fault =>
    rw [change_of_error hstep] at h
    cases h
  | ok step =>
    obtain ⟨hcatalog, hanswer⟩ := change_of_ok hstep
    rw [hanswer] at h
    obtain ⟨_, _, he⟩ := map_eq_ok.mp h
    exact ⟨step, rfl, he, hcatalog⟩

end Database

end Rowfile

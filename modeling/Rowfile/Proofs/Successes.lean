import Rowfile.Catalog.Definition
import Rowfile.Catalog.Delete
import Rowfile.Proofs.Peeling
import Rowfile.Proofs.Positions

/-!
# Successful operations

What a catalog was like and what became of it when an operation succeeded. Each operation is
opened here once, with all that it checks, and what holds of catalogs after operations is proved
from these statements.
-/
namespace Rowfile

theorem Table.store_eq_ok_iff {table table' : Table} {id : RecordId} {record : Record}
    (hfree : table.records.contains id = false) :
    table.store id record = .ok table' ↔
      table' = { table with records := table.records.extend id record } := by
  simp only [Table.store, PositionedMap.insert_eq_extend hfree, Except.ok.injEq, eq_comm]

/-- A record that a table takes is stored at the end. -/
theorem Table.store_of_accept {table : Table} {name : String} {record stored : Record} {id : RecordId}
    (haccept : table.accept name record = .ok (id, stored)) :
    table.store id stored = .ok { table with records := table.records.extend id stored } :=
  (store_eq_ok_iff (accept_eq_ok_iff.mp haccept).2.1).mpr rfl

/-- A record that was taken has a free id and stands at the end. -/
theorem Table.eq_of_stored {table table' : Table} {name : String} {record stored : Record}
    {id : RecordId} (haccept : table.accept name record = .ok (id, stored))
    (hstore : table.store id stored = .ok table') :
    table.records.contains id = false ∧
      table' = { table with records := table.records.extend id stored } := by
  have hfree := (accept_eq_ok_iff.mp haccept).2.1
  exact ⟨hfree, (store_eq_ok_iff hfree).mp hstore⟩

/-- A record that a table takes is filed and then stored at the end. -/
theorem Catalog.insert_of_accept {catalog : Catalog} {name : String} {table : Table}
    (ht : catalog.tables.find? name = some table) {record stored : Record} {id : RecordId}
    (haccept : table.accept name record = .ok (id, stored)) :
    catalog.insert name record = .ok ⟨id, (catalog.fileRecord name id stored).setTable name
      { table with records := table.records.extend id stored }, true⟩ := by
  rw [insert, table_eq_ok_iff.mpr ht]
  simp only [ok_bind, haccept, Table.store_of_accept haccept, pure_eq_ok]

namespace Catalog

variable {catalog : Catalog} {name : String}

theorem createTable_eq_ok {schema : Schema} {step : Step Unit}
    (h : catalog.createTable name schema = .ok step) :
    catalog.tables.find? name = none ∧
      step = ⟨(), catalog.setTable name (.ofSchema schema), true⟩ := by
  unfold createTable at h
  split at h
  · cases h
  · next hfree =>
    exact ⟨KeyedMap.contains_eq_false_iff.mp (Bool.eq_false_iff.mpr hfree),
      (Except.ok.inj h).symm⟩

theorem dropTable_eq_ok {step : Step Nat} (h : catalog.dropTable name = .ok step) :
    ∃ table, catalog.tables.find? name = some table ∧
      step = ⟨table.size, ⟨catalog.tables.erase name, catalog.indexes.erase name⟩, true⟩ := by
  simp only [dropTable, bind_eq_ok, pure_eq_ok] at h
  obtain ⟨table, ht, h⟩ := h
  exact ⟨table, table_eq_ok_iff.mp ht, (Except.ok.inj h).symm⟩

theorem renameTable_eq_ok {old new : String} {step : Step Unit}
    (h : catalog.renameTable old new = .ok step) :
    (∃ table, catalog.tables.find? old = some table) ∧ catalog.tables.find? new = none ∧
      step = ⟨(), ⟨moveEntry old new catalog.tables, moveEntry old new catalog.indexes⟩,
        true⟩ := by
  unfold renameTable at h
  cases hold : catalog.tables.contains old with
  | false => simp [hold] at h
  | true =>
    cases hnew : catalog.tables.contains new with
    | true => simp [hold, hnew] at h
    | false =>
      simp only [hold, hnew, Bool.not_true, Bool.false_eq_true, if_false] at h
      exact ⟨Option.isSome_iff_exists.mp (KeyedMap.contains_iff.mp hold),
        KeyedMap.contains_eq_false_iff.mp hnew, (Except.ok.inj h).symm⟩

theorem createIndex_eq_ok {column : String} {step : Step Unit}
    (h : catalog.createIndex name column = .ok step) :
    ∃ table, catalog.tables.find? name = some table ∧
      (table.schema.column? column).isSome = true ∧
      (catalog.indexesOf name).contains column = false ∧
      step = ⟨(), { catalog with
        indexes := catalog.indexes.insert name ((catalog.indexesOf name).insert column
          (Index.build column table.records.entries)) }, true⟩ := by
  simp only [createIndex, bind_eq_ok] at h
  obtain ⟨table, ht, h⟩ := h
  cases hcolumn : table.schema.column? column with
  | none => simp [hcolumn] at h
  | some found =>
    cases hfree : (catalog.indexesOf name).contains column with
    | true => simp [hcolumn, hfree] at h
    | false =>
      simp only [hcolumn, hfree, Option.isNone_some, Bool.false_eq_true, if_false,
        pure_eq_ok] at h
      exact ⟨table, table_eq_ok_iff.mp ht, by rw [hcolumn]; rfl, rfl, (Except.ok.inj h).symm⟩

theorem insert_eq_ok {record : Record} {step : Step RecordId}
    (h : catalog.insert name record = .ok step) :
    ∃ table id stored, catalog.tables.find? name = some table ∧
      table.accept name record = .ok (id, stored) ∧
      step = ⟨id, (catalog.fileRecord name id stored).setTable name
        { table with records := table.records.extend id stored }, true⟩ := by
  simp only [insert, bind_eq_ok] at h
  obtain ⟨table, ht, ⟨id, stored⟩, haccept, table', hstore, h⟩ := h
  obtain ⟨_, rfl⟩ := Table.eq_of_stored haccept hstore
  exact ⟨table, id, stored, table_eq_ok_iff.mp ht, haccept, (Except.ok.inj h).symm⟩

theorem insertValues_eq_ok_iff {columns : Option (List String)} {values : List Value}
    {step : Step RecordId} : catalog.insertValues name columns values = .ok step ↔
      ∃ table, catalog.tables.find? name = some table ∧
        ∃ names, table.boundColumns name columns values.length = .ok names ∧
          catalog.insert name (.ofList (names.zip values)) = .ok step := by
  simp only [insertValues, bind_eq_ok, table_eq_ok_iff]

theorem insertValues_eq_ok {columns : Option (List String)} {values : List Value}
    {step : Step RecordId} (h : catalog.insertValues name columns values = .ok step) :
    ∃ record : Record, (∀ value ∈ record.values, value ∈ values) ∧
      catalog.insert name record = .ok step := by
  obtain ⟨_, _, names, _, h⟩ := insertValues_eq_ok_iff.mp h
  refine ⟨_, fun value hv => ?_, h⟩
  obtain ⟨⟨column, _⟩, he, rfl⟩ := List.mem_map.mp hv
  rcases KeyedMap.mem_of_find?_insertAll (KeyedMap.find?_eq_some_iff.mpr he) with hm | hm
  · exact (List.of_mem_zip hm).2
  · cases hm

theorem update_eq_ok {assignments : List Assignment} {filter : Option Predicate}
    {step : Step Nat} (h : catalog.update name assignments filter = .ok step) :
    ∃ table changes staged, catalog.tables.find? name = some table ∧
      table.changes name assignments = .ok changes ∧
      table.stage changes filter table.records.entries = .ok staged ∧
      (staged = [] ∧ step = ⟨0, catalog, false⟩ ∨
        staged ≠ [] ∧ table.checkKeys [] staged = .ok () ∧
        table.checkStagedUnique staged = .ok () ∧
        ∃ records, Table.place table.records staged = .ok records ∧
          step = ⟨staged.length, (staged.foldl (fun catalog s =>
            catalog.refileRecord name s.oldId s.old s.newId s.new) catalog).setTable name
              { table with records := records }, true⟩) := by
  simp only [update, bind_eq_ok] at h
  obtain ⟨table, ht, changes, hchanges, staged, hstage, h⟩ := h
  refine ⟨table, changes, staged, table_eq_ok_iff.mp ht, hchanges, hstage, ?_⟩
  cases hempty : staged.isEmpty with
  | true =>
    simp only [hempty, if_true] at h
    exact .inl ⟨List.isEmpty_iff.mp hempty, (Except.ok.inj h).symm⟩
  | false =>
    simp only [hempty, Bool.false_eq_true, if_false, bind_eq_ok] at h
    obtain ⟨_, hkeys, _, hunique, records, hplace, h⟩ := h
    refine .inr ⟨fun hnil => ?_, hkeys, hunique, records, hplace, (Except.ok.inj h).symm⟩
    rw [hnil] at hempty
    cases hempty

theorem delete_eq_ok {filter : Option Predicate} {step : Step Nat}
    (h : catalog.delete name filter = .ok step) :
    ∃ table doomed, catalog.tables.find? name = some table ∧
      passing filter table.records.entries = .ok doomed ∧
      (doomed = [] ∧ step = ⟨0, catalog, false⟩ ∨
        doomed ≠ [] ∧ step = ⟨doomed.length, (doomed.foldl (fun catalog entry =>
          catalog.unfileRecord name entry.1 entry.2) catalog).setTable name { table with
            records := table.records.retain fun id _ => !(doomed.map Prod.fst).contains id },
          true⟩) := by
  simp only [delete, bind_eq_ok] at h
  obtain ⟨table, ht, doomed, hdoomed, h⟩ := h
  refine ⟨table, doomed, table_eq_ok_iff.mp ht, hdoomed, ?_⟩
  cases hempty : doomed.isEmpty with
  | true =>
    simp only [hempty, if_true] at h
    exact .inl ⟨List.isEmpty_iff.mp hempty, (Except.ok.inj h).symm⟩
  | false =>
    simp only [hempty, Bool.false_eq_true, if_false] at h
    refine .inr ⟨fun hnil => ?_, (Except.ok.inj h).symm⟩
    rw [hnil] at hempty
    cases hempty

end Catalog

end Rowfile

import Rowfile.Proofs.Reopening

/-!
# Restoring a table

A table is dumped as its schema and its records in order, and restored by creating a table and
inserting the records one after another. Inserting fills a record, checks it, converts it, derives
its id and looks for the id and for the unique values of the record among those that are stored.
Whatever inserts, updates and deletions made of a table, its records pass all of this as they are:
the schema admits each of them, and neither ids nor values of unique columns repeat. So the restored
table has the same records under the same ids, in the same order.
-/
namespace Rowfile

/-! ## Stores that keep working -/

/-- Every save to the store works, and so does every save after it. -/
def Store.KeepsWorking {σ : Type} [Store σ] (store : σ) : Prop :=
  ∀ saved : List Catalog,
    Store.Works (saved.foldl (fun store catalog => (Store.save catalog store).2) store)

section
variable {σ α : Type} [Store σ]

theorem Store.KeepsWorking.saved {store : σ} (h : Store.KeepsWorking store) (catalog : Catalog) :
    Store.KeepsWorking (Store.save catalog store).2 :=
  fun saved => h (catalog :: saved)

namespace Database

theorem keepsWorking_change {db : Database σ} (hw : Store.KeepsWorking db.store)
    (operation : Catalog → Except Fault (Step α)) :
    Store.KeepsWorking (db.change operation).2.store := by
  unfold change
  cases operation db.catalog with
  | error fault => exact hw
  | ok step =>
    obtain ⟨answer, catalog, saves⟩ := step
    cases saves with
    | false => exact hw
    | true =>
      rw [commit_of_saves]
      exact hw.saved catalog

/-- A change that succeeds in memory is answered when saving works. -/
theorem change_of_keepsWorking {catalog : Catalog} {store : σ} (hw : Store.KeepsWorking store)
    {operation : Catalog → Except Fault (Step α)} {step : Step α}
    (hok : operation catalog = .ok step) :
    ∃ next, Store.KeepsWorking next ∧ (⟨catalog, store⟩ : Database σ).change operation =
      (.ok step.answer, ⟨step.catalog, next⟩) := by
  have hanswer : ((⟨catalog, store⟩ : Database σ).change operation).1 = .ok step.answer := by
    rw [change, commit_of_works (hw []), hok]
    rfl
  have hcatalog : ((⟨catalog, store⟩ : Database σ).change operation).2.catalog = step.catalog := by
    rw [catalog_change, hok]
    rfl
  exact ⟨_, keepsWorking_change hw operation, Prod.ext hanswer (by rw [← hcatalog])⟩

end Database

/-! ## Dumping and restoring -/

namespace Database

/-- Insert records into a table one after another, up to the first that is refused. The answer is
their ids. -/
def insertEach (name : String) :
    List Record → Database σ → Except Fault (List RecordId) × Database σ
  | [], db => (.ok [], db)
  | record :: records, db =>
    match db.change (Catalog.insert name record) with
    | (.error fault, db) => (.error fault, db)
    | (.ok id, db) =>
      let (ids, db) := insertEach name records db
      (ids.map (id :: ·), db)

end Database

end

/-! ## Entries that can be stored one after another -/

/-- The schema admits every entry, and neither the ids nor the values of unique columns repeat. -/
structure Schema.Storable (schema : Schema) (entries : List (RecordId × Record)) : Prop where
  admitted : ∀ entry ∈ entries, schema.Admits entry.1 entry.2
  distinct : (entryKeys entries).Nodup
  shown_once : ∀ column ∈ schema.uniqueColumns,
    (Record.shownIn column.name (entries.map Prod.snd)).Nodup

/-- A table that records nothing but the ids of its records takes the entry that follows them, as it
is and under its own id. -/
theorem Schema.Storable.accept {table : Table} {entry : RecordId × Record}
    {rest : List (RecordId × Record)}
    (h : table.schema.Storable (table.records.entries ++ entry :: rest)) (htidy : table.Tidy [])
    (name : String) : table.accept name entry.2 = .ok entry := by
  have hadmits := h.admitted entry (List.mem_append_right _ List.mem_cons_self)
  apply Table.accept_of_admits hadmits
  · have hnew : entry.1 ∉ table.records.keys := by
      have hd := h.distinct
      rw [entryKeys, List.map_append, List.map_cons] at hd
      exact fun hk => (List.nodup_append.mp hd).2.2 _ hk _ List.mem_cons_self rfl
    rw [Bool.eq_false_iff, Ne, (htidy.recorded entry.1).1, or_iff_left List.not_mem_nil]
    exact hnew
  · intro column hc value hv hshown
    have hd := h.shown_once column hc
    rw [List.map_append, List.map_cons, Record.shownIn_append, Record.shownIn_cons hv] at hd
    exact (List.nodup_append.mp hd).2.2 _ hshown _ List.mem_cons_self rfl

/-! ## The restored part of a table -/

/-- A catalog has got as far as some entries in restoring a table under a name: they are stored in a
table of the schema, and every other name has the table that it had before. -/
structure Catalog.Restored (before : Catalog) (name : String) (schema : Schema)
    (entries : List (RecordId × Record)) (after : Catalog) : Prop where
  copied : ∃ copied, after.tables.find? name = some copied ∧ copied.Tidy [] ∧
    copied.schema = schema ∧ copied.records.entries = entries
  others : ∀ other, other ≠ name → after.tables.find? other = before.tables.find? other

namespace Catalog.Restored

variable {before catalog : Catalog} {name : String} {schema : Schema}
  {entries rest : List (RecordId × Record)} {entry : RecordId × Record}

theorem create (hfree : before.tables.find? name = none) (schema : Schema) :
    ∃ step, before.createTable name schema = .ok step ∧
      before.Restored name schema [] step.catalog := by
  have hcreate : before.createTable name schema =
      .ok ⟨(), before.setTable name (.ofSchema schema), true⟩ := by
    rw [createTable, KeyedMap.contains_eq_false_iff.mpr hfree]
    rfl
  refine ⟨_, hcreate, ⟨_, find?_setTable before name _, .ofSchema schema, rfl, rfl⟩, ?_⟩
  intro other hother
  simp only [setTable, KeyedMap.find?_insert, if_neg hother]

/-- The next entry is stored at the end and answered with its id. -/
theorem insert (h : before.Restored name schema entries catalog)
    (hstorable : schema.Storable (entries ++ entry :: rest)) :
    ∃ step, catalog.insert name entry.2 = .ok step ∧ step.answer = entry.1 ∧
      before.Restored name schema (entries ++ [entry]) step.catalog := by
  obtain ⟨⟨table, ht, htidy, rfl, rfl⟩, hothers⟩ := h
  have haccept := hstorable.accept htidy name
  refine ⟨_, insert_of_accept ht haccept, rfl, ?_, ?_⟩
  · exact ⟨_, find?_setTable _ name _, htidy.stored haccept, rfl, rfl⟩
  · intro other hother
    simp only [setTable, fileRecord, tables_mapIndexes, KeyedMap.find?_insert, if_neg hother]
    exact hothers other hother

/-- The entries that are left are stored one after another. -/
theorem insertEach {σ : Type} [Store σ] {store : σ} (hw : Store.KeepsWorking store)
    (h : before.Restored name schema entries catalog)
    (hstorable : schema.Storable (entries ++ rest)) :
    ∃ after left, Database.insertEach name (rest.map Prod.snd) ⟨catalog, store⟩ =
        (.ok (entryKeys rest), ⟨after, left⟩) ∧
      before.Restored name schema (entries ++ rest) after := by
  induction rest generalizing catalog store entries with
  | nil =>
    rw [List.append_nil]
    exact ⟨catalog, store, rfl, h⟩
  | cons entry rest ih =>
    obtain ⟨step, hinsert, hanswer, hnext⟩ := h.insert hstorable
    obtain ⟨next, hwnext, hchange⟩ := Database.change_of_keepsWorking hw hinsert
    rw [List.append_cons] at hstorable ⊢
    obtain ⟨after, left, hrest, hrestored⟩ := ih hwnext hnext hstorable
    refine ⟨after, left, ?_, hrestored⟩
    rw [List.map_cons, Database.insertEach, hchange]
    simp only [hrest, hanswer]
    rfl

end Catalog.Restored

section
variable {σ : Type} [Store σ]

end

end Rowfile

import Rowfile.Proofs.Lifetimes
import Rowfile.Proofs.Storing

/-!
# Moves

Whatever an operation does to a catalog is one of six moves, and what it does to the records of one
table is one of three. A move is given with the values that the operation brings, so that each
invariant needs a look at every move once, and none at the operations. Catalogs are reached by
operations from the catalog without tables, or from any catalog that some octets hold. In all of
them records stand where they are recorded, and no indexes stand under a name without a table.
-/
namespace Rowfile

/-! ## What an operation does -/

namespace Operation

/-- The values that an operation brings: those of its record, its row or its assignments, and the
defaults of a new schema. -/
def values : Operation → List Value
  | .createTable _ schema => schema.list.filterMap Column.default?
  | .insert _ record => record.values
  | .insertValues _ _ values => values
  | .update _ assignments _ => assignments.map Assignment.value
  | .dropTable _ | .renameTable _ _ | .createIndex _ _ | .delete _ _ | .flush => []

end Operation

/-- What an operation does to the records of a table, with the values that it brings. -/
inductive Table.Moves (brought : List Value) (table : Table) : Table → Prop
  | stored {name : String} {record stored : Record} {id : RecordId} :
      (∀ value ∈ record.values, value ∈ brought) → table.accept name record = .ok (id, stored) →
      Moves brought table { table with records := table.records.extend id stored }
  | updated {name : String} {assignments : List Assignment} {changes : List (String × Value)}
      {filter : Option Predicate} {staged : List Staged} {records : PositionedMap Record} :
      (∀ assignment ∈ assignments, assignment.value ∈ brought) →
      table.changes name assignments = .ok changes →
      table.stage changes filter table.records.entries = .ok staged →
      table.checkKeys [] staged = .ok () → Table.place table.records staged = .ok records →
      Moves brought table { table with records := records }
  | deleted (keep : RecordId → Record → Bool) :
      Moves brought table { table with records := table.records.retain keep }

/-- What an operation does to a catalog, with the values that it brings. -/
inductive Catalog.Moves (brought : List Value) (catalog : Catalog) : Catalog → Prop
  | still : Moves brought catalog catalog
  | created {name : String} {schema : Schema} :
      (∀ column ∈ schema.list, ∀ value, column.default? = some value → value ∈ brought) →
      catalog.tables.find? name = none →
      Moves brought catalog (catalog.setTable name (.ofSchema schema))
  | dropped (name : String) :
      Moves brought catalog ⟨catalog.tables.erase name, catalog.indexes.erase name⟩
  | renamed {old new : String} {table : Table} :
      catalog.tables.find? old = some table → catalog.tables.find? new = none →
      Moves brought catalog
        ⟨moveEntry old new catalog.tables, moveEntry old new catalog.indexes⟩
  | indexed {name : String} {table : Table} (indexes : TableIndexes) :
      catalog.tables.find? name = some table →
      Moves brought catalog { catalog with indexes := catalog.indexes.insert name indexes }
  | changed {name : String} {table table' : Table} {indexes : KeyedMap TableIndexes} :
      catalog.tables.find? name = some table → table.Moves brought table' →
      indexes.keys = catalog.indexes.keys →
      Moves brought catalog ⟨catalog.tables.insert name table', indexes⟩

namespace Catalog

variable {catalog : Catalog} {name : String}

theorem keys_indexes_mapIndexes (catalog : Catalog) (name : String)
    (change : String → Index → Index) :
    (catalog.mapIndexes name change).indexes.keys = catalog.indexes.keys := by
  unfold mapIndexes
  cases h : catalog.indexes.find? name with
  | none => rfl
  | some indexes =>
    have hkey : name ∈ catalog.indexes.keys := KeyedMap.find?_isSome.mp (by rw [h]; rfl)
    simp only [KeyedMap.keys, KeyedMap.entries_insert, KeyedMap.entryKeys_setEntry]
    exact if_pos hkey

theorem keys_indexes_foldl_mapIndexes {α : Type} (name : String)
    (change : α → String → Index → Index) (l : List α) (catalog : Catalog) :
    (l.foldl (fun catalog a => catalog.mapIndexes name (change a)) catalog).indexes.keys =
      catalog.indexes.keys := by
  induction l generalizing catalog with
  | nil => rfl
  | cons a l ih => rw [List.foldl_cons, ih, keys_indexes_mapIndexes]

/-! ### Moves of operations -/

theorem moves_setTable {α : Type} {brought : List Value} {table table' : Table}
    (change : α → String → Index → Index) (l : List α)
    (ht : catalog.tables.find? name = some table) (h : table.Moves brought table') :
    catalog.Moves brought ((l.foldl (fun catalog a => catalog.mapIndexes name (change a))
      catalog).setTable name table') := by
  have hmoves := Moves.changed ht h (keys_indexes_foldl_mapIndexes name change l catalog)
  rw [← tables_foldl_mapIndexes name change l catalog] at hmoves
  exact hmoves

theorem moves_insert {brought : List Value} {record : Record} {step : Step RecordId}
    (hbrought : ∀ value ∈ record.values, value ∈ brought)
    (h : catalog.insert name record = .ok step) : catalog.Moves brought step.catalog := by
  obtain ⟨table, id, stored, ht, haccept, rfl⟩ := insert_eq_ok h
  exact moves_setTable (fun (_ : Unit) column index => index.file column id stored) [()] ht
    (.stored hbrought haccept)

theorem moves_update {assignments : List Assignment} {filter : Option Predicate}
    {step : Step Nat} (h : catalog.update name assignments filter = .ok step) :
    catalog.Moves (assignments.map Assignment.value) step.catalog := by
  obtain ⟨table, changes, staged, ht, hchanges, hstage, hstep⟩ := update_eq_ok h
  rcases hstep with ⟨_, rfl⟩ | ⟨_, hkeys, _, records, hplace, rfl⟩
  · exact .still
  · exact moves_setTable (fun (s : Staged) column index =>
      index.refile column s.oldId s.old s.newId s.new) staged ht
      (.updated (fun assignment ha => List.mem_map_of_mem (f := Assignment.value) ha) hchanges
        hstage hkeys hplace)

theorem moves_delete {brought : List Value} {filter : Option Predicate} {step : Step Nat}
    (h : catalog.delete name filter = .ok step) : catalog.Moves brought step.catalog := by
  obtain ⟨table, doomed, ht, _, hstep⟩ := delete_eq_ok h
  rcases hstep with ⟨_, rfl⟩ | ⟨_, rfl⟩
  · exact .still
  · exact moves_setTable (fun (entry : RecordId × Record) column index =>
      index.unfile column entry.1 entry.2) doomed ht (.deleted _)

theorem moves_after {α : Type} {brought : List Value} {outcome : Except Fault (Step α)}
    (h : ∀ step, outcome = .ok step → catalog.Moves brought step.catalog) :
    catalog.Moves brought (catalog.after outcome) := by
  cases outcome with
  | error fault => exact .still
  | ok step => exact h step rfl

end Catalog

/-- Every operation makes a move with the values that it brings. -/
theorem Operation.moves_apply (operation : Operation) (catalog : Catalog) :
    catalog.Moves operation.values (operation.apply catalog) := by
  cases operation with
  | createTable name schema =>
    refine Catalog.moves_after fun step h => ?_
    obtain ⟨hfree, rfl⟩ := Catalog.createTable_eq_ok h
    exact .created (fun column hc value hv => List.mem_filterMap.mpr ⟨column, hc, hv⟩) hfree
  | dropTable name =>
    refine Catalog.moves_after fun step h => ?_
    obtain ⟨_, _, rfl⟩ := Catalog.dropTable_eq_ok h
    exact .dropped name
  | renameTable old new =>
    refine Catalog.moves_after fun step h => ?_
    obtain ⟨⟨_, hold⟩, hnew, rfl⟩ := Catalog.renameTable_eq_ok h
    exact .renamed hold hnew
  | createIndex name column =>
    refine Catalog.moves_after fun step h => ?_
    obtain ⟨_, ht, _, _, rfl⟩ := Catalog.createIndex_eq_ok h
    exact .indexed _ ht
  | insert name record => exact Catalog.moves_after fun _ => Catalog.moves_insert fun _ => id
  | insertValues name columns values =>
    refine Catalog.moves_after fun step h => ?_
    obtain ⟨_, hvalues, hinsert⟩ := Catalog.insertValues_eq_ok h
    exact Catalog.moves_insert hvalues hinsert
  | update name assignments filter => exact Catalog.moves_after fun _ => Catalog.moves_update
  | delete name filter => exact Catalog.moves_after fun _ => Catalog.moves_delete
  | flush => exact .still

/-! ## What moves keep -/

theorem Table.Moves.linked {brought : List Value} {table table' : Table}
    (h : table.Moves brought table') (hl : table.records.Linked) : table'.records.Linked := by
  cases h with
  | stored _ haccept => exact hl.extend (Table.accept_eq_ok_iff.mp haccept).2.1 _
  | updated _ _ hstage hkeys hplace =>
    exact ((Table.stage_eq_ok_iff.mp hstage).placed hl hkeys hplace).1
  | deleted keep => exact hl.retain keep

namespace Catalog

def AllTables (P : Table → Prop) (catalog : Catalog) : Prop :=
  ∀ ⦃name : String⦄ ⦃table : Table⦄, catalog.tables.find? name = some table → P table

/-- No indexes stand under a name without a table. -/
def IndexesOwned (catalog : Catalog) : Prop :=
  ∀ ⦃name : String⦄, (catalog.indexes.find? name).isSome = true →
    (catalog.tables.find? name).isSome = true

/-- Where the keys of a map are keys of another one, they are so too when a key of the other map is
moved in both. -/
theorem isSome_find?_moveEntry {V W : Type} {m : KeyedMap V} {all : KeyedMap W}
    (h : ∀ ⦃name : String⦄, (m.find? name).isSome = true → (all.find? name).isSome = true)
    {old new : String} {value : W} (hold : all.find? old = some value) {name : String}
    (hname : ((moveEntry old new m).find? name).isSome = true) :
    ((moveEntry old new all).find? name).isSome = true := by
  rw [find?_moveEntry hold]
  by_cases hnew : name = new
  · rw [if_pos hnew]
    rfl
  · have hkept : name ≠ old ∧ (m.find? name).isSome = true := by
      cases hm : m.find? old with
      -- Nothing moves, and the old name is no key.
      | none =>
        rw [moveEntry_of_absent hm] at hname
        refine ⟨?_, hname⟩
        rintro rfl
        rw [hm] at hname
        cases hname
      | some moved =>
        rw [find?_moveEntry hm, if_neg hnew] at hname
        split at hname
        · cases hname
        · next hne => exact ⟨hne, hname⟩
    rw [if_neg hnew, if_neg hkept.1]
    exact h hkept.2

namespace Moves

variable {brought : List Value} {catalog catalog' : Catalog}

/-- What holds of new tables and is kept by moves of tables is kept by moves of catalogs. -/
theorem allTables {P : Table → Prop} (h : catalog.Moves brought catalog')
    (hnew : ∀ schema : Schema, (∀ column ∈ schema.list, ∀ value,
      column.default? = some value → value ∈ brought) → P (.ofSchema schema))
    (hmoves : ∀ table table' : Table, table.Moves brought table' → P table → P table')
    (hp : catalog.AllTables P) : catalog'.AllTables P := by
  intro other found hfound
  cases h with
  | still => exact hp hfound
  | @created name schema hbrought _ =>
    rw [setTable, KeyedMap.find?_insert] at hfound
    split at hfound
    · obtain rfl := Option.some.inj hfound
      exact hnew schema hbrought
    · exact hp hfound
  | dropped name =>
    rw [KeyedMap.find?_erase] at hfound
    split at hfound
    · cases hfound
    · exact hp hfound
  | renamed ht _ =>
    rw [find?_moveEntry ht] at hfound
    split at hfound
    · exact hp (ht.trans hfound)
    · split at hfound
      · cases hfound
      · exact hp hfound
  | indexed _ _ => exact hp hfound
  | changed ht hmove _ =>
    rw [KeyedMap.find?_insert] at hfound
    split at hfound
    · obtain rfl := Option.some.inj hfound
      exact hmoves _ _ hmove (hp ht)
    · exact hp hfound

theorem indexesOwned (h : catalog.Moves brought catalog') (ho : catalog.IndexesOwned) :
    catalog'.IndexesOwned := by
  intro other hother
  cases h with
  | still => exact ho hother
  | created _ _ =>
    rw [setTable, KeyedMap.find?_insert]
    split
    · rfl
    · exact ho hother
  | dropped name =>
    rw [KeyedMap.find?_erase] at hother ⊢
    split at hother
    · cases hother
    · next hne =>
      rw [if_neg hne]
      exact ho hother
  | renamed ht _ => exact isSome_find?_moveEntry ho ht hother
  | indexed _ ht =>
    rw [KeyedMap.find?_insert] at hother
    split at hother
    · next he => rw [he, ht]; rfl
    · exact ho hother
  | changed ht _ hkeys =>
    rw [KeyedMap.find?_isSome, hkeys, ← KeyedMap.find?_isSome] at hother
    rw [KeyedMap.find?_insert]
    split
    · rfl
    · exact ho hother

end Moves

/-- Records stand where they are recorded, and no indexes stand under a name without a table. -/
structure Regular (catalog : Catalog) : Prop where
  linked : catalog.AllTables fun table => table.records.Linked
  owned : catalog.IndexesOwned

theorem Moves.regular {brought : List Value} {catalog catalog' : Catalog}
    (h : catalog.Moves brought catalog') (hr : catalog.Regular) : catalog'.Regular :=
  ⟨h.allTables (fun _ _ => PositionedMap.linked_empty) (fun _ _ => Table.Moves.linked) hr.linked,
    h.indexesOwned hr.owned⟩

theorem regular_empty : empty.Regular := by
  constructor
  · intro name table h
    cases h
  · intro name h
    cases h

end Catalog

/-! ## Reached catalogs -/

theorem PositionedMap.linked_ofKeyed {V : Type} (m : KeyedMap V) :
    (PositionedMap.ofKeyed m).Linked := by
  refine ⟨m.distinct, fun i entry hi => ?_⟩
  exact (lookup_renumberFrom m.distinct 0 [] entry.1).1 i entry.2 (Nat.zero_le i) hi

namespace Document

variable {document : Document} {name : String}

/-- A table that a document makes is made of a schema and of records of the document, or of empty
ones. -/
theorem mem_toCatalog {table : Table} (h : document.toCatalog.tables.find? name = some table) :
    ∃ schema records, table = tableOf schema records ∧
      (schema = .empty ∨ (name, schema) ∈ document.schemas.entries) ∧
      (records = .empty ∨ (name, records) ∈ document.tables.entries) := by
  obtain ⟨hleft, hjoined⟩ :=
    foldl_joinSchema document.schemas.distinct document.tables .empty
  simp only [toCatalog, hleft, hjoined] at h
  rcases KeyedMap.mem_of_find?_insertAll h with hm | hm
  · obtain ⟨⟨_, records⟩, he, heq⟩ := List.mem_map.mp hm
    obtain ⟨rfl, rfl⟩ := Prod.mk.inj heq
    exact ⟨.empty, records, rfl, .inl rfl, .inr (List.mem_of_mem_filter he)⟩
  · rcases KeyedMap.mem_of_find?_insertAll hm with hm | hm
    · obtain ⟨⟨name, schema⟩, he, heq⟩ := List.mem_map.mp hm
      obtain ⟨rfl, rfl⟩ := Prod.mk.inj heq
      refine ⟨schema, _, rfl, .inr he, ?_⟩
      cases hf : document.tables.find? name with
      | none => exact .inl rfl
      | some records => exact .inr (KeyedMap.find?_eq_some_iff.mp hf)
    · cases hm

theorem regular_toCatalog (document : Document) : document.toCatalog.Regular := by
  constructor
  · intro name table ht
    obtain ⟨schema, records, rfl, _⟩ := mem_toCatalog ht
    exact PositionedMap.linked_ofKeyed records
  · intro name ho
    obtain ⟨own, hown⟩ := Option.isSome_iff_exists.mp ho
    rcases KeyedMap.mem_of_find?_insertAll hown with hm | hm
    · exact KeyedMap.contains_iff.mp (List.mem_filter.mp hm).2
    · cases hm

end Document

namespace Catalog

variable [FloatReader]

/-- The catalogs that operations reach, from the catalog without tables or from a data file. -/
inductive Reached : Catalog → Prop
  | empty : Reached .empty
  | loaded {octets : List UInt8} {catalog : Catalog} :
      ofOctets? octets = some catalog → Reached catalog
  | applied {catalog : Catalog} (operation : Operation) :
      Reached catalog → Reached (operation.apply catalog)

theorem Reached.regular {catalog : Catalog} (h : catalog.Reached) : catalog.Regular := by
  induction h with
  | empty => exact regular_empty
  | @loaded octets catalog h =>
    simp only [ofOctets?, Option.bind_eq_bind, Option.bind_eq_some_iff] at h
    obtain ⟨json, _, document, _, h⟩ := h
    obtain rfl := Option.some.inj h
    exact document.regular_toCatalog
  | @applied catalog operation _ ih => exact (operation.moves_apply catalog).regular ih

end Catalog

theorem Database.reached_replay [FloatReader] {σ : Type} [Store σ] (history : List Operation) (store : σ) :
    (Database.replay history store).catalog.Reached := by
  have run : ∀ db : Database σ, db.catalog.Reached →
      (history.foldl (fun db operation => db.perform operation) db).catalog.Reached := by
    induction history with
    | nil => exact fun _ h => h
    | cons operation rest ih =>
      intro db h
      refine ih _ ?_
      rw [catalog_perform]
      exact .applied operation h
  exact run ⟨.empty, store⟩ .empty

end Rowfile

import Rowfile.Proofs.Replay
import Rowfile.Proofs.Successes

/-!
# The tables of a history

What an operation can do to one table is said by the constructors of `Lived`; every other table keeps
its records and its indexes. After any history each table has lived in this sense, with the indexes
and the freed ids that stand under its name, and nothing stands under a name without a table.
Invariants of tables are then inductions over `Lived`, and none of them looks at a catalog.
-/
namespace Rowfile

/-! ## The life of one table -/

/-- A table, its indexes by column and the ids freed in it, as operations can have made them. -/
inductive Lived : Table → (String → Option Index) → List RecordId → Prop
  | created (schema : Schema) : Lived (.ofSchema schema) (fun _ => none) []
  | indexed {table : Table} {indexes : String → Option Index} {freed : List RecordId}
      {column : String} :
      Lived table indexes freed → (table.schema.column? column).isSome = true →
      Lived table
        (Function.update indexes column (some (Index.build column table.records.entries))) freed
  | inserted {table table' : Table} {indexes : String → Option Index} {freed : List RecordId}
      {name : String} {record stored : Record} {id : RecordId} :
      Lived table indexes freed → table.accept name record = .ok (id, stored) →
      table.store id stored = .ok table' →
      Lived table' (fun column => (indexes column).map (·.file column id stored)) freed
  | updated {table : Table} {indexes : String → Option Index} {freed : List RecordId}
      {name : String} {assignments : List Assignment} {changes : List (String × Value)}
      {filter : Option Predicate} {staged : List Staged} {records : PositionedMap Record} :
      Lived table indexes freed → table.changes name assignments = .ok changes →
      table.stage changes filter table.records.entries = .ok staged →
      table.checkKeys [] staged = .ok () → table.checkStagedUnique staged = .ok () →
      Table.place table.records staged = .ok records →
      Lived { table with records := records }
        (fun column => (indexes column).map fun index =>
          staged.foldl (fun index s => index.refile column s.oldId s.old s.newId s.new) index)
        freed
  | deleted {table : Table} {indexes : String → Option Index} {freed : List RecordId}
      {filter : Option Predicate} {doomed : List (RecordId × Record)}
      {records : PositionedMap Record} :
      Lived table indexes freed → passing filter table.records.entries = .ok doomed →
      records = table.records.retain (fun id _ => !(doomed.map Prod.fst).contains id) →
      Lived { table with records := records }
        (fun column => (indexes column).map fun index =>
          doomed.foldl (fun index entry => index.unfile column entry.1 entry.2) index)
        (freed ++ lostIds table.records.keys records.keys)

/-! ## Every table of a history has lived -/

namespace Catalog

theorem tables_foldl_mapIndexes {α : Type} (name : String) (change : α → String → Index → Index)
    (l : List α) (catalog : Catalog) :
    (l.foldl (fun catalog a => catalog.mapIndexes name (change a)) catalog).tables =
      catalog.tables := by
  induction l generalizing catalog with
  | nil => rfl
  | cons a l ih => rw [List.foldl_cons, ih, tables_mapIndexes]

theorem index?_foldl_mapIndexes {α : Type} (name other column : String)
    (change : α → String → Index → Index) (l : List α) (catalog : Catalog) :
    (l.foldl (fun catalog a => catalog.mapIndexes name (change a)) catalog).index? other column =
      if other = name then
        (catalog.index? name column).map fun index =>
          l.foldl (fun index a => change a column index) index
      else catalog.index? other column := by
  induction l generalizing catalog with
  | nil => by_cases h : other = name <;> simp [h]
  | cons a l ih =>
    rw [List.foldl_cons, ih]
    by_cases h : other = name
    · simp [h, Function.comp_def]
    · simp [h]

theorem index?_addIndex (catalog : Catalog) (name column other : String) (index : Index) :
    index? ⟨catalog.tables,
        catalog.indexes.insert name ((catalog.indexesOf name).insert column index)⟩ other =
      if other = name then Function.update (catalog.index? name) column (some index)
      else catalog.index? other := by
  funext c
  by_cases h : other = name
  · rw [if_pos h, Function.update_apply]
    by_cases hc : c = column
    · simp [index?, h, hc]
    · cases hi : catalog.indexes.find? name <;> simp [index?, indexesOf, h, hc, hi]
  · simp [index?, h]

/-- Indexes move to a name under which there were none, and the old name is left without. -/
theorem index?_moveEntry {catalog : Catalog} {new : String}
    (hnone : catalog.index? new = fun _ => none) (tables : KeyedMap Table) (old other : String) :
    index? ⟨tables, moveEntry old new catalog.indexes⟩ other =
      if other = new then catalog.index? old
      else if other = old then fun _ => none
      else catalog.index? other := by
  cases hi : catalog.indexes.find? old with
  | none =>
    have hno : catalog.index? old = fun _ => none := by
      funext column
      rw [index?, hi, Option.bind_none]
    have hsame : index? ⟨tables, moveEntry old new catalog.indexes⟩ other =
        catalog.index? other := by
      funext column
      simp only [index?, moveEntry_of_absent hi]
    rw [hsame]
    split
    · next e => rw [e, hno, hnone]
    · split
      · next e => rw [e, hno]
      · rfl
  | some indexes =>
    funext column
    simp only [index?, find?_moveEntry hi]
    split
    · simp only [index?, hi]
    · split <;> rfl

end Catalog

namespace Ledger

/-- Under a name there is a table that has lived, or nothing is indexed or freed there. -/
def SoundAt (ledger : Ledger) (name : String) : Prop :=
  match ledger.catalog.tables.find? name with
  | some table => Lived table (ledger.catalog.index? name) (ledger.freed name)
  | none => (ledger.catalog.index? name = fun _ => none) ∧ ledger.freed name = []

def Sound (ledger : Ledger) : Prop := ∀ name, ledger.SoundAt name

theorem sound_blank : blank.Sound := fun _ => ⟨rfl, rfl⟩

variable {ledger ledger' : Ledger} {name : String} {table : Table}

/-- What is found under a name decides whether the ledger is sound there. -/
theorem SoundAt.congr {other : String} (h : ledger.SoundAt name)
    (htables : ledger'.catalog.tables.find? other = ledger.catalog.tables.find? name)
    (hindexes : ledger'.catalog.index? other = ledger.catalog.index? name)
    (hfreed : ledger'.freed other = ledger.freed name) : ledger'.SoundAt other := by
  unfold SoundAt
  rw [htables, hindexes, hfreed]
  exact h

theorem SoundAt.lived (h : ledger.SoundAt name)
    (ht : ledger.catalog.tables.find? name = some table) :
    Lived table (ledger.catalog.index? name) (ledger.freed name) := by
  unfold SoundAt at h
  rw [ht] at h
  exact h

theorem SoundAt.absent (h : ledger.SoundAt name)
    (ht : ledger.catalog.tables.find? name = none) :
    (ledger.catalog.index? name = fun _ => none) ∧ ledger.freed name = [] := by
  unfold SoundAt at h
  rw [ht] at h
  exact h

theorem soundAt_of_lived (ht : ledger.catalog.tables.find? name = some table)
    (h : Lived table (ledger.catalog.index? name) (ledger.freed name)) :
    ledger.SoundAt name := by
  unfold SoundAt
  rw [ht]
  exact h

theorem soundAt_of_absent (ht : ledger.catalog.tables.find? name = none)
    (hindexes : ledger.catalog.index? name = fun _ => none) (hfreed : ledger.freed name = []) :
    ledger.SoundAt name := by
  unfold SoundAt
  rw [ht]
  exact ⟨hindexes, hfreed⟩

/-- An operation that sets one table, and touches indexes and freed ids of that table only, needs a
look at that table alone. -/
theorem Sound.set (h : ledger.Sound) (name : String) (table : Table)
    (htables : ledger'.catalog.tables = ledger.catalog.tables.insert name table)
    (hindexes : ∀ other, other ≠ name →
      ledger'.catalog.index? other = ledger.catalog.index? other)
    (hfreed : ∀ other, other ≠ name → ledger'.freed other = ledger.freed other)
    (hlived : Lived table (ledger'.catalog.index? name) (ledger'.freed name)) :
    ledger'.Sound := by
  intro other
  by_cases ho : other = name
  · subst ho
    exact soundAt_of_lived (by rw [htables, KeyedMap.find?_insert, if_pos rfl]) hlived
  · exact (h other).congr (by rw [htables, KeyedMap.find?_insert, if_neg ho])
      (hindexes other ho) (hfreed other ho)

/-- An operation that sets one table and changes its indexes in steps, each of them in the same way,
needs a look at the indexes of that table alone. -/
theorem Sound.setMapped {α : Type} (h : ledger.Sound) (name : String) (table : Table)
    (freed : String → List RecordId) (change : α → String → Index → Index) (l : List α)
    (hfreed : ∀ other, other ≠ name → freed other = ledger.freed other)
    (hlived : Lived table (fun column => (ledger.catalog.index? name column).map fun index =>
      l.foldl (fun index a => change a column index) index) (freed name)) :
    Sound ⟨(l.foldl (fun catalog a => catalog.mapIndexes name (change a))
      ledger.catalog).setTable name table, freed⟩ := by
  have hindexes : ∀ other, Catalog.index? ((l.foldl (fun catalog a =>
      catalog.mapIndexes name (change a)) ledger.catalog).setTable name table) other =
        fun column => if other = name then
          (ledger.catalog.index? name column).map fun index =>
            l.foldl (fun index a => change a column index) index
        else ledger.catalog.index? other column := by
    intro other
    funext column
    rw [Catalog.index?_setTable, Catalog.index?_foldl_mapIndexes]
  refine h.set name table ?_ (fun other hother => ?_) hfreed ?_
  · rw [Catalog.setTable, Catalog.tables_foldl_mapIndexes]
  · rw [hindexes]
    simp only [hother, if_false]
  · rw [hindexes]
    simp only [if_true]
    exact hlived

theorem Sound.after {α : Type} {outcome : Except Fault (Step α)} (h : ledger.Sound)
    (hok : ∀ step, outcome = .ok step → Sound ⟨step.catalog, ledger.freed⟩) :
    Sound ⟨ledger.catalog.after outcome, ledger.freed⟩ := by
  cases houtcome : outcome with
  | error fault => exact h
  | ok step => exact hok step houtcome

theorem Sound.createTable {schema : Schema} {step : Step Unit} (h : ledger.Sound)
    (ho : ledger.catalog.createTable name schema = .ok step) :
    Sound ⟨step.catalog, ledger.freed⟩ := by
  obtain ⟨hfree, rfl⟩ := Catalog.createTable_eq_ok ho
  obtain ⟨hindexes, hfreed⟩ := (h name).absent hfree
  refine h.set name (.ofSchema schema) rfl (fun _ _ => rfl) (fun _ _ => rfl) ?_
  change Lived _ (ledger.catalog.index? name) (ledger.freed name)
  rw [hindexes, hfreed]
  exact .created schema

/-- Dropping a table leaves nothing under its name; without a table there was nothing. -/
theorem Sound.dropTable (h : ledger.Sound) :
    Sound ⟨ledger.catalog.after (ledger.catalog.dropTable name),
      Function.update ledger.freed name []⟩ := by
  intro other
  cases ht : ledger.catalog.tables.find? name with
  | none =>
    have hfail : ledger.catalog.dropTable name = .error (.tableNotFound name) := by
      simp [Catalog.dropTable, Catalog.table, ht]
    refine (h other).congr (by rw [hfail]; rfl) (by rw [hfail]; rfl) ?_
    by_cases ho : other = name
    · subst ho
      exact (Function.update_self _ _ _).trans ((h other).absent ht).2.symm
    · exact Function.update_of_ne ho _ _
  | some table =>
    have hdone : ledger.catalog.after (ledger.catalog.dropTable name) =
        ⟨ledger.catalog.tables.erase name, ledger.catalog.indexes.erase name⟩ := by
      simp [Catalog.dropTable, Catalog.table, ht, Catalog.after]
    rw [hdone]
    by_cases ho : other = name
    · subst ho
      refine soundAt_of_absent ?_ ?_ (Function.update_self _ _ _)
      · rw [KeyedMap.find?_erase, if_pos rfl]
      · funext column
        simp only [Catalog.index?, KeyedMap.find?_erase, if_true, Option.bind_none]
    · refine (h other).congr ?_ ?_ (Function.update_of_ne ho _ _)
      · rw [KeyedMap.find?_erase, if_neg ho]
      · funext column
        simp only [Catalog.index?, KeyedMap.find?_erase, ho, if_false]

/-- A table takes its indexes and its freed ids to its new name. -/
theorem Sound.renameTable {old new : String} (h : ledger.Sound) :
    Sound ⟨ledger.catalog.after (ledger.catalog.renameTable old new),
      ledger.freedAfter (.renameTable old new)⟩ := by
  unfold Catalog.renameTable freedAfter
  cases hold : ledger.catalog.tables.contains old with
  | false => simpa [hold, Catalog.after] using h
  | true =>
    cases hnew : ledger.catalog.tables.contains new with
    | true => simpa [hold, hnew, Catalog.after] using h
    | false =>
      simp only [hold, hnew, Bool.not_true, Bool.false_eq_true, if_false, Bool.not_false,
        Bool.and_self, if_true, Catalog.after]
      obtain ⟨table, ht⟩ := Option.isSome_iff_exists.mp (KeyedMap.contains_iff.mp hold)
      have hne : old ≠ new := by
        rintro rfl
        rw [hold] at hnew
        cases hnew
      have hindexes := Catalog.index?_moveEntry
        ((h new).absent (KeyedMap.contains_eq_false_iff.mp hnew)).1
        (Catalog.moveEntry old new ledger.catalog.tables) old
      -- The new name shows what the old one showed, the old one nothing, any other the same.
      intro other
      by_cases ho : other = new
      · subst ho
        refine (h old).congr ?_ ?_ ?_
        · rw [Catalog.find?_moveEntry ht, if_pos rfl, ht]
        · rw [hindexes, if_pos rfl]
        · exact (Function.update_of_ne (Ne.symm hne) _ _).trans (Function.update_self _ _ _)
      · by_cases ho' : other = old
        · subst ho'
          refine soundAt_of_absent ?_ ?_ (Function.update_self _ _ _)
          · rw [Catalog.find?_moveEntry ht, if_neg hne, if_pos rfl]
          · rw [hindexes, if_neg hne, if_pos rfl]
        · refine (h other).congr ?_ ?_ ?_
          · rw [Catalog.find?_moveEntry ht, if_neg ho, if_neg ho']
          · rw [hindexes, if_neg ho, if_neg ho']
          · exact (Function.update_of_ne ho' _ _).trans (Function.update_of_ne ho _ _)

theorem Sound.createIndex {column : String} {step : Step Unit} (h : ledger.Sound)
    (ho : ledger.catalog.createIndex name column = .ok step) :
    Sound ⟨step.catalog, ledger.freed⟩ := by
  obtain ⟨table, ht, hcolumn, _, rfl⟩ := Catalog.createIndex_eq_ok ho
  intro other
  have hset := ledger.catalog.index?_addIndex name column other
    (Index.build column table.records.entries)
  by_cases hother : other = name
  · subst hother
    rw [if_pos rfl] at hset
    refine soundAt_of_lived ht ?_
    rw [hset]
    exact .indexed ((h other).lived ht) hcolumn
  · rw [if_neg hother] at hset
    exact (h other).congr rfl hset rfl

theorem Sound.insert {record : Record} {step : Step RecordId} (h : ledger.Sound)
    (ho : ledger.catalog.insert name record = .ok step) :
    Sound ⟨step.catalog, ledger.freed⟩ := by
  obtain ⟨table, id, stored, ht, haccept, rfl⟩ := Catalog.insert_eq_ok ho
  have hlived := Lived.inserted ((h name).lived ht) haccept (Table.store_of_accept haccept)
  exact h.setMapped name _ ledger.freed
    (fun (_ : Unit) column index => index.file column id stored) [()] (fun _ _ => rfl) hlived

theorem Sound.insertValues {columns : Option (List String)} {values : List Value}
    {step : Step RecordId} (h : ledger.Sound)
    (ho : ledger.catalog.insertValues name columns values = .ok step) :
    Sound ⟨step.catalog, ledger.freed⟩ := by
  obtain ⟨_, _, hinsert⟩ := Catalog.insertValues_eq_ok ho
  exact h.insert hinsert

theorem Sound.update {assignments : List Assignment} {filter : Option Predicate}
    {step : Step Nat} (h : ledger.Sound)
    (ho : ledger.catalog.update name assignments filter = .ok step) :
    Sound ⟨step.catalog, ledger.freed⟩ := by
  obtain ⟨table, changes, staged, ht, hchanges, hstage, hstep⟩ := Catalog.update_eq_ok ho
  rcases hstep with ⟨_, rfl⟩ | ⟨_, hkeys, hunique, records, hplace, rfl⟩
  · exact h
  · have hlived := Lived.updated ((h name).lived ht) hchanges hstage hkeys hunique hplace
    exact h.setMapped name { table with records := records } ledger.freed
      (fun (s : Staged) column index => index.refile column s.oldId s.old s.newId s.new) staged
      (fun _ _ => rfl) hlived

/-- A deletion that leaves the catalog as it was frees nothing. -/
theorem enter_of_unchanged {filter : Option Predicate}
    (h : (Operation.delete name filter).apply ledger.catalog = ledger.catalog) :
    ledger.enter (.delete name filter) = ledger := by
  simp only [enter, freedAfter, h, lostIds_self, List.append_nil, Function.update_eq_self]

theorem Sound.delete {filter : Option Predicate} (h : ledger.Sound) :
    (ledger.enter (.delete name filter)).Sound := by
  cases houtcome : ledger.catalog.delete name filter with
  | error fault =>
    rwa [enter_of_unchanged (by simp only [Operation.apply, houtcome, Catalog.after])]
  | ok step =>
    have hafter : (Operation.delete name filter).apply ledger.catalog = step.catalog := by
      simp only [Operation.apply, houtcome, Catalog.after]
    obtain ⟨table, doomed, ht, hdoomed, ⟨_, rfl⟩ | ⟨_, rfl⟩⟩ := Catalog.delete_eq_ok houtcome
    · rwa [enter_of_unchanged hafter]
    · generalize hrecords : table.records.retain (fun id _ => !(doomed.map Prod.fst).contains id) =
        records at hafter
      have hfreed : (ledger.enter (.delete name filter)).freed name =
          ledger.freed name ++ lostIds table.records.keys records.keys := by
        simp only [enter, freedAfter, Function.update_self, hafter]
        simp only [Catalog.idsOf, ht, Catalog.setTable, KeyedMap.find?_insert, if_true]
        rfl
      have hlived := Lived.deleted ((h name).lived ht) hdoomed hrecords.symm
      rw [← hfreed] at hlived
      have hset := h.setMapped name { table with records := records }
        (ledger.freedAfter (.delete name filter))
        (fun (entry : RecordId × Record) column index => index.unfile column entry.1 entry.2)
        doomed (fun _ hother => Function.update_of_ne hother _ _) hlived
      rw [enter, hafter]
      exact hset

/-! ## Whole histories -/

theorem Sound.enter (h : ledger.Sound) (operation : Operation) :
    (ledger.enter operation).Sound := by
  cases operation with
  | createTable name schema => exact h.after fun _ => h.createTable
  | dropTable name => exact h.dropTable
  | renameTable old new => exact h.renameTable
  | createIndex name column => exact h.after fun _ => h.createIndex
  | insert name record => exact h.after fun _ => h.insert
  | insertValues name columns values => exact h.after fun _ => h.insertValues
  | update name assignments filter => exact h.after fun _ => h.update
  | delete name filter => exact h.delete
  | flush => exact h

theorem sound_follow (history : List Operation) : (follow history).Sound := by
  have run : ∀ ledger : Ledger, ledger.Sound → (history.foldl Ledger.enter ledger).Sound := by
    induction history with
    | nil => exact fun _ h => h
    | cons operation rest ih => exact fun _ h => ih _ (h.enter operation)
  exact run blank sound_blank

end Ledger

variable {σ : Type} [Store σ]

/-- Every table that a history leaves has lived. -/
theorem lived_of_replay {history : List Operation} {store : σ} {name : String} {table : Table}
    (h : (Database.replay history store).catalog.tables.find? name = some table) :
    Lived table ((Database.replay history store).catalog.index? name)
      (freedIds history name) := by
  rw [Database.catalog_replay] at h ⊢
  exact (Ledger.sound_follow history name).lived h

/-- What is indexed after a history belongs to a table. -/
theorem table_of_index {history : List Operation} {store : σ} {name column : String}
    {index : Index}
    (h : (Database.replay history store).catalog.index? name column = some index) :
    ∃ table, (Database.replay history store).catalog.tables.find? name = some table := by
  rw [Database.catalog_replay] at h ⊢
  cases ht : (Ledger.follow history).catalog.tables.find? name with
  | some table => exact ⟨table, rfl⟩
  | none =>
    rw [((Ledger.sound_follow history name).absent ht).1] at h
    cases h

end Rowfile

import Rowfile.Folder
import Rowfile.Proofs.Forgetting

/-!
# The ids that a run has freed

A catalog that was just loaded records the ids of its records and nothing else. From there on a
ledger says what each table records beside the ids of its records: what deletions took out. So a
catalog after any operations and the catalog that is loaded from its data file show the same, and
the freed ids of the ledger are all that the first records beside the second.
-/
namespace Rowfile

namespace Ledger

/-- Every table is tidy with the ids that were freed under its name, and no ids are freed
elsewhere. -/
def Tidy (ledger : Ledger) : Prop :=
  Paired (fun table _ freed => table.Tidy freed) ledger.catalog.tables ledger.catalog.tables
    ledger.freed

namespace Tidy

variable {ledger : Ledger} {name : String}

theorem table (h : ledger.Tidy) {table : Table}
    (ht : ledger.catalog.tables.find? name = some table) : table.Tidy (ledger.freed name) := by
  obtain ⟨_, _, htidy⟩ := Paired.both h ht
  exact htidy

theorem set (h : ledger.Tidy) {table : Table} (ht : table.Tidy (ledger.freed name))
    {catalog : Catalog} (htables : catalog.tables = ledger.catalog.tables) :
    Tidy ⟨catalog.setTable name table, ledger.freed⟩ := by
  unfold Tidy
  simp only [Catalog.setTable, htables]
  exact Paired.set_same h ht

theorem insert (h : ledger.Tidy) {record : Record} {step : Step RecordId}
    (hok : ledger.catalog.insert name record = .ok step) : Tidy ⟨step.catalog, ledger.freed⟩ := by
  obtain ⟨table, id, stored, ht, haccept, rfl⟩ := Catalog.insert_eq_ok hok
  exact h.set ((h.table ht).stored haccept) (Catalog.tables_mapIndexes _ _ _)

/-- An operation that frees no ids keeps the ledger tidy when its outcome does. -/
theorem after {α : Type} (h : ledger.Tidy) {outcome : Except Fault (Step α)}
    (hok : ∀ step, outcome = .ok step → Tidy ⟨step.catalog, ledger.freed⟩) :
    Tidy ⟨ledger.catalog.after outcome, ledger.freed⟩ := by
  cases outcome with
  | error fault => exact h
  | ok step => exact hok step rfl

theorem dropTable (h : ledger.Tidy) : (ledger.enter (.dropTable name)).Tidy := by
  simp only [enter, Operation.apply, freedAfter]
  cases hdrop : ledger.catalog.dropTable name with
  | ok step =>
    obtain ⟨_, _, rfl⟩ := Catalog.dropTable_eq_ok hdrop
    exact Paired.erase h name
  | error fault =>
    have hnone : ledger.catalog.tables.find? name = none := by
      cases hfind : ledger.catalog.tables.find? name with
      | none => rfl
      | some table => simp [Catalog.dropTable, Catalog.table, hfind] at hdrop
    rw [← (Paired.neither h hnone).2, Function.update_eq_self]
    exact h

theorem renameTable (h : ledger.Tidy) {old new : String} :
    (ledger.enter (.renameTable old new)).Tidy := by
  simp only [enter, Operation.apply, freedAfter]
  cases hrename : ledger.catalog.renameTable old new with
  | ok step =>
    obtain ⟨⟨table, hold⟩, hnew, rfl⟩ := Catalog.renameTable_eq_ok hrename
    have hmoved := Paired.move h hold hnew
    rw [if_pos (by simp [KeyedMap.contains_eq_isSome, hold, hnew])]
    exact hmoved
  | error fault =>
    rw [if_neg ?_]
    · exact h
    · intro hboth
      simp only [Bool.and_eq_true, Bool.not_eq_true'] at hboth
      simp [Catalog.renameTable, hboth.1, hboth.2] at hrename

theorem delete (h : ledger.Tidy) {filter : Option Predicate} :
    (ledger.enter (.delete name filter)).Tidy := by
  have hsame : ∀ {next : Catalog}, next = ledger.catalog →
      Tidy ⟨next, Function.update ledger.freed name
        (ledger.freed name ++ lostIds (ledger.catalog.idsOf name) (next.idsOf name))⟩ := by
    rintro _ rfl
    rw [lostIds_self, List.append_nil, Function.update_eq_self]
    exact h
  simp only [enter, Operation.apply, freedAfter]
  cases hdelete : ledger.catalog.delete name filter with
  | error fault => exact hsame rfl
  | ok step =>
    obtain ⟨table, doomed, ht, _, hstep⟩ := Catalog.delete_eq_ok hdelete
    rcases hstep with ⟨_, rfl⟩ | ⟨_, rfl⟩
    · exact hsame rfl
    -- What the ledger adds is what the deletion takes out of the keys and leaves recorded.
    · have htables := Catalog.tables_foldl_mapIndexes name
        (fun (entry : RecordId × Record) column index => index.unfile column entry.1 entry.2)
        doomed ledger.catalog
      simp only [Tidy, Catalog.after, Catalog.setTable, Catalog.unfileRecord, Catalog.idsOf,
        htables, ht, KeyedMap.find?_insert, if_true, Option.map_some, Option.getD_some]
      exact Paired.set h name ((h.table ht).deleted _)

theorem enter (h : ledger.Tidy) (operation : Operation) : (ledger.enter operation).Tidy := by
  cases operation with
  | createTable name schema =>
    refine h.after fun step hok => ?_
    obtain ⟨hnone, rfl⟩ := Catalog.createTable_eq_ok hok
    refine h.set ?_ rfl
    rw [(Paired.neither h hnone).2]
    exact .ofSchema schema
  | dropTable name => exact h.dropTable
  | renameTable old new => exact h.renameTable
  | createIndex name column =>
    refine h.after fun step hok => ?_
    obtain ⟨_, _, _, _, rfl⟩ := Catalog.createIndex_eq_ok hok
    exact h
  | insert name record => exact h.after fun _ => h.insert
  | insertValues name columns values =>
    refine h.after fun step hok => ?_
    obtain ⟨_, _, hinsert⟩ := Catalog.insertValues_eq_ok hok
    exact h.insert hinsert
  | update name assignments filter =>
    refine h.after fun step hok => ?_
    obtain ⟨table, _, staged, ht, _, hstage, hstep⟩ := Catalog.update_eq_ok hok
    rcases hstep with ⟨_, rfl⟩ | ⟨_, hkeys, _, records, hplace, rfl⟩
    · exact h
    · exact h.set ((h.table ht).updated hstage hkeys hplace)
        (Catalog.tables_foldl_mapIndexes name (fun (s : Staged) column index =>
          index.refile column s.oldId s.old s.newId s.new) staged ledger.catalog)
  | delete name filter => exact h.delete
  | flush => exact h

theorem foldl_enter (h : ledger.Tidy) (operations : List Operation) :
    (operations.foldl Ledger.enter ledger).Tidy := by
  induction operations generalizing ledger with
  | nil => exact h
  | cons operation rest ih => exact ih (h.enter operation)

end Tidy

def fresh (catalog : Catalog) : Ledger := ⟨catalog, fun _ => []⟩

end Ledger

/-! ## Loaded catalogs -/

theorem PositionedMap.contains_ofKeyed {V : Type} {m : KeyedMap V} {key : String} :
    (PositionedMap.ofKeyed m).contains key = true ↔ key ∈ (PositionedMap.ofKeyed m).keys := by
  refine ⟨fun hc => ?_, (linked_ofKeyed m).contains_of_mem⟩
  by_contra hk
  obtain ⟨i, hi⟩ := contains_iff.mp hc
  have hnone := (lookup_renumberFrom m.distinct 0 [] key).2 (by rw [List.drop_zero]; exact hk)
  rw [position?, ofKeyed, hnone] at hi
  cases hi

theorem FolderState.load_eq_ok [FloatReader] {folder : FolderState} {catalog : Catalog}
    (h : folder.load = .ok catalog) :
    catalog = .empty ∨ ∃ document : Document, catalog = document.toCatalog := by
  unfold load at h
  split at h
  · split at h
    · next hoctets =>
      obtain rfl := Except.ok.inj h
      simp only [Catalog.ofOctets?, Option.bind_eq_bind, Option.bind_eq_some_iff] at hoctets
      obtain ⟨_, _, document, _, hdocument⟩ := hoctets
      exact .inr ⟨document, (Option.some.inj hdocument).symm⟩
    · cases h
  · cases h
  · exact .inl (Except.ok.inj h).symm

theorem Document.tidy_tableOf (schema : Schema) (records : KeyedMap Record) :
    (tableOf schema records).Tidy [] := by
  refine ⟨PositionedMap.linked_ofKeyed records, fun id => ⟨?_, fun hid => ?_⟩⟩
  · rw [or_iff_left List.not_mem_nil]
    exact PositionedMap.contains_ofKeyed
  · exact (List.not_mem_nil hid).elim

/-- A loaded catalog records nothing but the ids of its records. -/
theorem Ledger.Tidy.of_load [FloatReader] {folder : FolderState} {catalog : Catalog}
    (h : folder.load = .ok catalog) : (Ledger.fresh catalog).Tidy := by
  have htidy : ∀ name table, catalog.tables.find? name = some table → table.Tidy [] := by
    intro name table ht
    rcases FolderState.load_eq_ok h with rfl | ⟨document, rfl⟩
    · cases ht
    · obtain ⟨schema, records, rfl, _⟩ := Document.mem_toCatalog ht
      exact Document.tidy_tableOf schema records
  intro name
  simp only [Ledger.fresh]
  cases ht : catalog.tables.find? name with
  | none => exact .neither
  | some table => exact .both (htidy name table ht)

/-- A catalog shows the same as a loaded one, and records beside it what its ledger says. -/
theorem Ledger.Tidy.alike {ledger : Ledger} {catalog : Catalog} (h : ledger.Tidy)
    (hfresh : (Ledger.fresh catalog).Tidy) (hcontent : ledger.catalog.content = catalog.content) :
    Catalog.Alike ledger.freed ledger.catalog catalog := by
  refine ⟨hcontent, fun name => ?_⟩
  have hfound : (ledger.catalog.tables.find? name).map Table.content =
      (catalog.tables.find? name).map Table.content := by
    have htables := congrArg (fun content => content.tables.find? name) hcontent
    simpa only [Catalog.content, KeyedMap.find?_mapWithKey] using htables
  cases ha : ledger.catalog.tables.find? name with
  | none =>
    rw [ha, Option.map_none, eq_comm, Option.map_eq_none_iff] at hfound
    rw [hfound, (Paired.neither h ha).2]
    exact .neither
  | some ta =>
    rw [ha, Option.map_some, eq_comm, Option.map_eq_some_iff] at hfound
    obtain ⟨tb, hb, hcontent⟩ := hfound
    have htidy := h.table ha
    have hother := hfresh.table hb
    rw [hb]
    refine .both ⟨hcontent.symm, htidy.linked, hother.linked, htidy.recorded.congr fun id => ?_⟩
    rw [(hother.recorded id).1, PositionedMap.keys, PositionedMap.keys,
      Table.entries_eq_of_content hcontent]
    exact or_iff_left List.not_mem_nil

end Rowfile

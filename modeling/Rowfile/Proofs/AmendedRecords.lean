import Rowfile.Proofs.Selections
import Rowfile.Proofs.SingleTables

/-!
# Updated in place

An update stages, checks and places records one after the other, while the records show old and new
ids side by side. What is left is one map over the entries as they were: an entry whose record passes
the filter is amended where it stands, and any other is left alone. An amended record holds in every
assigned column the last value assigned to it, as the column keeps it, and stands under its shown
primary key. The filter only ever sees records as they were.
-/
namespace Rowfile

/-! ## Assigned values -/

/-- The last value that is assigned to a column. -/
def Assignment.last? (assignments : List Assignment) (column : String) : Option Value :=
  (assignments.reverse.find? (·.column == column)).map Assignment.value

/-- Of the changes that assignments make to a column the last is the last assigned value, converted
to what the column keeps. -/
theorem Table.lookup_changes {table : Table} {name : String} {assignments : List Assignment}
    {changes : List (String × Value)} (h : table.changes name assignments = .ok changes)
    (column : String) : changes.reverse.lookup column =
      (Assignment.last? assignments column).map (table.schema.converted column) := by
  have hreverse := List.rel_reverse (changes_eq_ok_iff.mp h)
  unfold Assignment.last?
  generalize assignments.reverse = assigned, changes.reverse = changed at hreverse ⊢
  induction hreverse with
  | nil => rfl
  | @cons assignment change assigned changed hstep _ ih =>
    obtain ⟨found, hfound, _, rfl⟩ := hstep
    rw [KeyedMap.lookup_cons_eq, List.find?_cons]
    by_cases hc : column = assignment.column
    · subst hc
      rw [if_pos rfl, beq_self_eq_true, Option.map_some, Option.map_some,
        Schema.converted_of_column? hfound]
    · rw [if_neg hc, beq_false_of_ne (Ne.symm hc)]
      exact ih

/-- New keys are appended, so the keys of a map stay the first ones. -/
theorem KeyedMap.keys_prefix_insertAll {V : Type} (m : KeyedMap V) (pairs : List (String × V)) :
    m.keys <+: (m.insertAll pairs).keys := by
  induction pairs generalizing m with
  | nil => exact List.prefix_rfl
  | cons pair pairs ih =>
    refine List.IsPrefix.trans ?_ (ih (m.insert pair.1 pair.2))
    rw [keys, keys, entries_insert, entryKeys_setEntry]
    split
    · exact List.prefix_rfl
    · exact List.prefix_append _ _

/-! ## Amended entries -/

/-- What assignments make of an entry: each assigned column holds the last value assigned to it, as
the column keeps it, and the others hold what they held; columns keep their order, and new ones
follow; the id is the shown primary key, or the old id in a table without one. -/
structure Schema.Amended (schema : Schema) (assignments : List Assignment)
    (before after : RecordId × Record) : Prop where
  assigned : ∀ column value, Assignment.last? assignments column = some value →
    after.2.find? column = some (schema.converted column value)
  others : ∀ column, Assignment.last? assignments column = none →
    after.2.find? column = before.2.find? column
  columns : before.2.keys <+: after.2.keys
  key : ∀ column, schema.primaryKey? = some column →
    ∃ value, after.2.find? column.name = some value ∧ after.1 = value.shown
  keyless : schema.primaryKey? = none → after.1 = before.1

/-- An entry whose record passes the filter is amended, and one whose record does not stays. -/
def Schema.Amends (schema : Schema) (assignments : List Assignment) (filter : Option Predicate)
    (before after : RecordId × Record) : Prop :=
  Predicate.accepts filter before.2 = .ok true ∧ schema.Amended assignments before after ∨
    Predicate.accepts filter before.2 = .ok false ∧ after = before

namespace Table

variable {table : Table} {name : String} {assignments : List Assignment}
variable {changes : List (String × Value)} {filter : Option Predicate}

theorem amended_of_newId (hchanges : table.changes name assignments = .ok changes)
    {id newId : RecordId} {record : Record}
    (h : table.newId id (record.insertAll changes) = .ok newId) :
    table.schema.Amended assignments (id, record) (newId, record.insertAll changes) := by
  have hfind : ∀ column, (record.insertAll changes).find? column =
      ((Assignment.last? assignments column).map (table.schema.converted column)).or
        (record.find? column) := fun column => by
    rw [KeyedMap.find?_insertAll, lookup_changes hchanges]
  refine ⟨fun column value hvalue => ?_, fun column hnone => ?_,
    KeyedMap.keys_prefix_insertAll record changes, fun column hkey => ?_, fun hkey => ?_⟩
  · rw [hfind, hvalue, Option.map_some, Option.some_or]
  · rw [hfind, hnone, Option.map_none, Option.none_or]
  · rw [Table.newId, hkey] at h
    obtain ⟨value, hvalue, _, hshown⟩ := Record.key_eq_ok_iff.mp h
    exact ⟨value, hvalue, hshown.symm⟩
  · rw [Table.newId, hkey] at h
    exact (Except.ok.inj h).symm

end Table

namespace Stages

variable {table : Table} {name : String} {assignments : List Assignment}
variable {changes : List (String × Value)} {filter : Option Predicate}
variable {entries : List (RecordId × Record)} {staged : List Staged}

/-- Exchanging the staged records amends the entries that pass and leaves the others alone. -/
theorem amends_replacement (h : Stages table changes filter entries staged)
    (hchanges : table.changes name assignments = .ok changes) (hd : (entryKeys entries).Nodup) :
    List.Forall₂ (table.schema.Amends assignments filter) entries
      (entries.map (Staged.replacement staged)) := by
  -- A replacement is found by the old id, and ids are distinct: no entry is looked up for another.
  induction h with
  | nil => exact .nil
  | @kept id record rest staged ha hrest ih =>
    have hn := List.nodup_cons.mp hd
    have hno : id ∉ staged.map Staged.oldId := fun hm => hn.1 (hrest.oldId_mem hm)
    exact .cons (.inr ⟨ha, Staged.replacement_of_not_mem hno⟩) (ih hn.2)
  | moved ha hid hrest ih =>
    have hn := List.nodup_cons.mp hd
    rw [List.map_cons, replacement_rest hd, Staged.replacement_cons, if_pos rfl]
    exact .cons (.inl ⟨ha, Table.amended_of_newId hchanges hid⟩) (ih hn.2)

/-- As many records are staged as pass the filter. -/
theorem length_eq_countP (h : Stages table changes filter entries staged) :
    staged.length = (entries.map Prod.snd).countP (Predicate.passes filter) := by
  induction h with
  | nil => rfl
  | kept ha _ ih =>
    rw [List.map_cons, List.countP_cons, Predicate.passes_of_accepts ha, ih]
    rfl
  | moved ha _ _ ih =>
    rw [List.map_cons, List.countP_cons, Predicate.passes_of_accepts ha, List.length_cons, ih]
    rfl

end Stages

/-- What an update leaves of a table: its entries, amended where they pass the filter. -/
theorem Catalog.update_amends {catalog : Catalog} {name : String} {assignments : List Assignment}
    {filter : Option Predicate} {step : Step Nat}
    (h : catalog.update name assignments filter = .ok step)
    (hl : catalog.AllTables fun table => table.records.Linked) :
    ∃ table records, catalog.tables.find? name = some table ∧
      step.catalog.tables.find? name = some { table with records := records } ∧
      List.Forall₂ (table.schema.Amends assignments filter) table.records.entries
        records.entries ∧
      step.answer = table.records.values.countP (Predicate.passes filter) ∧
      catalog.SameBeside name step.catalog := by
  obtain ⟨table, changes, staged, ht, hchanges, hstage, hstep⟩ := update_eq_ok h
  have hstages := Table.stage_eq_ok_iff.mp hstage
  have hamends := hstages.amends_replacement hchanges (hl ht).distinct
  have hcount := hstages.length_eq_countP
  rcases hstep with ⟨rfl, rfl⟩ | ⟨_, hkeys, _, records, hplace, rfl⟩
  · have hsame : table.records.entries.map (Staged.replacement []) = table.records.entries :=
      List.map_id _
    rw [hsame] at hamends
    exact ⟨table, table.records, ht, ht, hamends, hcount, sameBeside_refl name catalog⟩
  · obtain ⟨_, hentries, _⟩ := hstages.placed (hl ht) hkeys hplace
    rw [← hentries] at hamends
    refine ⟨table, records, ht, find?_setTable _ _ _, hamends, hcount, ?_⟩
    exact ((sameBeside_refl name catalog).foldl_mapIndexes (fun (s : Staged) column index =>
      index.refile column s.oldId s.old s.newId s.new) staged).setTable ht _

section
variable {σ : Type} [Store σ]

/-- On every reached catalog, an update that is answered has amended the records that pass its
filter, each in its place, and has left the others alone. The answer is the number of records that
passed, and nothing has changed beside the records of the table and the contents of its indexes. -/
theorem update_amends_in_place {db : Database σ} (h : db.catalog.Reached) {name : String}
    {assignments : List Assignment} {filter : Option Predicate} {count : Nat}
    (hok : (db.change (Catalog.update name assignments filter)).1 = .ok count) :
    ∃ table records, db.catalog.tables.find? name = some table ∧
      (db.change (Catalog.update name assignments filter)).2.catalog.tables.find? name =
        some { table with records := records } ∧
      List.Forall₂ (table.schema.Amends assignments filter) table.records.entries
        records.entries ∧
      count = table.records.values.countP (Predicate.passes filter) ∧
      db.catalog.SameBeside name
        (db.change (Catalog.update name assignments filter)).2.catalog := by
  obtain ⟨step, hstep, rfl, hcatalog⟩ := Database.exists_step_of_change hok
  rw [hcatalog]
  exact Catalog.update_amends hstep h.regular.linked

/-- The second of five games gets another id. Of the two scores assigned to it the last one counts,
and a text is kept as the number that it shows. -/
theorem update_amends_in_place_scores :
    scoredGames.catalog.Reached ∧
      (scoredGames.change (Catalog.update "games"
        [⟨"score", .integer 1⟩, ⟨"id", .integer 9⟩, ⟨"score", .text "7"⟩]
        (some (.compare ⟨"score", .eq, "5"⟩)))).1 = .ok 1 ∧
      ∃ table records,
        scoredGames.catalog.tables.find? "games" = some table ∧
        (scoredGames.change (Catalog.update "games"
          [⟨"score", .integer 1⟩, ⟨"id", .integer 9⟩, ⟨"score", .text "7"⟩]
          (some (.compare ⟨"score", .eq, "5"⟩)))).2.catalog.tables.find? "games" =
            some { table with records := records } ∧
        List.Forall₂ (table.schema.Amends
          [⟨"score", .integer 1⟩, ⟨"id", .integer 9⟩, ⟨"score", .text "7"⟩]
          (some (.compare ⟨"score", .eq, "5"⟩))) table.records.entries records.entries ∧
        records.keys = ["1", "9", "3", "4", "5"] ∧
        records.values.map (·.find? "score") = [some (.integer 20), some (.integer 7),
          some (.integer 20), some (.integer 100), none] := by
  have hreached : scoredGames.catalog.Reached := Database.reached_replay _ _
  have hok : (scoredGames.change (Catalog.update "games"
      [⟨"score", .integer 1⟩, ⟨"id", .integer 9⟩, ⟨"score", .text "7"⟩]
      (some (.compare ⟨"score", .eq, "5"⟩)))).1 = .ok 1 := by
    decide +kernel
  obtain ⟨table, records, ht, hafter, hamends, _⟩ := update_amends_in_place hreached hok
  have hshown : ((scoredGames.change (Catalog.update "games"
      [⟨"score", .integer 1⟩, ⟨"id", .integer 9⟩, ⟨"score", .text "7"⟩]
      (some (.compare ⟨"score", .eq, "5"⟩)))).2.catalog.tables.find? "games").map
        (fun table => (table.records.keys, table.records.values.map (·.find? "score"))) =
      some (["1", "9", "3", "4", "5"], [some (.integer 20), some (.integer 7),
        some (.integer 20), some (.integer 100), none]) := by
    decide +kernel
  rw [hafter] at hshown
  obtain ⟨hkeys, hscores⟩ := Prod.mk.inj (Option.some.inj hshown)
  exact ⟨hreached, hok, table, records, ht, hafter, hamends, hkeys, hscores⟩

end

end Rowfile

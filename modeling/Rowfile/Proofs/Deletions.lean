import Rowfile.Proofs.Selections
import Rowfile.Proofs.SingleTables

/-!
# Deleted and selected

A deletion and a selection with the same filter evaluate it on the same records in the same order, so
one fails where the other does and for the same fault. What is deleted is what would be selected: ids
are distinct, so dropping the ids of the records that pass drops these records and no other. The
records that are left are those that were not selected, as they were and in their order, and the
filter then selects nothing.
-/
namespace Rowfile

section
variable {entries found : List (RecordId × Record)} {filter : Option Predicate}

/-- Under distinct ids, the ids of some of the entries name these entries and no other. -/
theorem filter_ids_not_mem (hd : (entryKeys entries).Nodup) (p : RecordId × Record → Bool) :
    (entries.filter fun entry => !((entries.filter p).map Prod.fst).contains entry.1) =
      entries.filter fun entry => !p entry := by
  refine List.filter_congr fun entry he => congrArg Bool.not ?_
  rw [Bool.eq_iff_iff, List.contains_iff_mem]
  constructor
  · intro hid
    obtain ⟨other, hother, hsame⟩ := List.mem_map.mp hid
    obtain ⟨hmem, hp⟩ := List.mem_filter.mp hother
    rwa [← List.inj_on_of_nodup_map hd hmem he hsame]
  · exact fun hp => List.mem_map_of_mem (List.mem_filter.mpr ⟨he, hp⟩)

/-- The entries that do not pass are those whose records are not among the rows. -/
theorem filter_not_passes {rows : List Record} (h : passing filter entries = .ok found)
    (hrows : rows.Perm (found.map Prod.snd)) :
    (entries.filter fun entry => !Predicate.passes filter entry.2) =
      entries.filter fun entry => entry.2 ∉ rows := by
  obtain ⟨_, rfl⟩ := passing_eq_ok_iff.mp h
  refine List.filter_congr fun entry he => ?_
  have hmem : entry.2 ∈ rows ↔ Predicate.passes filter entry.2 = true := by
    rw [hrows.mem_iff, List.mem_map]
    constructor
    · rintro ⟨other, hother, hsame⟩
      exact hsame ▸ (List.mem_filter.mp hother).2
    · exact fun hp => ⟨entry, List.mem_filter.mpr ⟨he, hp⟩, rfl⟩
  simp only [hmem, Bool.not_eq_true, Bool.decide_eq_false]

/-- No rows stay no rows, in any order and up to any limit. -/
theorem limitTo_sort_nil (order : Option OrderBy) (limit : Option Nat) :
    limitTo limit (OrderBy.sort order []) = [] := by
  rw [(OrderBy.sort_perm order []).eq_nil]
  unfold limitTo
  split <;> rfl

/-- Of the entries that do not pass none passes. -/
theorem passing_filter_not (h : passing filter entries = .ok found) :
    passing filter (entries.filter fun entry => !Predicate.passes filter entry.2) = .ok [] := by
  obtain ⟨hdecides, _⟩ := passing_eq_ok_iff.mp h
  refine passing_eq_ok_iff.mpr ⟨fun entry he => hdecides entry (List.mem_of_mem_filter he), ?_⟩
  refine (List.filter_eq_nil_iff.mpr fun entry he => ?_).symm
  exact Bool.not_eq_true _ ▸ (Bool.not_eq_true' _).mp (List.mem_filter.mp he).2

end

namespace Catalog

variable {catalog : Catalog} {name : String} {table : Table} {filter : Option Predicate}

/-- A deletion fails when a selection with the same filter does, and for the same fault. -/
theorem delete_eq_error_iff (order : Option OrderBy) (limit : Option Nat) (fault : Fault) :
    catalog.delete name filter = .error fault ↔
      catalog.select name filter order limit = .error fault := by
  simp only [delete, select, bind_eq_error]
  refine or_congr_right (exists_congr fun table => and_congr_right fun _ => ?_)
  refine or_congr_right (exists_congr fun found => and_congr_right fun _ => ?_)
  split <;> simp

/-- What a deletion leaves of a table: the entries whose records do not pass. -/
theorem delete_of_passing (ht : catalog.tables.find? name = some table)
    (hd : table.records.keys.Nodup) {found : List (RecordId × Record)}
    (hfound : passing filter table.records.entries = .ok found) :
    ∃ step records, catalog.delete name filter = .ok step ∧ step.answer = found.length ∧
      step.saves = !found.isEmpty ∧
      step.catalog.tables.find? name = some { table with records := records } ∧
      records.entries = (table.records.entries.filter fun entry =>
        !Predicate.passes filter entry.2) ∧
      catalog.SameBeside name step.catalog := by
  obtain ⟨_, hpassed⟩ := passing_eq_ok_iff.mp hfound
  rw [delete, table_eq_ok_iff.mpr ht]
  simp only [ok_bind, hfound]
  cases hempty : found.isEmpty with
  | true =>
    obtain rfl := List.isEmpty_iff.mp hempty
    refine ⟨⟨0, catalog, false⟩, table.records, by simp, rfl, rfl, ht, ?_, sameBeside_refl _ _⟩
    refine (List.filter_eq_self.mpr fun entry he => ?_).symm
    exact Bool.not_eq_true' _ ▸ Bool.eq_false_iff.mpr
      (List.filter_eq_nil_iff.mp hpassed.symm entry he)
  | false =>
    refine ⟨_, table.records.retain fun id _ => !(found.map Prod.fst).contains id, rfl, rfl, rfl,
      find?_setTable _ _ _, ?_, ?_⟩
    · rw [PositionedMap.entries_retain, hpassed]
      exact filter_ids_not_mem hd _
    · exact ((sameBeside_refl name catalog).foldl_mapIndexes
        (fun (entry : RecordId × Record) column index => index.unfile column entry.1 entry.2)
        found).setTable ht _

end Catalog

section
variable {σ : Type} [Store σ]

/-- On every reached catalog a deletion fails exactly when a selection with the same filter does, for
the same fault, and then the database is as it was. Otherwise its answer is the number of rows
selected; the entries left are those whose records are not among the rows, in their order; the filter
selects nothing from them; and only the records of this table and the contents of its indexes have
changed. The answer is given unless there is something to save and saving fails. -/
theorem delete_complements_select {db : Database σ} (h : db.catalog.Reached) (name : String)
    (filter : Option Predicate) (order : Option OrderBy) :
    (∀ fault, db.catalog.delete name filter = .error fault ↔
      db.catalog.select name filter order none = .error fault) ∧
    (∀ fault, db.catalog.select name filter order none = .error fault →
      db.change (Catalog.delete name filter) = (.error fault, db)) ∧
    ∀ rows, db.catalog.select name filter order none = .ok rows →
      ∃ table step records, db.catalog.tables.find? name = some table ∧
        db.catalog.delete name filter = .ok step ∧ step.answer = rows.length ∧
        step.catalog.tables.find? name = some { table with records := records } ∧
        records.entries = (table.records.entries.filter fun entry => entry.2 ∉ rows) ∧
        (∀ order limit, step.catalog.select name filter order limit = .ok []) ∧
        db.catalog.SameBeside name step.catalog ∧
        (db.change (Catalog.delete name filter)).2.catalog = step.catalog ∧
        (db.change (Catalog.delete name filter)).1 =
          (if rows = [] then .ok () else (Store.save step.catalog db.store).1).map
            fun _ => rows.length := by
  refine ⟨Catalog.delete_eq_error_iff order none, fun fault hfault => ?_, fun rows hrows => ?_⟩
  · exact Database.change_of_error ((Catalog.delete_eq_error_iff order none fault).mpr hfault)
  · obtain ⟨table, found, ht, hfound, rfl⟩ := Catalog.select_eq_ok_iff.mp hrows
    rw [limitTo_none] at hrows ⊢
    have hperm := OrderBy.sort_perm order (found.map Prod.snd)
    have hlength : found.length = (OrderBy.sort order (found.map Prod.snd)).length := by
      rw [hperm.length_eq, List.length_map]
    obtain ⟨step, records, hstep, hanswer, hsaves, hafter, hentries, hbeside⟩ :=
      Catalog.delete_of_passing ht (h.regular.linked ht).distinct hfound
    obtain ⟨hcatalog, hchange⟩ := Database.change_of_ok hstep
    refine ⟨table, step, records, ht, hstep, hanswer.trans hlength, hafter, ?_, ?_, hbeside,
      hcatalog, ?_⟩
    · rw [hentries, filter_not_passes hfound hperm]
    · intro order limit
      refine Catalog.select_eq_ok_iff.mpr ⟨_, [], hafter, ?_, (limitTo_sort_nil _ _).symm⟩
      rw [hentries, passing_filter_not hfound]
    · have hnil : OrderBy.sort order (found.map Prod.snd) = [] ↔ found = [] := by
        rw [← List.length_eq_zero_iff, ← hlength, List.length_eq_zero_iff]
      rw [hchange, hsaves, hanswer, hlength]
      cases found with
      | nil => rw [if_pos (hnil.mpr rfl)]; rfl
      | cons entry rest => rw [if_neg (hnil.not.mpr (List.cons_ne_nil _ _))]; rfl

/-- Of five games the two that are selected by their score are deleted. -/
theorem delete_complements_select_scores :
    scoredGames.catalog.Reached ∧
      ∃ rows table step records,
        scoredGames.catalog.select "games"
          (some (.compare ⟨"score", .eq, "20"⟩)) none none = .ok rows ∧
        rows.map (·.find? "id") = [some (.integer 1), some (.integer 3)] ∧
        scoredGames.catalog.tables.find? "games" = some table ∧
        scoredGames.catalog.delete "games"
          (some (.compare ⟨"score", .eq, "20"⟩)) = .ok step ∧
        step.catalog.tables.find? "games" = some { table with records := records } ∧
        records.entries = (table.records.entries.filter fun entry => entry.2 ∉ rows) ∧
        (scoredGames.change
          (Catalog.delete "games" (some (.compare ⟨"score", .eq, "20"⟩)))).1 = .ok 2 := by
  have hreached : scoredGames.catalog.Reached := Database.reached_replay _ _
  have hids : (scoredGames.catalog.select "games"
      (some (.compare ⟨"score", .eq, "20"⟩)) none none).map (·.map (·.find? "id")) =
        .ok [some (.integer 1), some (.integer 3)] := by
    decide +kernel
  obtain ⟨rows, hrows, hids⟩ := map_eq_ok.mp hids
  have hlength : rows.length = 2 := by simpa using congrArg List.length hids
  obtain ⟨table, step, records, ht, hstep, _, hafter, hentries, _, _, _, hanswer⟩ :=
    (delete_complements_select hreached "games" (some (.compare ⟨"score", .eq, "20"⟩))
      none).2.2 rows hrows
  have hfull : rows ≠ [] := List.ne_nil_of_length_pos (hlength ▸ Nat.two_pos)
  rw [if_neg hfull, hlength] at hanswer
  exact ⟨hreached, rows, table, step, records, hrows, hids, ht, hstep, hafter, hentries, hanswer⟩

end

end Rowfile

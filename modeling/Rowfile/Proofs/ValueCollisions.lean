import Rowfile.Proofs.AmendedRecords
import Rowfile.Proofs.KeyCollisions

/-!
# When a value is refused

A record that passes every earlier check is refused for a value exactly when the table, with the
record at its end, would have two records that show one text in a column whose uniqueness is checked.
An update is refused for a value exactly when the amended records would, whether or not the column is
assigned. The check of an update compares what is new with itself and with what is taken beside it.
Because stored records show no text twice in such a column, it misses nothing. The fault names a
column and a text that collide.
-/
namespace Rowfile

/-! ## Collisions -/

/-- Two records show the text in the column, and the uniqueness of the column is checked. -/
def Schema.Collides (schema : Schema) (records : List Record) (column shown : String) : Prop :=
  column ∈ schema.uniqueColumns.map Column.name ∧ 2 ≤ records.countP (·.shows column shown)

/-- An outcome is the refusal of a value exactly when records collide, and it names a collision. -/
structure Schema.RefusesCollisions {α : Type} (schema : Schema) (records : List Record)
    (outcome : Except Fault α) : Prop where
  refused_iff : (∃ column shown, outcome = .error (.duplicateValue column shown)) ↔
    ∃ column shown, schema.Collides records column shown
  named : ∀ column shown, outcome = .error (.duplicateValue column shown) →
    schema.Collides records column shown

namespace Schema

variable {schema : Schema} {records : List Record}

theorem collides_iff {column shown : String} : schema.Collides records column shown ↔
    ∃ watched ∈ schema.uniqueColumns, watched.name = column ∧
      2 ≤ (Record.shownIn column records).count shown := by
  rw [Collides, List.mem_map, Record.count_shownIn]
  constructor
  · rintro ⟨⟨watched, hw, hname⟩, htwice⟩
    exact ⟨watched, hw, hname, htwice⟩
  · rintro ⟨watched, hw, hname, htwice⟩
    exact ⟨⟨watched, hw, hname⟩, htwice⟩

theorem not_collides (h : ∀ column ∈ schema.uniqueColumns,
    (Record.shownIn column.name records).Nodup) (column shown : String) :
    ¬schema.Collides records column shown := by
  intro hcollides
  obtain ⟨watched, hw, rfl, htwice⟩ := collides_iff.mp hcollides
  have hone := List.nodup_iff_count_le_one.mp (h watched hw) shown
  omega

/-- An operation whose fault is that of a check refuses collisions, if the check fails over
collisions only and passes only where no column shows a text twice. -/
theorem refusesCollisions_of_check {α : Type} {outcome : Except Fault α}
    (check : Except Fault Unit)
    (houtcome : ∀ fault, outcome = .error fault ↔ check = .error fault)
    (herror : ∀ fault, check = .error fault → ∃ column shown,
      fault = .duplicateValue column shown ∧ schema.Collides records column shown)
    (hok : check = .ok () → ∀ column ∈ schema.uniqueColumns,
      (Record.shownIn column.name records).Nodup) :
    schema.RefusesCollisions records outcome := by
  have hnamed : ∀ column shown, outcome = .error (.duplicateValue column shown) →
      schema.Collides records column shown := by
    intro column shown h
    obtain ⟨_, _, hfault, hcollides⟩ := herror _ ((houtcome _).mp h)
    obtain ⟨rfl, rfl⟩ := Fault.duplicateValue.inj hfault
    exact hcollides
  refine ⟨⟨fun ⟨column, shown, h⟩ => ⟨column, shown, hnamed column shown h⟩, ?_⟩, hnamed⟩
  rintro ⟨column, shown, hcollides⟩
  cases hcheck : check with
  | ok _ => exact (not_collides (hok hcheck) column shown hcollides).elim
  | error fault =>
    obtain ⟨column, shown, rfl, _⟩ := herror fault hcheck
    exact ⟨column, shown, (houtcome _).mpr hcheck⟩

end Schema

/-! ## Refused insertions and updates -/

namespace Lived

variable {catalog : Catalog} {name : String} {table : Table}
variable {indexes : String → Option Index} {freed : List RecordId}

theorem insert_refusesCollisions (h : Lived table indexes freed)
    (ht : catalog.tables.find? name = some table) {record stored : Record} {id : RecordId}
    (hp : table.prepare name record = .ok (id, stored))
    (hkey : ∀ key, catalog.insert name record ≠ .error (.duplicateKey key)) :
    table.schema.RefusesCollisions (table.records.values ++ [stored])
      (catalog.insert name record) := by
  have hfree : table.records.contains id = false := by
    rw [Bool.eq_false_iff]
    intro hc
    obtain ⟨key, hrefused⟩ := (Catalog.insert_duplicateKey_iff ht hp).mpr hc
    exact hkey key hrefused
  refine Schema.refusesCollisions_of_check
    (table.checkUnique stored table.schema.uniqueColumns) (fun fault => ?_)
    (fun fault hfault => ?_) (fun hcheck column hc => ?_)
  · simp [Catalog.insert_eq_error_iff ht hp, hfree]
  · obtain ⟨column, hc, value, hvalue, htaken, rfl⟩ := Table.checkUnique_error hfault
    refine ⟨_, _, rfl, Schema.collides_iff.mpr ⟨column, hc, rfl, ?_⟩⟩
    have hcount := List.one_le_count_iff.mpr htaken
    rw [Record.shownIn_append, Record.shownIn_cons hvalue, List.count_append,
      List.count_cons_self]
    omega
  · exact Record.nodup_shownIn_concat.mpr
      ⟨h.shown_once hc, Table.checkUnique_eq_ok_iff.mp hcheck column hc⟩

theorem update_refusesCollisions (h : Lived table indexes freed)
    (ht : catalog.tables.find? name = some table) {assignments : List Assignment}
    {filter : Option Predicate} {changes : List (String × Value)}
    {after : List (RecordId × Record)} (hchanges : table.changes name assignments = .ok changes)
    (hamend : table.records.entries.mapM (table.amend changes filter) = .ok after)
    (hkey : ∀ key, catalog.update name assignments filter ≠ .error (.duplicateKey key)) :
    table.schema.RefusesCollisions (after.map Prod.snd)
      (catalog.update name assignments filter) := by
  have hd := h.linked.distinct
  obtain ⟨staged, hstages, rfl⟩ := Stages.of_amend hd hamend
  have hstage := Table.stage_eq_ok_iff.mpr hstages
  have hkeys : table.checkKeys [] staged = .ok () := by
    by_contra hno
    obtain ⟨key, hrefused⟩ :=
      (Catalog.update_duplicateKey_iff ht h.linked hchanges hstage).mpr hno
    exact hkey key hrefused
  refine Schema.refusesCollisions_of_check (table.checkStagedUnique staged)
    (fun fault => ?_) (fun fault hfault => ?_) (fun hcheck column hc => ?_)
  · simp [Catalog.update_eq_error_iff ht h.linked hchanges hstage, hkeys]
  · obtain ⟨column, hc, shown, rfl, htwice⟩ := Table.checkStagedUnique_error hfault
    refine ⟨_, _, rfl, Schema.collides_iff.mpr ⟨column, hc, rfl, ?_⟩⟩
    rw [(hstages.perm_shownIn hd column.name).count_eq, ← Table.takenBeside_eq]
    exact htwice
  · exact (hstages.checkColumn_eq_ok_iff hd (h.shown_once hc)).mp
      (forM_eq_ok.mp hcheck column hc)

end Lived

/-! ## Updates that change nothing -/

theorem mapM_eq_ok_self {ε α : Type} {f : α → Except ε α} {l : List α}
    (h : ∀ a ∈ l, f a = .ok a) : l.mapM f = .ok l :=
  mapM_eq_ok_iff.mpr (List.forall₂_same.mpr h)

namespace Schema.Admits

variable {table : Table} {id : RecordId} {record : Record} {column : Column} {held : Value}

theorem newId (h : table.schema.Admits id record) : table.newId id record = .ok id := by
  obtain ⟨column, value, hpk, hvalue, hfalsy, hid⟩ := h.key
  rw [Table.newId, hpk]
  exact Record.key_eq_ok_iff.mpr ⟨value, hvalue, hfalsy, hid⟩

/-- A held value can be assigned to its column and is kept as it is. -/
theorem changes (h : table.schema.Admits id record) (hc : column ∈ table.schema.list)
    (hheld : record.find? column.name = some held) (name : String) :
    table.changes name [⟨column.name, held⟩] = .ok [(column.name, held)] := by
  have hcolumn := Schema.mem_list_iff.mp hc
  have hof := h.typed _ _ _ hheld hcolumn
  refine Table.changes_eq_ok_iff.mpr (.cons ⟨column, hcolumn, Value.fits_of_isOf hof, ?_⟩ .nil)
  rw [Value.conform_of_isOf hof]

end Schema.Admits

namespace Lived

variable {catalog : Catalog} {name : String} {table : Table}
variable {indexes : String → Option Index} {freed : List RecordId}

/-- An update that leaves every record as it is passes every check. -/
theorem update_of_unchanged (h : Lived table indexes freed)
    (ht : catalog.tables.find? name = some table) {assignments : List Assignment}
    {filter : Option Predicate} {changes : List (String × Value)}
    (hchanges : table.changes name assignments = .ok changes)
    (hamend : table.records.entries.mapM (table.amend changes filter) =
      .ok table.records.entries) :
    ∃ step, catalog.update name assignments filter = .ok step ∧
      step.answer = table.records.values.countP (Predicate.passes filter) := by
  have hd := h.linked.distinct
  obtain ⟨staged, hstages, hsame⟩ := Stages.of_amend hd hamend
  have hstage := Table.stage_eq_ok_iff.mpr hstages
  have hkeys : table.checkKeys [] staged = .ok () := by
    rw [h.checkKeys_eq_ok_iff hstages, ← hsame]
    exact ⟨hd, fun id hid => (h.recorded id).2 hid⟩
  have hunique : table.checkStagedUnique staged = .ok () := by
    refine forM_eq_ok.mpr fun column hc => ?_
    rw [hstages.checkColumn_eq_ok_iff hd (h.shown_once hc), ← hsame]
    exact h.shown_once hc
  cases hu : catalog.update name assignments filter with
  | error fault =>
    rcases (Catalog.update_eq_error_iff ht h.linked hchanges hstage).mp hu with he | ⟨_, he⟩
    · rw [hkeys] at he
      cases he
    · rw [hunique] at he
      cases he
  | ok step =>
    refine ⟨step, rfl, ?_⟩
    obtain ⟨table', changes', staged', ht', hchanges', hstage', hstep⟩ := Catalog.update_eq_ok hu
    obtain rfl := Option.some.inj (ht.symm.trans ht')
    obtain rfl := Except.ok.inj (hchanges.symm.trans hchanges')
    obtain rfl := Except.ok.inj (hstage.symm.trans hstage')
    rw [PositionedMap.values, ← hstages.length_eq_countP]
    rcases hstep with ⟨rfl, rfl⟩ | ⟨_, _, _, _, _, rfl⟩ <;> rfl

/-- To set a column of one record to the value it holds amends no entry. -/
theorem mapM_amend_held (h : Lived table indexes freed) {entry : RecordId × Record}
    (he : entry ∈ table.records.entries) {column : String} {held : Value}
    (hheld : entry.2.find? column = some held) {filter : Option Predicate}
    (hfilter : ∀ other ∈ table.records.entries,
      Predicate.accepts filter other.2 = .ok (other.1 == entry.1)) :
    table.records.entries.mapM (table.amend [(column, held)] filter) =
      .ok table.records.entries := by
  refine mapM_eq_ok_self fun other ho => ?_
  rw [Table.amend, hfilter other ho, ok_bind]
  by_cases hid : other.1 = entry.1
  · obtain rfl := List.inj_on_of_nodup_map h.linked.distinct ho he hid
    have hsame : other.2.insertAll [(column, held)] = other.2 := KeyedMap.insert_of_find? hheld
    simp only [beq_self_eq_true, if_true, hsame, (h.admits other he).newId, ok_bind, pure_eq_ok]
  · rw [beq_false_of_ne hid]
    rfl

/-- The filter passes one record. -/
theorem countP_passes_eq_one (h : Lived table indexes freed) {entry : RecordId × Record}
    (he : entry ∈ table.records.entries) {filter : Option Predicate}
    (hfilter : ∀ other ∈ table.records.entries,
      Predicate.accepts filter other.2 = .ok (other.1 == entry.1)) :
    table.records.values.countP (Predicate.passes filter) = 1 := by
  have hpasses : ∀ other ∈ table.records.entries,
      (Predicate.passes filter other.2 = true ↔ (other.1 == entry.1) = true) := fun other ho => by
    rw [Predicate.passes_of_accepts (hfilter other ho)]
  have hcount := List.count_eq_one_of_mem h.linked.distinct (List.mem_map_of_mem he)
  rw [PositionedMap.values, List.countP_map, ← hcount, PositionedMap.keys, List.count,
    List.countP_map]
  exact List.countP_congr hpasses

end Lived

/-! ## After every history -/

def addressRecord (id : Int64) (address : String) : Record :=
  .ofList [("id", .integer id), ("address", .text address)]

/-- A table of two records with addresses, which are to be unique. -/
def addressHistory : List Operation :=
  [.createTable "t" (.ofColumns [⟨"id", .int, true, false, false, none⟩,
      ⟨"address", .text, false, false, true, none⟩]),
    .insert "t" (addressRecord 1 "a"), .insert "t" (addressRecord 2 "b")]

def addressTable : Table :=
  ⟨.ofColumns [⟨"id", .int, true, false, false, none⟩,
      ⟨"address", .text, false, false, true, none⟩],
    ⟨[("1", addressRecord 1 "a"), ("2", addressRecord 2 "b")], [("2", 1), ("1", 0)]⟩⟩

section
variable {σ : Type} [Store σ]

/-- After every history, a record that passes the earlier checks is refused for a value exactly when
it would collide with a stored record, and an update that passes them exactly when the amended
records would collide; the fault names a collision. In particular a column of a single record may be
set to the value that it holds. -/
theorem duplicate_value_iff_collision (history : List Operation) (store : σ) {name : String}
    {table : Table}
    (h : (Database.replay history store).catalog.tables.find? name = some table) :
    (∀ record id stored, table.prepare name record = .ok (id, stored) →
      (∀ key, (Database.replay history store).catalog.insert name record ≠
        .error (.duplicateKey key)) →
      table.schema.RefusesCollisions (table.records.values ++ [stored])
        ((Database.replay history store).catalog.insert name record)) ∧
    (∀ assignments filter changes after, table.changes name assignments = .ok changes →
      table.records.entries.mapM (table.amend changes filter) = .ok after →
      (∀ key, (Database.replay history store).catalog.update name assignments filter ≠
        .error (.duplicateKey key)) →
      table.schema.RefusesCollisions (after.map Prod.snd)
        ((Database.replay history store).catalog.update name assignments filter)) ∧
    ∀ column ∈ table.schema.uniqueColumns, ∀ entry ∈ table.records.entries, ∀ held filter,
      entry.2.find? column.name = some held →
      (∀ other ∈ table.records.entries,
        Predicate.accepts filter other.2 = .ok (other.1 == entry.1)) →
      ∃ step, (Database.replay history store).catalog.update name [⟨column.name, held⟩] filter =
        .ok step ∧ step.answer = 1 := by
  have hlived := lived_of_replay h
  refine ⟨fun record id stored hp hkey => hlived.insert_refusesCollisions h hp hkey,
    fun assignments filter changes after hchanges hamend hkey =>
      hlived.update_refusesCollisions h hchanges hamend hkey,
    fun column hc entry he held filter hheld hfilter => ?_⟩
  have hchanges := (hlived.admits entry he).changes (List.mem_of_mem_filter hc) hheld name
  rw [← hlived.countP_passes_eq_one he hfilter]
  exact hlived.update_of_unchanged h hchanges (hlived.mapM_amend_held he hheld hfilter)

/-- A third record with an address that is stored, and one new address for both records, are refused
and collide. The second record may keep its address. -/
theorem duplicate_value_iff_collision_addresses :
    ((Database.replay addressHistory ()).catalog.insert "t" (addressRecord 3 "a") =
        .error (.duplicateValue "address" "a") ∧
      addressTable.schema.Collides (addressTable.records.values ++ [addressRecord 3 "a"])
        "address" "a") ∧
    ((Database.replay addressHistory ()).catalog.update "t" [⟨"address", .text "c"⟩] none =
        .error (.duplicateValue "address" "c") ∧
      addressTable.schema.Collides [addressRecord 1 "c", addressRecord 2 "c"] "address" "c") ∧
    ∃ step, (Database.replay addressHistory ()).catalog.update "t" [⟨"address", .text "b"⟩]
        (some (.compare ⟨"id", .eq, "2"⟩)) = .ok step ∧ step.answer = 1 := by
  have htable : (Database.replay addressHistory ()).catalog.tables.find? "t" =
      some addressTable := by decide +kernel
  obtain ⟨hinsert, hupdate, hheld⟩ := duplicate_value_iff_collision addressHistory () htable
  have hinserted : (Database.replay addressHistory ()).catalog.insert "t" (addressRecord 3 "a") =
      .error (.duplicateValue "address" "a") := rfl
  have hupdated : (Database.replay addressHistory ()).catalog.update "t"
      [⟨"address", .text "c"⟩] none = .error (.duplicateValue "address" "c") := rfl
  refine ⟨⟨hinserted, ?_⟩, ⟨hupdated, ?_⟩, ?_⟩
  · have hp : addressTable.prepare "t" (addressRecord 3 "a") =
        .ok ("3", addressRecord 3 "a") := by decide +kernel
    refine (hinsert _ _ _ hp fun key hkey => ?_).named _ _ hinserted
    rw [hinserted] at hkey
    cases hkey
  · have hchanges : addressTable.changes "t" [⟨"address", .text "c"⟩] =
        .ok [("address", .text "c")] := by decide +kernel
    have hamend : addressTable.records.entries.mapM
        (addressTable.amend [("address", .text "c")] none) =
          .ok [("1", addressRecord 1 "c"), ("2", addressRecord 2 "c")] := by decide +kernel
    refine (hupdate _ _ _ _ hchanges hamend fun key hkey => ?_).named _ _ hupdated
    rw [hupdated] at hkey
    cases hkey
  · exact hheld ⟨"address", .text, false, false, true, none⟩ (by decide +kernel)
      ("2", addressRecord 2 "b") (by decide) (.text "b") _ (by decide +kernel) (by decide +kernel)

end

end Rowfile

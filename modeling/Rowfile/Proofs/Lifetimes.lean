import Rowfile.Proofs.Admission
import Rowfile.Proofs.History
import Rowfile.Proofs.IndexContents
import Rowfile.Proofs.Selections
import Rowfile.Proofs.Staging

/-!
# What holds throughout the life of a table

Five invariants, by induction over what operations can have done to a table. Its records are linked
with their positions, and the recorded ids are those of its records and those that deletions took
out; one induction gives both. The schema admits every record under its id; every index covers its
column; and no column whose uniqueness is checked shows a text twice.
-/
namespace Rowfile

theorem sublist_of_passing {filter : Option Predicate} {entries doomed : List (RecordId × Record)}
    (h : passing filter entries = .ok doomed) : doomed.Sublist entries := by
  obtain ⟨_, rfl⟩ := passing_eq_ok_iff.mp h
  exact List.filter_sublist

/-! ## Recorded ids -/

/-- The recorded ids of a table are the live ones and, apart from them, the freed ones. -/
def Table.Recorded (table : Table) (live : RecordId → Prop) (freed : List RecordId) : Prop :=
  ∀ id, (table.records.contains id = true ↔ live id ∨ id ∈ freed) ∧ (id ∈ freed → ¬live id)

namespace Table.Recorded

variable {table : Table} {live live' : RecordId → Prop} {freed : List RecordId}

theorem congr (h : table.Recorded live freed) (hlive : ∀ id, live' id ↔ live id) :
    table.Recorded live' freed := by
  intro id
  rw [hlive]
  exact h id

theorem ofSchema (schema : Schema) : (Table.ofSchema schema).Recorded (fun _ => False) [] := by
  intro id
  refine ⟨?_, fun hid => (List.not_mem_nil hid).elim⟩
  simp [Table.ofSchema, PositionedMap.empty, PositionedMap.contains, PositionedMap.position?]

/-- The id of a stored record is live, and it was not freed. -/
theorem stored (h : table.Recorded live freed) {new : RecordId}
    (hfree : table.records.contains new = false) (record : Record) :
    Recorded { table with records := table.records.extend new record }
      (fun id => live id ∨ id = new) freed := by
  intro id
  simp only [PositionedMap.contains_extend, (h id).1]
  refine ⟨?_, fun hid => ?_⟩
  · rw [← or_assoc, or_comm (a := id = new)]
  · rintro (hl | rfl)
    · exact (h id).2 hid hl
    · rw [(h id).1.mpr (.inr hid)] at hfree
      cases hfree

/-- An update takes the old ids of staged records out and makes the new ones live. -/
theorem updated (h : table.Recorded live freed) (hl : table.records.Linked)
    (hkeys : ∀ id ∈ table.records.keys, live id) {changes : List (String × Value)}
    {filter : Option Predicate} {staged : List Staged} {records : PositionedMap Record}
    (hstages : Stages table changes filter table.records.entries staged)
    (hcheck : table.checkKeys [] staged = .ok ())
    (hplace : Table.place table.records staged = .ok records) :
    Recorded { table with records := records }
      (fun id => (live id ∧ id ∉ staged.map Staged.oldId) ∨ id ∈ staged.map Staged.newId)
      freed := by
  intro id
  obtain ⟨_, _, hcontains⟩ := hstages.placed hl hcheck hplace
  -- A freed id is recorded and not live: it is no old id, and no new one is free to be it.
  have hold : id ∈ staged.map Staged.oldId → live id := fun ho => hkeys id (hstages.oldId_mem ho)
  refine ⟨?_, fun hid => ?_⟩
  · rw [hcontains, (h id).1]
    constructor
    · rintro (hnew | ⟨hno, hlive | hid⟩)
      · exact .inl (.inr hnew)
      · exact .inl (.inl ⟨hlive, hno⟩)
      · exact .inr hid
    · rintro ((⟨hlive, hno⟩ | hnew) | hid)
      · exact .inr ⟨hno, .inl hlive⟩
      · exact .inl hnew
      · exact .inr ⟨fun ho => (h id).2 hid (hold ho), .inr hid⟩
  · rintro (⟨hlive, _⟩ | hnew)
    · exact (h id).2 hid hlive
    · obtain ⟨s, hs, rfl⟩ := List.mem_map.mp hnew
      rcases (hstages.ready hl hcheck).free s hs with he | hf
      · exact (h _).2 hid (hold (List.mem_map.mpr ⟨s, hs, he.symm⟩))
      · rw [(h _).1.mpr (.inr hid)] at hf
        cases hf

/-- Nothing is struck from the positions, so what a deletion takes from the keys is freed. -/
theorem deleted (h : table.Recorded (· ∈ table.records.keys) freed) (hl : table.records.Linked)
    (keep : RecordId → Record → Bool) :
    Recorded { table with records := table.records.retain keep }
      (· ∈ (table.records.retain keep).keys)
      (freed ++ lostIds table.records.keys (table.records.retain keep).keys) := by
  intro id
  have hsub : id ∈ (table.records.retain keep).keys → id ∈ table.records.keys := fun hk =>
    (List.filter_sublist.map Prod.fst).subset hk
  have hlost : id ∈ lostIds table.records.keys (table.records.retain keep).keys ↔
      id ∈ table.records.keys ∧ id ∉ (table.records.retain keep).keys := by
    simp [lostIds, List.mem_filter]
  rw [hl.contains_retain, (h id).1, List.mem_append, hlost]
  constructor
  · constructor
    · rintro (hk | hid)
      · by_cases hkept : id ∈ (table.records.retain keep).keys
        · exact .inl hkept
        · exact .inr (.inr ⟨hk, hkept⟩)
      · exact .inr (.inl hid)
    · rintro (hk | hid | ⟨hk, _⟩)
      · exact .inl (hsub hk)
      · exact .inr hid
      · exact .inl hk
  · rintro (hid | ⟨_, hno⟩)
    · exact fun hk => (h id).2 hid (hsub hk)
    · exact hno

end Table.Recorded

/-- The ids that are stored after an update are the others and the new ones. -/
theorem Stages.mem_keys_placed {table : Table} {changes : List (String × Value)}
    {filter : Option Predicate} {staged : List Staged} {records : PositionedMap Record}
    (h : Stages table changes filter table.records.entries staged)
    (hl : table.records.Linked) (hkeys : table.checkKeys [] staged = .ok ())
    (hplace : Table.place table.records staged = .ok records) (id : RecordId) :
    id ∈ records.keys ↔
      (id ∈ table.records.keys ∧ id ∉ staged.map Staged.oldId) ∨
        id ∈ staged.map Staged.newId := by
  rw [PositionedMap.keys, (h.placed hl hkeys hplace).2.1]
  exact h.mem_keys_replacement hl.distinct

/-- Records stand where they are recorded, and the recorded ids are those of the records and, apart
from them, the freed ones. -/
structure Table.Tidy (table : Table) (freed : List RecordId) : Prop where
  linked : table.records.Linked
  recorded : table.Recorded (· ∈ table.records.keys) freed

namespace Table.Tidy

variable {table : Table} {freed : List RecordId}

theorem ofSchema (schema : Schema) : (Table.ofSchema schema).Tidy [] :=
  ⟨PositionedMap.linked_empty, (Table.Recorded.ofSchema schema).congr fun _ =>
    iff_of_false List.not_mem_nil id⟩

theorem stored (h : table.Tidy freed) {name : String} {record stored : Record} {id : RecordId}
    (haccept : table.accept name record = .ok (id, stored)) :
    Tidy { table with records := table.records.extend id stored } freed := by
  have hfree := (Table.accept_eq_ok_iff.mp haccept).2.1
  refine ⟨h.linked.extend hfree _, (h.recorded.stored hfree _).congr fun other => ?_⟩
  rw [PositionedMap.keys_extend, List.mem_append, List.mem_singleton]

theorem updated (h : table.Tidy freed) {changes : List (String × Value)}
    {filter : Option Predicate} {staged : List Staged} {records : PositionedMap Record}
    (hstage : table.stage changes filter table.records.entries = .ok staged)
    (hcheck : table.checkKeys [] staged = .ok ())
    (hplace : Table.place table.records staged = .ok records) :
    Tidy { table with records := records } freed := by
  have hstages := Table.stage_eq_ok_iff.mp hstage
  exact ⟨(hstages.placed h.linked hcheck hplace).1,
    (h.recorded.updated h.linked (fun _ => id) hstages hcheck hplace).congr
      (hstages.mem_keys_placed h.linked hcheck hplace)⟩

theorem deleted (h : table.Tidy freed) (keep : RecordId → Record → Bool) :
    Tidy { table with records := table.records.retain keep }
      (freed ++ lostIds table.records.keys (table.records.retain keep).keys) :=
  ⟨h.linked.retain keep, h.recorded.deleted h.linked keep⟩

end Table.Tidy

/-! ## Admitted records -/

/-- The schema of the table admits every record under its id. -/
def Table.Admitted (table : Table) : Prop :=
  ∀ entry ∈ table.records.entries, table.schema.Admits entry.1 entry.2

namespace Table.Admitted

variable {table : Table} {name : String}

theorem stored (h : table.Admitted) {record stored : Record} {id : RecordId}
    (hprepare : table.prepare name record = .ok (id, stored)) :
    Admitted { table with records := table.records.extend id stored } := by
  intro entry he
  rcases List.mem_append.mp he with he | he
  · exact h entry he
  · obtain rfl := List.mem_singleton.mp he
    exact Table.admits_of_prepare hprepare

theorem updated (h : table.Admitted) (hl : table.records.Linked) {assignments : List Assignment}
    {changes : List (String × Value)} {filter : Option Predicate} {staged : List Staged}
    {records : PositionedMap Record} (hchanges : table.changes name assignments = .ok changes)
    (hstages : Stages table changes filter table.records.entries staged)
    (hcheck : table.checkKeys [] staged = .ok ())
    (hplace : Table.place table.records staged = .ok records) :
    Admitted { table with records := records } := by
  obtain ⟨_, hentries, _⟩ := hstages.placed hl hcheck hplace
  intro entry he
  rw [hentries, hstages.mem_replacement hl.distinct] at he
  rcases he with ⟨he, _⟩ | ⟨s, hs, rfl⟩
  · exact h entry he
  · obtain ⟨hold, hnew, hid⟩ := hstages.of_mem hs
    have hadmits := h _ hold
    obtain ⟨column, _, hpk, _⟩ := hadmits.key
    simp only [Table.newId, hpk] at hid
    rw [hnew] at hid ⊢
    exact hadmits.insertAll (Table.keeps_of_changes hchanges) hpk hid

theorem deleted (h : table.Admitted) (keep : RecordId → Record → Bool) :
    Admitted { table with records := table.records.retain keep } :=
  fun entry he => h entry (List.mem_of_mem_filter he)

end Table.Admitted

namespace Lived

variable {table : Table} {indexes : String → Option Index} {freed : List RecordId}

/-- The records of a table are found where they stand, and an id is recorded when a record has it or
a deletion took it out, and not both. -/
theorem tidy (h : Lived table indexes freed) : table.Tidy freed := by
  induction h with
  | created schema => exact .ofSchema schema
  | indexed _ _ ih => exact ih
  | inserted _ haccept hstore ih =>
    obtain ⟨_, rfl⟩ := Table.eq_of_stored haccept hstore
    exact ih.stored haccept
  | updated _ _ hstage hkeys _ hplace ih => exact ih.updated hstage hkeys hplace
  | deleted _ _ hrecords ih =>
    subst hrecords
    exact ih.deleted _

theorem linked (h : Lived table indexes freed) : table.records.Linked := h.tidy.linked

theorem recorded (h : Lived table indexes freed) :
    table.Recorded (· ∈ table.records.keys) freed := h.tidy.recorded

/-- The schema of a table admits every record under its id. -/
theorem admits (h : Lived table indexes freed) : table.Admitted := by
  induction h with
  | created schema => exact fun entry he => (List.not_mem_nil he).elim
  | indexed _ _ ih => exact ih
  | inserted _ haccept hstore ih =>
    obtain ⟨_, rfl⟩ := Table.eq_of_stored haccept hstore
    exact ih.stored (Table.accept_eq_ok_iff.mp haccept).1
  | updated hlived hchanges hstage hkeys _ hplace ih =>
    exact ih.updated hlived.linked hchanges (Table.stage_eq_ok_iff.mp hstage) hkeys hplace
  | deleted _ _ hrecords ih =>
    subst hrecords
    exact ih.deleted _

/-- Every index is over a column of the schema and covers the records. -/
theorem covers (h : Lived table indexes freed) {column : String} {index : Index}
    (hi : indexes column = some index) :
    (table.schema.column? column).isSome = true ∧
      index.Covers column table.records.entries := by
  induction h generalizing index with
  | created schema => cases hi
  | @indexed _ _ _ added _ hcolumn ih =>
    rw [Function.update_apply] at hi
    split at hi
    · next he =>
      obtain rfl := Option.some.inj hi
      subst he
      exact ⟨hcolumn, Index.covers_build _ _⟩
    · exact ih hi
  | inserted _ haccept hstore ih =>
    obtain ⟨hfree, rfl⟩ := Table.eq_of_stored haccept hstore
    obtain ⟨before, hbefore, rfl⟩ := Option.map_eq_some_iff.mp hi
    exact ⟨(ih hbefore).1, (ih hbefore).2.file _ _⟩
  | updated hlived _ hstage hkeys _ hplace ih =>
    obtain ⟨before, hbefore, rfl⟩ := Option.map_eq_some_iff.mp hi
    have hready := (Table.stage_eq_ok_iff.mp hstage).ready hlived.linked hkeys
    exact ⟨(ih hbefore).1, hready.covers hplace (ih hbefore).2⟩
  | deleted hlived hdoomed hrecords ih =>
    subst hrecords
    obtain ⟨before, hbefore, rfl⟩ := Option.map_eq_some_iff.mp hi
    exact ⟨(ih hbefore).1, (ih hbefore).2.foldl_unfile hlived.linked.distinct
      (sublist_of_passing hdoomed)⟩

/-- No column whose uniqueness is checked shows a text twice. -/
theorem shown_once (h : Lived table indexes freed) {column : Column}
    (hc : column ∈ table.schema.uniqueColumns) :
    (Record.shownIn column.name table.records.values).Nodup := by
  induction h with
  | created schema => exact List.nodup_nil
  | indexed _ _ ih => exact ih hc
  | inserted _ haccept hstore ih =>
    obtain ⟨_, rfl⟩ := Table.eq_of_stored haccept hstore
    have hunique := (Table.accept_eq_ok_iff.mp haccept).2.2
    have hnew := Table.checkUnique_eq_ok_iff.mp hunique column hc
    rw [PositionedMap.values, PositionedMap.extend, List.map_append]
    exact Record.nodup_shownIn_concat.mpr ⟨ih hc, hnew⟩
  | updated hlived _ hstage hkeys hunique hplace ih =>
    have hstages := Table.stage_eq_ok_iff.mp hstage
    obtain ⟨_, hentries, _⟩ := hstages.placed hlived.linked hkeys hplace
    rw [PositionedMap.values, hentries]
    exact (hstages.checkColumn_eq_ok_iff hlived.linked.distinct (ih hc)).mp
      (forM_eq_ok.mp hunique column hc)
  | deleted _ _ hrecords ih =>
    subst hrecords
    exact (ih hc).sublist ((List.filter_sublist.map Prod.snd).filterMap _)

end Lived

end Rowfile

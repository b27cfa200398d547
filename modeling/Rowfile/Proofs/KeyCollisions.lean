import Rowfile.Proofs.Lifetimes

/-!
# When a key is refused

A record that passes every earlier check is refused for its id exactly when its table holds a record
with this id or a deletion took one out. An update is refused for its ids exactly when amending all
matching records at once would leave two records with one id, or would give a record an id that a
deletion took out. So real collisions are always refused, and what is refused beside them are the
freed ids: a deletion leaves their positions recorded.
-/
namespace Rowfile

/-! ## Which check answers what -/

theorem forM_eq_error {ε α : Type} {f : α → Except ε Unit} {l : List α} {e : ε}
    (h : l.forM f = .error e) : ∃ a ∈ l, f a = .error e := by
  induction l with
  | nil => cases h
  | cons a l ih =>
    rw [List.forM_eq_forM, List.forM_cons, bind_eq_error] at h
    rcases h with h | ⟨_, _, h⟩
    · exact ⟨a, List.mem_cons_self, h⟩
    · obtain ⟨b, hb, he⟩ := ih h
      exact ⟨b, List.mem_cons_of_mem _ hb, he⟩

namespace Table

variable {table : Table} {fault : Fault}

theorem checkUnique_error {record : Record} {columns : List Column}
    (h : table.checkUnique record columns = .error fault) :
    ∃ column ∈ columns, ∃ value, record.find? column.name = some value ∧
      value.shown ∈ Record.shownIn column.name table.records.values ∧
      fault = .duplicateValue column.name value.shown := by
  induction columns with
  | nil => cases h
  | cons column columns ih =>
    unfold checkUnique at h
    split at h
    · exact List.exists_mem_cons_of_exists (ih h)
    · next value hvalue =>
      split at h
      · next htaken =>
        rw [List.any_eq_true, ← Record.mem_shownIn] at htaken
        exact ⟨column, List.mem_cons_self, value, hvalue, htaken, (Except.error.inj h).symm⟩
      · exact List.exists_mem_cons_of_exists (ih h)

theorem checkKeys_error {seen : List RecordId} {staged : List Staged}
    (h : table.checkKeys seen staged = .error fault) : ∃ key, fault = .duplicateKey key := by
  induction staged generalizing seen with
  | nil => cases h
  | cons s rest ih =>
    unfold checkKeys at h
    split at h
    · exact ⟨_, (Except.error.inj h).symm⟩
    · split at h
      · exact ⟨_, (Except.error.inj h).symm⟩
      · exact ih h

/-- What a column is refused for is shown twice by what is taken and the new records together. -/
theorem checkColumn_error {column : String} {taken : List String} {staged : List Staged}
    (h : checkColumn column taken staged = .error fault) :
    ∃ shown, fault = .duplicateValue column shown ∧
      2 ≤ (taken ++ Record.shownIn column (staged.map Staged.new)).count shown := by
  induction staged generalizing taken with
  | nil => cases h
  | cons s rest ih =>
    unfold checkColumn at h
    split at h
    · next hnone =>
      have hshown : Record.shownIn column ((s :: rest).map Staged.new) =
          Record.shownIn column (rest.map Staged.new) := by
        simp [Record.shownIn, hnone]
      rw [hshown]
      exact ih h
    · next value hvalue =>
      rw [List.map_cons, Record.shownIn_cons hvalue]
      split at h
      · next htaken =>
        refine ⟨value.shown, (Except.error.inj h).symm, ?_⟩
        have hcount := List.one_le_count_iff.mpr (List.contains_iff_mem.mp htaken)
        rw [List.count_append, List.count_cons_self]
        omega
      · obtain ⟨shown, hfault, htwice⟩ := ih h
        exact ⟨shown, hfault, List.perm_middle.count_eq shown ▸ htwice⟩

theorem checkStagedUnique_error {staged : List Staged}
    (h : table.checkStagedUnique staged = .error fault) :
    ∃ column ∈ table.schema.uniqueColumns, ∃ shown, fault = .duplicateValue column.name shown ∧
      2 ≤ (table.takenBeside staged column.name ++
        Record.shownIn column.name (staged.map Staged.new)).count shown := by
  obtain ⟨column, hc, hcolumn⟩ := forM_eq_error h
  exact ⟨column, hc, checkColumn_error hcolumn⟩

end Table

namespace Catalog

variable {catalog : Catalog} {name : String} {table : Table}

/-- A prepared record is refused for its id when the id is recorded, else for a value in a unique
column, and for no other reason. -/
theorem insert_eq_error_iff (ht : catalog.tables.find? name = some table)
    {record stored : Record} {id : RecordId}
    (hp : table.prepare name record = .ok (id, stored)) {fault : Fault} :
    catalog.insert name record = .error fault ↔
      table.records.contains id = true ∧ fault = .duplicateKey id ∨
      table.records.contains id = false ∧
        table.checkUnique stored table.schema.uniqueColumns = .error fault := by
  have haccept : table.accept name record =
      if table.records.contains id then .error (.duplicateKey id)
      else table.checkUnique stored table.schema.uniqueColumns >>= fun _ => .ok (id, stored) := by
    rw [Table.accept, hp]
    cases hc : table.records.contains id <;> simp [hc]
  cases hc : table.records.contains id with
  | true =>
    rw [insert, table_eq_ok_iff.mpr ht]
    simp [haccept, hc, eq_comm]
  | false =>
    cases hu : table.checkUnique stored table.schema.uniqueColumns with
    | ok _ =>
      rw [insert_of_accept ht (Table.accept_eq_ok_iff.mpr ⟨hp, hc, hu⟩)]
      simp
    | error fault =>
      rw [insert, table_eq_ok_iff.mpr ht]
      simp [haccept, hc, hu]

theorem insert_duplicateKey_iff (ht : catalog.tables.find? name = some table)
    {record stored : Record} {id : RecordId}
    (hp : table.prepare name record = .ok (id, stored)) :
    (∃ key, catalog.insert name record = .error (.duplicateKey key)) ↔
      table.records.contains id = true := by
  constructor
  · rintro ⟨key, h⟩
    rcases (insert_eq_error_iff ht hp).mp h with ⟨hc, _⟩ | ⟨_, hu⟩
    · exact hc
    · obtain ⟨_, _, _, _, _, hfault⟩ := Table.checkUnique_error hu
      cases hfault
  · intro hc
    exact ⟨id, (insert_eq_error_iff ht hp).mpr (.inl ⟨hc, rfl⟩)⟩

/-- A staged update is refused for the new ids, else for values in unique columns, and for no other
reason. -/
theorem update_eq_error_iff (ht : catalog.tables.find? name = some table)
    (hl : table.records.Linked) {assignments : List Assignment} {filter : Option Predicate}
    {changes : List (String × Value)} {staged : List Staged}
    (hchanges : table.changes name assignments = .ok changes)
    (hstage : table.stage changes filter table.records.entries = .ok staged) {fault : Fault} :
    catalog.update name assignments filter = .error fault ↔
      table.checkKeys [] staged = .error fault ∨
      table.checkKeys [] staged = .ok () ∧ table.checkStagedUnique staged = .error fault := by
  rw [Catalog.update, table_eq_ok_iff.mpr ht]
  simp only [bind_eq_error, hchanges, hstage, reduceCtorEq, false_or,
    Except.ok.injEq, exists_eq_left']
  cases hempty : staged.isEmpty with
  | true =>
    obtain rfl := List.isEmpty_iff.mp hempty
    have hunique : table.checkStagedUnique [] = .ok () := forM_eq_ok.mpr fun _ _ => rfl
    simp [Table.checkKeys, hunique]
  | false =>
    simp only [Bool.false_eq_true, if_false, bind_eq_error]
    apply or_congr_right
    constructor
    · rintro ⟨_, hkeys, hunique | ⟨_, _, hplace | ⟨_, _, h⟩⟩⟩
      · exact ⟨hkeys, hunique⟩
      · obtain ⟨_, hplaced, _⟩ := ((Table.stage_eq_ok_iff.mp hstage).ready hl hkeys).place
        rw [hplaced] at hplace
        cases hplace
      · cases h
    · rintro ⟨hkeys, hunique⟩
      exact ⟨(), hkeys, .inl hunique⟩

theorem update_duplicateKey_iff (ht : catalog.tables.find? name = some table)
    (hl : table.records.Linked) {assignments : List Assignment} {filter : Option Predicate}
    {changes : List (String × Value)} {staged : List Staged}
    (hchanges : table.changes name assignments = .ok changes)
    (hstage : table.stage changes filter table.records.entries = .ok staged) :
    (∃ key, catalog.update name assignments filter = .error (.duplicateKey key)) ↔
      table.checkKeys [] staged ≠ .ok () := by
  constructor
  · rintro ⟨key, h⟩ hkeys
    rcases (update_eq_error_iff ht hl hchanges hstage).mp h with h | ⟨_, hunique⟩
    · rw [hkeys] at h
      cases h
    · obtain ⟨_, _, _, hfault, _⟩ := Table.checkStagedUnique_error hunique
      cases hfault
  · intro hkeys
    cases hk : table.checkKeys [] staged with
    | ok _ => exact (hkeys hk).elim
    | error fault =>
      obtain ⟨key, rfl⟩ := Table.checkKeys_error hk
      exact ⟨key, (update_eq_error_iff ht hl hchanges hstage).mpr (.inl hk)⟩

end Catalog

/-! ## New ids and amended records -/

/-- An update leaves every id as it is, or gives all matching records one and the same id. -/
theorem Stages.newIds_alike {table : Table} {changes : List (String × Value)}
    {filter : Option Predicate} {entries : List (RecordId × Record)} {staged : List Staged}
    (h : Stages table changes filter entries staged)
    (hadmits : ∀ entry ∈ entries, table.schema.Admits entry.1 entry.2) :
    (∀ s ∈ staged, s.newId = s.oldId) ∨ ∃ id, ∀ s ∈ staged, s.newId = id := by
  cases hpk : table.schema.primaryKey? with
  | none =>
    left
    intro s hs
    have hid := (h.of_mem hs).2.2
    simp only [Table.newId, hpk] at hid
    exact (Except.ok.inj hid).symm
  | some column =>
    have hshown : ∀ s ∈ staged, ∃ value,
        (changes.reverse.lookup column.name).or (s.old.find? column.name) = some value ∧
          value.shown = s.newId := by
      intro s hs
      obtain ⟨_, hnew, hid⟩ := h.of_mem hs
      simp only [Table.newId, hpk] at hid
      obtain ⟨value, hv, _, hshown⟩ := Record.key_eq_ok_iff.mp hid
      rw [hnew, KeyedMap.find?_insertAll] at hv
      exact ⟨value, hv, hshown⟩
    cases hassigned : changes.reverse.lookup column.name with
    | some value =>
      right
      refine ⟨value.shown, fun s hs => ?_⟩
      obtain ⟨value', hv, hshown⟩ := hshown s hs
      rw [hassigned, Option.some_or] at hv
      rw [← hshown, Option.some.inj hv]
    | none =>
      left
      intro s hs
      obtain ⟨value, hv, hshown⟩ := hshown s hs
      obtain ⟨column', value', hpk', hv', _, hid⟩ := (hadmits _ (h.of_mem hs).1).key
      obtain rfl := Option.some.inj (hpk.symm.trans hpk')
      rw [hassigned, Option.none_or, hv'] at hv
      rw [← hshown, ← Option.some.inj hv, hid]

/-- Where the new ids are distinct, an id that is new to its record is not the old id of any staged
one. -/
theorem Stages.newId_not_mem_oldIds {table : Table} {changes : List (String × Value)}
    {filter : Option Predicate} {entries : List (RecordId × Record)} {staged : List Staged}
    (h : Stages table changes filter entries staged)
    (hadmits : ∀ entry ∈ entries, table.schema.Admits entry.1 entry.2)
    (hdistinct : (staged.map Staged.newId).Nodup) {s : Staged} (hs : s ∈ staged)
    (hnew : s.newId ≠ s.oldId) : s.newId ∉ staged.map Staged.oldId := by
  intro hold
  obtain ⟨t, ht, hts⟩ := List.mem_map.mp hold
  have hsame : t.newId = s.newId := by
    rcases h.newIds_alike hadmits with hkeep | ⟨id, hall⟩
    · exact (hnew (hkeep s hs)).elim
    · rw [hall t ht, hall s hs]
  obtain rfl := List.inj_on_of_nodup_map hdistinct ht hs hsame
  exact hnew hts.symm

/-- The check of the new ids passes exactly when the amended records have distinct ids, none of which
was freed. -/
theorem Lived.checkKeys_eq_ok_iff {table : Table} {indexes : String → Option Index}
    {freed : List RecordId} {changes : List (String × Value)} {filter : Option Predicate}
    {staged : List Staged} (hlived : Lived table indexes freed)
    (h : Stages table changes filter table.records.entries staged) :
    table.checkKeys [] staged = .ok () ↔
      (entryKeys (table.records.entries.map (Staged.replacement staged))).Nodup ∧
      ∀ id ∈ freed, id ∉ entryKeys (table.records.entries.map (Staged.replacement staged)) := by
  have hd := hlived.linked.distinct
  constructor
  · intro hcheck
    have hready := h.ready hlived.linked hcheck
    obtain ⟨placed, _, hl, hentries, _⟩ := hready.place
    refine ⟨hentries ▸ hl.distinct, fun id hid hmem => ?_⟩
    obtain ⟨hrecorded, hgone⟩ := hlived.recorded id
    rcases (h.mem_keys_replacement hd).mp hmem with ⟨hk, _⟩ | hnew
    · exact hgone hid hk
    · obtain ⟨s, hs, rfl⟩ := List.mem_map.mp hnew
      rcases hready.free s hs with he | hf
      · exact hgone hid (h.oldId_mem (List.mem_map.mpr ⟨s, hs, he.symm⟩))
      · rw [hrecorded.mpr (.inr hid)] at hf
        cases hf
  · rintro ⟨hnodup, hfreed⟩
    obtain ⟨_, hnew, hapart⟩ :=
      List.nodup_append.mp ((h.perm_keys_replacement hd).nodup_iff.mp hnodup)
    refine Table.checkKeys_eq_ok_iff.mpr ⟨hnew, fun _ _ => List.not_mem_nil, fun s hs => ?_⟩
    by_cases he : s.newId = s.oldId
    · exact .inl he
    -- A recorded id that is new to its record belongs to a record beside the staged ones, or is
    -- freed.
    · right
      rw [Bool.eq_false_iff]
      intro hc
      rcases (hlived.recorded s.newId).1.mp hc with hk | hid
      · have hbeside := Stages.mem_keys_beside.mpr
          ⟨hk, h.newId_not_mem_oldIds hlived.admits hnew hs he⟩
        exact hapart s.newId hbeside s.newId (List.mem_map_of_mem hs) rfl
      · exact hfreed s.newId hid
          ((h.mem_keys_replacement hd).mpr (.inr (List.mem_map_of_mem hs)))

/-! ## After every history -/

def bareRecord (id : Int64) : Record := .ofList [("id", .integer id)]

def recycledHistory : List Operation :=
  [.createTable "t" (.ofColumns [⟨"id", .int, true, false, false, none⟩]),
    .insert "t" (bareRecord 1), .insert "t" (bareRecord 2),
    .delete "t" (some (.compare ⟨"id", .eq, "1"⟩))]

/-- The table that is left: one record, and the position of another. -/
def recycledTable : Table :=
  ⟨.ofColumns [⟨"id", .int, true, false, false, none⟩],
    ⟨[("2", bareRecord 2)], [("2", 0), ("1", 0)]⟩⟩

section
variable {σ : Type} [Store σ]

/-- After every history, a record that passes the earlier checks is refused for its id exactly when
the id is stored or was freed, and an update that can amend every matching record is refused for its
ids exactly when the amended records would share an id or have a freed one. -/
theorem duplicate_key_iff_stored_or_freed (history : List Operation) (store : σ) {name : String}
    {table : Table}
    (h : (Database.replay history store).catalog.tables.find? name = some table) :
    (∀ record id stored, table.prepare name record = .ok (id, stored) →
      ((∃ key, (Database.replay history store).catalog.insert name record =
          .error (.duplicateKey key)) ↔
        id ∈ table.records.keys ∨ id ∈ freedIds history name)) ∧
    ∀ assignments filter changes after, table.changes name assignments = .ok changes →
      table.records.entries.mapM (table.amend changes filter) = .ok after →
      ((∃ key, (Database.replay history store).catalog.update name assignments filter =
          .error (.duplicateKey key)) ↔
        ¬(entryKeys after).Nodup ∨ ∃ id ∈ freedIds history name, id ∈ entryKeys after) := by
  have hlived := lived_of_replay h
  refine ⟨fun record id stored hp => ?_, fun assignments filter changes after hchanges hamend => ?_⟩
  · rw [Catalog.insert_duplicateKey_iff h hp]
    exact (hlived.recorded id).1
  · obtain ⟨staged, hstages, rfl⟩ := Stages.of_amend hlived.linked.distinct hamend
    rw [Catalog.update_duplicateKey_iff h hlived.linked hchanges
      (Table.stage_eq_ok_iff.mpr hstages), Ne, hlived.checkKeys_eq_ok_iff hstages,
      not_and_or]
    simp only [not_forall, not_not, exists_prop]

/-- Both the insertion of a record under the freed id and the update that gives the other record
this id are refused. -/
theorem duplicate_key_iff_recycled :
    (∃ key, (Database.replay recycledHistory ()).catalog.insert "t" (bareRecord 1) =
        .error (.duplicateKey key)) ∧
      ∃ key, (Database.replay recycledHistory ()).catalog.update "t" [⟨"id", .integer 1⟩] none =
        .error (.duplicateKey key) := by
  have htable : (Database.replay recycledHistory ()).catalog.tables.find? "t" =
      some recycledTable := by decide +kernel
  have hfreed : "1" ∈ freedIds recycledHistory "t" := by decide +kernel
  obtain ⟨hinsert, hupdate⟩ := duplicate_key_iff_stored_or_freed recycledHistory () htable
  constructor
  · exact (hinsert (bareRecord 1) "1" (bareRecord 1) (by decide +kernel)).mpr (.inr hfreed)
  · have hamend : recycledTable.records.entries.mapM
        (recycledTable.amend [("id", .integer 1)] none) = .ok [("1", bareRecord 1)] := by
      decide +kernel
    exact (hupdate [⟨"id", .integer 1⟩] none [("id", .integer 1)] _ (by decide +kernel)
      hamend).mpr (.inr ⟨"1", hfreed, by decide⟩)

/-- No stored record has the id, and the record is refused for it. -/
theorem freed_key_refused :
    (Database.replay recycledHistory ()).catalog.tables.find? "t" = some recycledTable ∧
      recycledTable.prepare "t" (bareRecord 1) = .ok ("1", bareRecord 1) ∧
      "1" ∉ recycledTable.records.keys ∧
      (Database.replay recycledHistory ()).catalog.insert "t" (bareRecord 1) =
        .error (.duplicateKey "1") := by
  refine ⟨by decide +kernel, by decide +kernel, by decide, rfl⟩

end

end Rowfile

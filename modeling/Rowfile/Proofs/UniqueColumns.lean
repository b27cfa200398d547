import Rowfile.Proofs.Lifetimes

/-!
# Where uniqueness is enforced

Uniqueness is checked in the columns that are declared unique and not declared a primary key, and
the ids of records are distinct, so the column that serves as the key shows no text twice either. A
unique column that is declared a primary key but comes after the first such column falls between the
two. In it two records can show the same, unless the key itself is a truth value, which only one
record of the table can then have.
-/
namespace Rowfile

/-- The column is checked, it is the key, or the key leaves room for one record only. -/
def Schema.Enforces (schema : Schema) (column : Column) : Prop :=
  column.primaryKey = true → ∃ first, schema.primaryKey? = some first ∧
    (first = column ∨ first.type = .boolean)

/-! ## Columns that show no text twice -/

namespace Lived

variable {table : Table} {indexes : String → Option Index} {freed : List RecordId}

/-- The key of a table shows the ids of the records. -/
theorem shownIn_key (h : Lived table indexes freed) {column : Column}
    (hpk : table.schema.primaryKey? = some column) :
    Record.shownIn column.name table.records.values = table.records.keys := by
  have hkey : ∀ entry ∈ table.records.entries,
      (entry.2.find? column.name).map Value.shown = some entry.1 := by
    intro entry he
    obtain ⟨column', value, hpk', hv, _, hid⟩ := (h.admits entry he).key
    obtain rfl := Option.some.inj (hpk.symm.trans hpk')
    rw [hv, Option.map_some, hid]
  rw [Record.shownIn, PositionedMap.values, List.filterMap_map, PositionedMap.keys, entryKeys,
    ← List.filterMap_eq_map]
  exact List.filterMap_congr hkey

/-- Under a key of truth values there is one record at most. -/
theorem size_le_one (h : Lived table indexes freed) {column : Column}
    (hpk : table.schema.primaryKey? = some column) (hb : column.type = .boolean) :
    table.records.keys.length ≤ 1 := by
  have hall : ∀ id ∈ table.records.keys, id = (Value.boolean true).shown := by
    intro id hid
    obtain ⟨entry, he, rfl⟩ := List.mem_map.mp hid
    have hadmits := h.admits entry he
    obtain ⟨column', value, hpk', hv, hf, hshown⟩ := hadmits.key
    obtain rfl := Option.some.inj (hpk.symm.trans hpk')
    have hof := hadmits.typed _ _ _ hv (Schema.mem_list_iff.mp (Schema.primaryKey?_mem hpk))
    rw [hb] at hof
    cases value with
    | boolean b =>
      cases b with
      | true => exact hshown.symm
      | false => cases hf
    | _ => cases hof
  have hd : table.records.keys.Nodup := h.linked.distinct
  rw [List.eq_replicate_of_mem hall] at hd
  exact List.nodup_replicate.mp hd

theorem shown_once_of_enforces (h : Lived table indexes freed) {column : Column}
    (hc : column ∈ table.schema.list) (hu : column.unique = true)
    (he : table.schema.Enforces column) :
    (Record.shownIn column.name table.records.values).Nodup := by
  cases hp : column.primaryKey with
  | false => exact h.shown_once (List.mem_filter.mpr ⟨hc, by rw [hu, hp]; rfl⟩)
  | true =>
    obtain ⟨first, hpk, rfl | hb⟩ := he hp
    · rw [h.shownIn_key hpk]
      exact h.linked.distinct
    · have hlength : (Record.shownIn column.name table.records.values).length ≤ 1 := by
        have hkeys := h.size_le_one hpk hb
        have hfilter := List.length_filterMap_le
          (fun record : Record => (record.find? column.name).map Value.shown) table.records.values
        simp only [PositionedMap.keys, entryKeys, List.length_map] at hkeys
        simp only [PositionedMap.values, List.length_map] at hfilter
        unfold Record.shownIn PositionedMap.values
        omega
      cases hshown : Record.shownIn column.name table.records.values with
      | nil => exact List.nodup_nil
      | cons first rest =>
        rw [hshown, List.length_cons] at hlength
        have hrest : rest = [] := List.length_eq_zero_iff.mp (by omega)
        rw [hrest]
        exact List.nodup_singleton first

end Lived

/-! ## Two records that show the same -/

namespace Value

/-- One of two values that a column of a type keeps as they are. -/
def sample (type : ColumnType) (second : Bool) : Value :=
  match type with
  | .int => .integer (if second then 2 else 1)
  | .float => .float (.ofInt (if second then 2 else 1))
  | .boolean => .boolean second
  | .text | .date => .text (if second then "b" else "a")

theorem shown_sample_ne (type : ColumnType) :
    (sample type true).shown ≠ (sample type false).shown := by
  cases type <;> decide +kernel

theorem isOf_sample (type : ColumnType) (second : Bool) :
    (sample type second).isOf type = true := by
  cases type <;> cases second <;> decide +kernel

theorem isFalsy_sample {type : ColumnType} (h : type ≠ .boolean) (second : Bool) :
    (sample type second).isFalsy = false := by
  cases type with
  | boolean => exact (h rfl).elim
  | _ => cases second <;> decide +kernel

end Value

namespace Schema

/-- One of two records with a value in every column. They differ in every column but one. -/
def sampleRecord (schema : Schema) (shared : String) (second : Bool) : Record :=
  schema.columns.mapWithKey fun name column =>
    Value.sample column.type (second && name != shared)

variable {schema : Schema} {shared : String} {second : Bool}

theorem find?_sampleRecord {column : Column} (hc : column ∈ schema.list) :
    (schema.sampleRecord shared second).find? column.name =
      some (Value.sample column.type (second && column.name != shared)) := by
  have hfound : schema.columns.find? column.name = some column := mem_list_iff.mp hc
  rw [sampleRecord, KeyedMap.find?_mapWithKey, hfound, Option.map_some]

/-- A schema with a key that is no truth value admits its sample records. -/
theorem admits_sampleRecord {column : Column} (hpk : schema.primaryKey? = some column)
    (hb : column.type ≠ .boolean) :
    schema.Admits (Value.sample column.type (second && column.name != shared)).shown
      (schema.sampleRecord shared second) := by
  constructor
  · exact ⟨column, _, hpk, find?_sampleRecord (primaryKey?_mem hpk), Value.isFalsy_sample hb _, rfl⟩
  · intro name hn
    rw [sampleRecord, KeyedMap.keys_mapWithKey] at hn
    exact KeyedMap.find?_isSome.mpr hn
  · intro column hc _
    rw [sampleRecord, KeyedMap.keys_mapWithKey]
    exact KeyedMap.find?_isSome.mp (Option.isSome_iff_exists.mpr ⟨column, mem_list_iff.mp hc⟩)
  · intro name value column hv hc
    have hfound : schema.columns.find? name = some column := hc
    rw [sampleRecord, KeyedMap.find?_mapWithKey, hfound, Option.map_some] at hv
    obtain rfl := Option.some.inj hv
    exact Value.isOf_sample _ _

end Schema

/-- A table takes a sample record whose id is free and whose values are new to unique columns. -/
theorem Table.accept_sampleRecord {table : Table} {column : Column} (name shared : String)
    (second : Bool) (hpk : table.schema.primaryKey? = some column) (hb : column.type ≠ .boolean)
    (hfree : table.records.contains
      (Value.sample column.type (second && column.name != shared)).shown = false)
    (hunique : ∀ other ∈ table.schema.uniqueColumns,
      (Value.sample other.type (second && other.name != shared)).shown ∉
        Record.shownIn other.name table.records.values) :
    table.accept name (table.schema.sampleRecord shared second) =
      .ok ((Value.sample column.type (second && column.name != shared)).shown,
        table.schema.sampleRecord shared second) := by
  refine accept_of_admits (Schema.admits_sampleRecord hpk hb) hfree ?_ name
  intro other ho value hv
  rw [Schema.find?_sampleRecord (List.mem_of_mem_filter ho)] at hv
  obtain rfl := Option.some.inj hv
  exact hunique other ho

theorem Operation.find?_apply_insert {catalog : Catalog} {name : String} {table : Table}
    (ht : catalog.tables.find? name = some table) {record stored : Record} {id : RecordId}
    (ha : table.accept name record = .ok (id, stored)) :
    ((Operation.insert name record).apply catalog).tables.find? name =
      some { table with records := table.records.extend id stored } := by
  rw [apply, Catalog.insert_of_accept ht ha, Catalog.after]
  exact Catalog.find?_setTable ..

def collidingHistory (schema : Schema) (shared : String) : List Operation :=
  [.createTable "t" schema, .insert "t" (schema.sampleRecord shared false),
    .insert "t" (schema.sampleRecord shared true)]

theorem Schema.eq_of_name_eq {schema : Schema} {a b : Column} (ha : a ∈ schema.list)
    (hb : b ∈ schema.list) (h : a.name = b.name) : a = b := by
  have hfound := mem_list_iff.mp ha
  rw [h, mem_list_iff.mp hb] at hfound
  exact (Option.some.inj hfound).symm

/-- A column that is declared a primary key and is not the key shows one text in both records. -/
theorem replay_collidingHistory {schema : Schema} {column first : Column}
    (hc : column ∈ schema.list) (hp : column.primaryKey = true)
    (hpk : schema.primaryKey? = some first) (hne : first ≠ column) (hb : first.type ≠ .boolean) :
    ∃ table, (Database.replay (collidingHistory schema column.name) ()).catalog.tables.find? "t" =
        some table ∧ table.schema = schema ∧
      ¬(Record.shownIn column.name table.records.values).Nodup := by
  have hcreated : ((Operation.createTable "t" schema).apply .empty).tables.find? "t" =
      some (.ofSchema schema) := by
    simp [Operation.apply, Catalog.createTable, Catalog.after, Catalog.empty, Catalog.setTable,
      KeyedMap.contains_eq_isSome]
  have hone := Operation.find?_apply_insert hcreated
    (Table.accept_sampleRecord "t" column.name false hpk hb rfl fun _ _ => List.not_mem_nil)
  have htwo := Operation.find?_apply_insert hone
    (Table.accept_sampleRecord "t" column.name true hpk hb ?_ ?_)
  · rw [Database.catalog_replay]
    refine ⟨_, htwo, rfl, ?_⟩
    simp [Record.shownIn, PositionedMap.values, PositionedMap.extend, Table.ofSchema,
      PositionedMap.empty, Schema.find?_sampleRecord hc]
  -- The two ids differ, because the key is not the column in which the records agree.
  · have hname : (first.name != column.name) = true := bne_iff_ne.mpr fun he =>
      hne (Schema.eq_of_name_eq (Schema.primaryKey?_mem hpk) hc he)
    rw [Bool.eq_false_iff, Ne, PositionedMap.contains_extend, hname]
    rintro (he | he)
    · exact Value.shown_sample_ne _ he
    · cases he
  -- Nor is it any of the columns whose uniqueness is checked.
  · intro other ho
    obtain ⟨hmem, hflags⟩ : other ∈ schema.list ∧ _ := List.mem_filter.mp ho
    have hname : (other.name != column.name) = true := bne_iff_ne.mpr fun he => by
      rw [Schema.eq_of_name_eq hmem hc he, hp] at hflags
      simp at hflags
    have hshown : Record.shownIn other.name [schema.sampleRecord column.name false] =
        [(Value.sample other.type false).shown] :=
      Record.shownIn_cons (Schema.find?_sampleRecord hmem) []
    change _ ∉ Record.shownIn other.name [schema.sampleRecord column.name false]
    rw [hshown, hname, List.mem_singleton]
    exact Value.shown_sample_ne _

/-- A column that is declared unique shows no text twice after any history exactly when it is not
declared a primary key, or it is the key, or the key is a truth value. -/
theorem unique_column_enforced_iff (schema : Schema) (column : Column)
    (hc : column ∈ schema.list) (hu : column.unique = true) :
    (∀ (σ : Type) [Store σ] (history : List Operation) (store : σ) (name : String)
        (table : Table),
      (Database.replay history store).catalog.tables.find? name = some table →
      table.schema = schema → (Record.shownIn column.name table.records.values).Nodup) ↔
      schema.Enforces column := by
  constructor
  · intro hall hp
    obtain ⟨first, hpk⟩ : ∃ first, schema.primaryKey? = some first :=
      Option.isSome_iff_exists.mp (List.find?_isSome.mpr ⟨column, hc, hp⟩)
    refine ⟨first, hpk, ?_⟩
    by_contra hno
    obtain ⟨hne, hb⟩ := not_or.mp hno
    obtain ⟨table, ht, hschema, htwice⟩ := replay_collidingHistory hc hp hpk hne hb
    exact htwice (hall Unit _ () "t" table ht hschema)
  · rintro he σ _ history store name table ht rfl
    exact (lived_of_replay ht).shown_once_of_enforces hc hu he

/-- A column that is declared both a primary key and unique. -/
def codeColumn : Column := ⟨"code", .text, true, false, true, none⟩

def doubledSchema : Schema := .ofColumns [⟨"id", .int, true, false, false, none⟩, codeColumn]

/-- In this schema the column is not enforced. -/
theorem unique_column_enforced_iff_doubled :
    ¬∀ (σ : Type) [Store σ] (history : List Operation) (store : σ) (name : String)
        (table : Table),
      (Database.replay history store).catalog.tables.find? name = some table →
      table.schema = doubledSchema →
        (Record.shownIn codeColumn.name table.records.values).Nodup := by
  intro hall
  have hid : doubledSchema.primaryKey? = some ⟨"id", .int, true, false, false, none⟩ := by
    decide +kernel
  obtain ⟨first, hpk, hfirst⟩ :=
    (unique_column_enforced_iff doubledSchema codeColumn (by decide +kernel) rfl).mp hall rfl
  obtain rfl := Option.some.inj (hid.symm.trans hpk)
  rcases hfirst with he | hb
  · exact absurd he (by decide)
  · exact absurd hb (by decide)

/-- Two records under different ids show one text in the column. -/
theorem unique_text_stored_twice :
    ∃ table, (Database.replay [.createTable "t" doubledSchema,
        .insert "t" (.ofList [("id", .integer 1), ("code", .text "x")]),
        .insert "t" (.ofList [("id", .integer 2), ("code", .text "x")])] ()).catalog.tables.find?
          "t" = some table ∧
      table.schema = doubledSchema ∧ doubledSchema.column? "code" = some codeColumn ∧
      codeColumn.unique = true ∧ table.records.keys = ["1", "2"] ∧
      Record.shownIn "code" table.records.values = ["x", "x"] := by
  refine ⟨⟨doubledSchema, ⟨[("1", .ofList [("id", .integer 1), ("code", .text "x")]),
    ("2", .ofList [("id", .integer 2), ("code", .text "x")])], [("2", 1), ("1", 0)]⟩⟩, ?_⟩
  decide +kernel

end Rowfile

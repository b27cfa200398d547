import Rowfile.Proofs.Peeling
import Mathlib.Data.List.Forall2

/-!
# What a schema admits

A schema admits a record under an id when the id is the shown primary key, which is not falsy, when
every field has a column, when no required column and no column with a default is absent, and when
every value is of the kind that its column keeps. A prepared record is admitted. Changes that were
checked and converted keep a record admitted under the id that it then has, although an update never
checks the record as a whole.
-/
namespace Rowfile

/-- The value is of the kind that a column of the given type keeps. Texts and dates keep any. -/
def Value.isOf : Value → ColumnType → Bool
  | .integer _, .int => true
  | .float x, .float => x.isFinite
  | .boolean _, .boolean => true
  | _, .text | _, .date => true
  | _, _ => false

theorem Value.isOf_conform {v : Value} {t : ColumnType} (h : v.fits t = true) :
    (v.conform t).isOf t = true := by
  cases t with
  | int =>
    obtain ⟨n, hn⟩ := Option.isSome_iff_exists.mp (show v.asInteger?.isSome = true from h)
    simp [conform, hn, isOf]
  | float =>
    obtain ⟨x, hx, hfinite⟩ := (Option.any_eq_true ..).mp
      (show v.asNumber?.any Binary64.isFinite = true from h)
    simp [conform, hx, isOf, hfinite]
  | boolean =>
    obtain ⟨b, hb⟩ := Option.isSome_iff_exists.mp (show v.asBoolean?.isSome = true from h)
    simp [conform, hb, isOf]
  | text => cases v <;> rfl
  | date => cases v <;> rfl

/-- A column takes the values of the kind that it keeps. -/
theorem Value.fits_of_isOf {v : Value} {t : ColumnType} (h : v.isOf t = true) :
    v.fits t = true := by
  cases t with
  | int =>
    cases v with
    | integer n => rfl
    | _ => cases h
  | float =>
    cases v with
    | float x => exact h
    | _ => cases h
  | boolean =>
    cases v with
    | boolean b => cases b <;> decide
    | _ => cases h
  | text => rfl
  | date => rfl

/-- It keeps such a value as it is. -/
theorem Value.conform_of_isOf {v : Value} {t : ColumnType} (h : v.isOf t = true) :
    v.conform t = v := by
  cases t with
  | int =>
    cases v with
    | integer n => rfl
    | _ => cases h
  | float =>
    cases v with
    | float x => rfl
    | _ => cases h
  | boolean =>
    cases v with
    | boolean b => cases b <;> decide
    | _ => cases h
  | text => rfl
  | date => rfl

namespace Schema

structure Admits (schema : Schema) (id : RecordId) (record : Record) : Prop where
  key : ∃ column value, schema.primaryKey? = some column ∧
    record.find? column.name = some value ∧ value.isFalsy = false ∧ value.shown = id
  known : ∀ name ∈ record.keys, (schema.column? name).isSome = true
  present : ∀ column ∈ schema.list,
    column.notNull = true ∨ column.default?.isSome = true → column.name ∈ record.keys
  typed : ∀ name value column, record.find? name = some value →
    schema.column? name = some column → value.isOf column.type = true

theorem name_of_column? {schema : Schema} {name : String} {column : Column}
    (h : schema.column? name = some column) : column.name = name :=
  schema.named _ (KeyedMap.find?_eq_some_iff.mp h)

theorem mem_list_iff {schema : Schema} {column : Column} :
    column ∈ schema.list ↔ schema.column? column.name = some column := by
  rw [column?, KeyedMap.find?_eq_some_iff, list, KeyedMap.values, List.mem_map]
  constructor
  · rintro ⟨entry, he, rfl⟩
    rw [schema.named entry he]
    exact he
  · intro h
    exact ⟨_, h, rfl⟩

theorem primaryKey?_mem {schema : Schema} {column : Column}
    (h : schema.primaryKey? = some column) : column ∈ schema.list :=
  List.mem_of_find?_eq_some h

/-! ## Filling and converting -/

theorem find?_fillColumn (column : Column) (record : Record) (name : String) :
    (column.fill record).find? name =
      (record.find? name).or (if column.name = name then column.default? else none) := by
  unfold Column.fill
  cases hc : record.contains column.name with
  | true =>
    obtain ⟨value, hv⟩ := Option.isSome_iff_exists.mp (KeyedMap.contains_iff.mp hc)
    by_cases hn : column.name = name
    · simp [← hn, hv]
    · simp [hn]
  | false =>
    have hnone := KeyedMap.contains_eq_false_iff.mp hc
    by_cases hn : column.name = name
    · cases hd : column.default? <;> simp [← hn, hnone]
    · cases hd : column.default? <;> simp [hn, Ne.symm hn]

theorem find?_foldl_fill (columns : List Column) (record : Record) (name : String) :
    (columns.foldl (fun record column => column.fill record) record).find? name =
      (record.find? name).or
        (columns.findSome? fun column => if column.name = name then column.default? else none) := by
  induction columns generalizing record with
  | nil => simp
  | cons column columns ih =>
    rw [List.foldl_cons, ih, find?_fillColumn, List.findSome?_cons, Option.or_assoc]
    cases (if column.name = name then column.default? else none) <;> simp

/-- A filled record has its own fields, and the default of each absent column that has one. -/
theorem find?_fill (schema : Schema) (record : Record) (name : String) :
    (schema.fill record).find? name =
      (record.find? name).or ((schema.column? name).bind Column.default?) := by
  rw [fill, find?_foldl_fill]
  congr 1
  rw [list, KeyedMap.values, column?, KeyedMap.find?]
  have named := schema.named
  have distinct := schema.columns.distinct
  -- Names are distinct, so at most one column has a default for the name.
  generalize schema.columns.entries = entries at named distinct
  induction entries with
  | nil => rfl
  | cons entry rest ih =>
    have hd := List.nodup_cons.mp distinct
    have hrest := ih (fun e he => named e (List.mem_cons_of_mem _ he)) hd.2
    rw [List.map_cons, List.findSome?_cons, KeyedMap.valueUnder?,
      named entry List.mem_cons_self]
    by_cases h : entry.1 = name
    · have hno : KeyedMap.valueUnder? name rest = none := by
        rw [← Option.not_isSome_iff_eq_none, KeyedMap.valueUnder?_isSome, ← h]
        exact hd.1
      rw [hno] at hrest
      simp only [h, if_true, Option.bind_some]
      cases entry.2.default? <;> simp [hrest]
    · simp only [h, if_false]
      exact hrest

/-- A value as the column under a name keeps it. Without such a column it stays as it is. -/
def converted (schema : Schema) (name : String) (value : Value) : Value :=
  match schema.column? name with
  | some column => value.conform column.type
  | none => value

theorem converted_of_column? {schema : Schema} {name : String} {column : Column}
    (h : schema.column? name = some column) (value : Value) :
    schema.converted name value = value.conform column.type := by
  rw [converted, h]

@[simp]
theorem find?_conform (schema : Schema) (record : Record) (name : String) :
    (schema.conform record).find? name = (record.find? name).map (schema.converted name) :=
  KeyedMap.find?_mapWithKey _ record name

@[simp]
theorem keys_conform (schema : Schema) (record : Record) :
    (schema.conform record).keys = record.keys :=
  KeyedMap.keys_mapWithKey _ record

variable {schema : Schema} {record : Record}

/-- A record in which no column with a default is absent is filled already. -/
theorem fill_eq_self (h : ∀ column ∈ schema.list, column.default?.isSome = true →
    record.contains column.name = true) : schema.fill record = record := by
  unfold fill
  generalize schema.list = columns at h ⊢
  induction columns with
  | nil => rfl
  | cons column columns ih =>
    have hfirst : column.fill record = record := by
      unfold Column.fill
      cases hd : column.default? with
      | none => exact ite_self record
      | some value => rw [h column List.mem_cons_self (by rw [hd]; rfl), if_pos rfl]
    rw [List.foldl_cons, hfirst]
    exact ih fun c hc => h c (List.mem_cons_of_mem _ hc)

/-- A record whose values are of the kinds that the columns keep is converted already. -/
theorem conform_eq_self (h : ∀ name value column, record.find? name = some value →
    schema.column? name = some column → value.isOf column.type = true) :
    schema.conform record = record := by
  apply KeyedMap.ext
  refine (List.map_congr_left fun entry he => ?_).trans (List.map_id record.entries)
  cases hc : schema.column? entry.1 with
  | none => simp only [hc, id]
  | some column =>
    have hof := h entry.1 entry.2 column (KeyedMap.find?_eq_some_iff.mpr he) hc
    simp only [hc, id, Value.conform_of_isOf hof]

/-! ## Prepared and changed records -/

end Schema

theorem Table.admits_of_prepare {table : Table} {name : String} {record stored : Record}
    {id : RecordId} (h : table.prepare name record = .ok (id, stored)) :
    table.schema.Admits id stored := by
  obtain ⟨hcheck, rfl, column, hpk, hkey⟩ := prepare_eq_ok_iff.mp h
  obtain ⟨value, hv, hf, hid⟩ := Record.key_eq_ok_iff.mp hkey
  obtain ⟨hrequired, hfits⟩ := Schema.check_eq_ok_iff.mp hcheck
  have field : ∀ name value, (table.schema.fill record).find? name = some value →
      ∃ column, table.schema.column? name = some column ∧ value.fits column.type = true :=
    fun name value hv => hfits (name, value) (KeyedMap.find?_eq_some_iff.mp hv)
  refine ⟨⟨column, value, hpk, hv, hf, hid⟩, ?_, ?_, ?_⟩
  · intro name hn
    rw [Schema.keys_conform, ← KeyedMap.find?_isSome] at hn
    obtain ⟨value, hv⟩ := Option.isSome_iff_exists.mp hn
    obtain ⟨column, hc, _⟩ := field name value hv
    simp [hc]
  · intro column hc hneed
    rw [Schema.keys_conform, ← KeyedMap.find?_isSome]
    rcases hneed with hn | hd
    · exact KeyedMap.contains_iff.mp (hrequired column hc hn)
    · rw [Schema.find?_fill, Schema.mem_list_iff.mp hc, Option.isSome_or, Option.bind_some, hd,
        Bool.or_true]
  · intro name value column hv hc
    rw [Schema.find?_conform, Option.map_eq_some_iff] at hv
    obtain ⟨raw, hraw, rfl⟩ := hv
    obtain ⟨column', hc', hfit⟩ := field name raw hraw
    obtain rfl := Option.some.inj (hc.symm.trans hc')
    rw [Schema.converted_of_column? hc]
    exact Value.isOf_conform hfit

/-- A record that is admitted already is prepared as it is, under the id that it has. -/
theorem Table.prepare_of_admits {table : Table} {id : RecordId} {record : Record}
    (h : table.schema.Admits id record) (name : String) :
    table.prepare name record = .ok (id, record) := by
  have present : ∀ column ∈ table.schema.list,
      column.notNull = true ∨ column.default?.isSome = true →
      record.contains column.name = true := fun column hc hneed =>
    KeyedMap.contains_iff.mpr (KeyedMap.find?_isSome.mpr (h.present column hc hneed))
  have hfill : table.schema.fill record = record :=
    Schema.fill_eq_self fun column hc hd => present column hc (.inr hd)
  have hcheck : table.schema.check name record = .ok () := by
    refine Schema.check_eq_ok_iff.mpr ⟨fun column hc hn => present column hc (.inl hn), ?_⟩
    intro field hf
    have hv : record.find? field.1 = some field.2 := KeyedMap.find?_eq_some_iff.mpr hf
    obtain ⟨column, hc⟩ := Option.isSome_iff_exists.mp
      (h.known field.1 (KeyedMap.find?_isSome.mp (by rw [hv]; rfl)))
    exact ⟨column, hc, Value.fits_of_isOf (h.typed _ _ _ hv hc)⟩
  obtain ⟨column, value, hpk, hv, hf, hid⟩ := h.key
  rw [prepare_eq_ok_iff, hfill]
  exact ⟨hcheck, (Schema.conform_eq_self h.typed).symm, column, hpk,
    Record.key_eq_ok_iff.mpr ⟨value, hv, hf, hid⟩⟩

/-- A table takes an admitted record as it is if the id is free and no unique column shows twice. -/
theorem Table.accept_of_admits {table : Table} {id : RecordId} {record : Record}
    (h : table.schema.Admits id record) (hfree : table.records.contains id = false)
    (hnew : ∀ column ∈ table.schema.uniqueColumns, ∀ value,
      record.find? column.name = some value →
      value.shown ∉ Record.shownIn column.name table.records.values) (name : String) :
    table.accept name record = .ok (id, record) :=
  accept_eq_ok_iff.mpr ⟨prepare_of_admits h name, hfree, checkUnique_eq_ok_iff.mpr hnew⟩

/-- Each change is an assignment to a column, with its value converted to what the column keeps. -/
theorem Table.changes_eq_ok_iff {table : Table} {name : String} {assignments : List Assignment}
    {changes : List (String × Value)} :
    table.changes name assignments = .ok changes ↔
      List.Forall₂ (fun assignment change => ∃ column,
        table.schema.column? assignment.column = some column ∧
        assignment.value.fits column.type = true ∧
        change = (assignment.column, assignment.value.conform column.type))
        assignments changes := by
  induction assignments generalizing changes with
  | nil =>
    rw [List.forall₂_nil_left_iff]
    exact ⟨fun h => (Except.ok.inj h).symm, fun h => h ▸ rfl⟩
  | cons assignment rest ih =>
    rw [List.forall₂_cons_left_iff]
    unfold Table.changes
    cases hc : table.schema.column? assignment.column with
    | none =>
      simp only [reduceCtorEq, false_iff]
      rintro ⟨_, _, ⟨column, hcolumn, _⟩, _⟩
      cases hcolumn
    | some column =>
      have hname := Schema.name_of_column? hc
      simp only [bind_eq_ok, ih, Option.some.injEq, exists_eq_left', hname]
      constructor
      · rintro ⟨_, hfit, tail, htail, hr⟩
        exact ⟨_, tail, ⟨Column.check_eq_ok_iff.mp hfit, rfl⟩, htail, (Except.ok.inj hr).symm⟩
      · rintro ⟨_, tail, ⟨hfit, rfl⟩, htail, rfl⟩
        exact ⟨(), Column.check_eq_ok_iff.mpr hfit, tail, htail, rfl⟩

/-- Every change names a column and holds a value of the kind that the column keeps. -/
def Schema.Keeps (schema : Schema) (changes : List (String × Value)) : Prop :=
  ∀ change ∈ changes, ∃ column,
    schema.column? change.1 = some column ∧ change.2.isOf column.type = true

theorem Table.keeps_of_changes {table : Table} {name : String} {assignments : List Assignment}
    {changes : List (String × Value)} (h : table.changes name assignments = .ok changes) :
    table.schema.Keeps changes := by
  have hf := changes_eq_ok_iff.mp h
  clear h
  induction hf with
  | nil => exact fun change hc => (List.not_mem_nil hc).elim
  | cons hstep _ ih =>
    intro change hc
    rcases List.mem_cons.mp hc with rfl | hc
    · obtain ⟨column, hcolumn, hfit, rfl⟩ := hstep
      exact ⟨column, hcolumn, Value.isOf_conform hfit⟩
    · exact ih change hc

theorem Schema.Admits.insertAll {schema : Schema} {id newId : RecordId} {record : Record}
    {changes : List (String × Value)} (h : schema.Admits id record) (hc : schema.Keeps changes)
    {column : Column} (hpk : schema.primaryKey? = some column)
    (hkey : Record.key (record.insertAll changes) column.name = .ok newId) :
    schema.Admits newId (record.insertAll changes) := by
  obtain ⟨value, hv, hf, hid⟩ := Record.key_eq_ok_iff.mp hkey
  refine ⟨⟨column, value, hpk, hv, hf, hid⟩, ?_, ?_, ?_⟩
  · intro name hn
    rw [← KeyedMap.find?_isSome] at hn
    obtain ⟨value, hv⟩ := Option.isSome_iff_exists.mp hn
    rcases KeyedMap.mem_of_find?_insertAll hv with hm | hm
    · obtain ⟨column, hcolumn, _⟩ := hc _ hm
      simp [hcolumn]
    · exact h.known name (KeyedMap.find?_isSome.mp (by simp [hm]))
  · intro column hcolumn hneed
    rw [← KeyedMap.find?_isSome]
    exact KeyedMap.isSome_find?_insertAll changes
      (KeyedMap.find?_isSome.mpr (h.present column hcolumn hneed))
  · intro name value column hv hcolumn
    rcases KeyedMap.mem_of_find?_insertAll hv with hm | hm
    · obtain ⟨column', hcolumn', hof⟩ := hc _ hm
      obtain rfl := Option.some.inj (hcolumn.symm.trans hcolumn')
      exact hof
    · exact h.typed name value column hm hcolumn

end Rowfile

import Rowfile.Catalog.Insert
import Rowfile.Catalog.Update
import Mathlib.Data.List.Forall2

/-!
# Taking computations apart

A computation in steps gives a result when each of its steps does, and fails with the fault of the
first step that does not. With these laws the operations on tables are opened once, and each check
is turned into what it says of the records that it looks at.
-/
namespace Rowfile

section
variable {ε α β : Type}

@[simp] theorem ok_bind (a : α) (f : α → Except ε β) : (Except.ok a >>= f) = f a := rfl

@[simp] theorem error_bind (e : ε) (f : α → Except ε β) :
    (Except.error e >>= f) = .error e := rfl

@[simp] theorem throw_eq_error (e : ε) : (throw e : Except ε α) = .error e := rfl

@[simp] theorem pure_eq_ok (a : α) : (pure a : Except ε α) = .ok a := rfl

theorem bind_eq_ok {x : Except ε α} {f : α → Except ε β} {b : β} :
    (x >>= f) = .ok b ↔ ∃ a, x = .ok a ∧ f a = .ok b := by
  cases x <;> simp

theorem bind_eq_error {x : Except ε α} {f : α → Except ε β} {e : ε} :
    (x >>= f) = .error e ↔ x = .error e ∨ ∃ a, x = .ok a ∧ f a = .error e := by
  cases x <;> simp

theorem forM_eq_ok {f : α → Except ε Unit} {l : List α} :
    l.forM f = .ok () ↔ ∀ a ∈ l, f a = .ok () := by
  induction l with
  | nil => simp
  | cons a l ih =>
    rw [List.forM_eq_forM, List.forM_cons, bind_eq_ok, List.forall_mem_cons]
    rw [List.forM_eq_forM] at ih
    exact ⟨fun ⟨_, h, hl⟩ => ⟨h, ih.mp hl⟩, fun ⟨h, hl⟩ => ⟨(), h, ih.mpr hl⟩⟩

/-! ## Lists taken apart element by element -/

theorem exists_forall₂ {R : α → β → Prop} {l : List α} (h : ∀ a ∈ l, ∃ b, R a b) :
    ∃ m, List.Forall₂ R l m := by
  induction l with
  | nil => exact ⟨[], .nil⟩
  | cons a l ih =>
    obtain ⟨⟨b, hb⟩, hl⟩ := List.forall_mem_cons.mp h
    obtain ⟨m, hm⟩ := ih hl
    exact ⟨b :: m, .cons hb hm⟩

/-- Each element of a list that is related to another, element by element, has a partner there. -/
theorem exists_mem_of_forall₂ {R : α → β → Prop} {l : List α} {m : List β}
    (h : List.Forall₂ R l m) {a : α} (ha : a ∈ l) : ∃ b ∈ m, R a b := by
  induction h with
  | nil => cases ha
  | cons hab _ ih =>
    rcases List.mem_cons.mp ha with rfl | ha
    · exact ⟨_, List.mem_cons_self, hab⟩
    · obtain ⟨b, hb, hr⟩ := ih ha
      exact ⟨b, List.mem_cons_of_mem _ hb, hr⟩

theorem mapM_eq_some_iff {f : α → Option β} {l : List α} {m : List β} :
    l.mapM f = some m ↔ List.Forall₂ (fun a b => f a = some b) l m := by
  constructor
  · intro h
    induction l generalizing m with
    | nil =>
      obtain rfl := Option.some.inj h
      exact .nil
    | cons a l ih =>
      simp only [List.mapM_cons, Option.bind_eq_bind, Option.bind_eq_some_iff] at h
      obtain ⟨b, hb, rest, hrest, h⟩ := h
      obtain rfl := Option.some.inj h
      exact .cons hb (ih hrest)
  · intro h
    induction h with
    | nil => rfl
    | cons hab _ ih => rw [List.mapM_cons, hab, ih]; rfl

theorem mapM_eq_ok_iff {f : α → Except ε β} {l : List α} {m : List β} :
    l.mapM f = .ok m ↔ List.Forall₂ (fun a b => f a = .ok b) l m := by
  constructor
  · intro h
    induction l generalizing m with
    | nil =>
      obtain rfl := Except.ok.inj h
      exact .nil
    | cons a l ih =>
      simp only [List.mapM_cons, bind_eq_ok] at h
      obtain ⟨b, hb, rest, hrest, h⟩ := h
      obtain rfl := Except.ok.inj h
      exact .cons hb (ih hrest)
  · intro h
    induction h with
    | nil => rfl
    | cons hab _ ih => rw [List.mapM_cons, hab, ih]; rfl

end

/-! ## The steps of storing a record -/

theorem Record.key_eq_ok_iff {record : Record} {column : String} {id : RecordId} :
    record.key column = .ok id ↔
      ∃ value, record.find? column = some value ∧ value.isFalsy = false ∧ value.shown = id := by
  unfold key
  cases record.find? column with
  | none => simp
  | some value => cases h : value.isFalsy <;> simp [h]

/-- The texts that records show in a column, in the order of the records. -/
def Record.shownIn (column : String) (records : List Record) : List String :=
  records.filterMap fun record => (record.find? column).map Value.shown

theorem Record.mem_shownIn {column shown : String} {records : List Record} :
    shown ∈ shownIn column records ↔ ∃ record ∈ records, record.shows column shown = true := by
  simp only [shownIn, List.mem_filterMap, Option.map_eq_some_iff, shows_iff]

theorem Record.shownIn_append (column : String) (records records' : List Record) :
    shownIn column (records ++ records') = shownIn column records ++ shownIn column records' :=
  List.filterMap_append

theorem Record.shownIn_cons {column : String} {record : Record} {value : Value}
    (h : record.find? column = some value) (records : List Record) :
    shownIn column (record :: records) = value.shown :: shownIn column records :=
  List.filterMap_cons_some (by rw [h, Option.map_some])

theorem Record.count_shownIn (column shown : String) (records : List Record) :
    (shownIn column records).count shown = records.countP (·.shows column shown) := by
  rw [shownIn, List.count, List.countP_filterMap]
  refine List.countP_congr fun record _ => ?_
  rw [shows_iff]
  cases record.find? column <;> simp

/-- A column still shows no text twice when a record is appended that shows none of its texts. -/
theorem Record.nodup_shownIn_concat {column : String} {records : List Record} {record : Record} :
    (shownIn column (records ++ [record])).Nodup ↔ (shownIn column records).Nodup ∧
      ∀ value, record.find? column = some value → value.shown ∉ shownIn column records := by
  rw [shownIn_append]
  cases hv : record.find? column with
  | none => simp [shownIn, hv]
  | some value =>
    rw [shownIn_cons hv, List.nodup_append]
    constructor
    · rintro ⟨hn, _, hapart⟩
      refine ⟨hn, fun other ho hm => ?_⟩
      obtain rfl := Option.some.inj ho
      exact hapart _ hm _ List.mem_cons_self rfl
    · rintro ⟨hn, hnew⟩
      refine ⟨hn, by simp [shownIn], fun shown hm other ho e => ?_⟩
      obtain rfl : other = value.shown := by simpa [shownIn] using ho
      exact hnew value rfl (e ▸ hm)

theorem Column.check_eq_ok_iff {column : Column} {value : Value} :
    column.check value = .ok () ↔ value.fits column.type = true := by
  unfold check
  split <;> simp_all

namespace Schema

/-- A checked record has every required column, and each of its fields has a column that it fits. -/
theorem check_eq_ok_iff {schema : Schema} {table : String} {record : Record} :
    schema.check table record = .ok () ↔
      (∀ column ∈ schema.list, column.notNull = true → record.contains column.name = true) ∧
      ∀ field ∈ record.entries, ∃ column,
        schema.column? field.1 = some column ∧ field.2.fits column.type = true := by
  have hfield : ∀ field : String × Value, schema.checkField table field.1 field.2 = .ok () ↔
      ∃ column, schema.column? field.1 = some column ∧ field.2.fits column.type = true := by
    intro field
    unfold checkField
    cases schema.column? field.1 <;> simp [Column.check_eq_ok_iff]
  unfold check
  cases hm : schema.missing? record with
  | some column =>
    have hc := List.find?_some hm
    simp only [Bool.and_eq_true, Bool.not_eq_true'] at hc
    simp only [reduceCtorEq, false_iff, not_and]
    intro hall
    rw [hall column (List.mem_of_find?_eq_some hm) hc.1] at hc
    exact Bool.noConfusion hc.2
  | none =>
    have hall : ∀ column ∈ schema.list, column.notNull = true →
        record.contains column.name = true := by
      intro column hc hn
      have := List.find?_eq_none.mp hm column hc
      simpa [hn] using this
    simp only [forM_eq_ok, hfield]
    exact ⟨fun h => ⟨hall, h⟩, And.right⟩

end Schema

namespace Table

/-- What is stored is the filled and converted record, under its shown primary key. -/
theorem prepare_eq_ok_iff {table : Table} {name : String} {record stored : Record}
    {id : RecordId} :
    table.prepare name record = .ok (id, stored) ↔
      table.schema.check name (table.schema.fill record) = .ok () ∧
      stored = table.schema.conform (table.schema.fill record) ∧
      ∃ column, table.schema.primaryKey? = some column ∧ stored.key column.name = .ok id := by
  unfold prepare
  simp only [bind_eq_ok]
  constructor
  · rintro ⟨_, hc, h⟩
    cases hp : table.schema.primaryKey? with
    | none => simp [hp] at h
    | some column =>
      simp only [hp, bind_eq_ok] at h
      obtain ⟨key, hk, hr⟩ := h
      obtain ⟨rfl, rfl⟩ := Prod.mk.inj (Except.ok.inj hr)
      exact ⟨hc, rfl, column, rfl, hk⟩
  · rintro ⟨hc, rfl, column, hp, hk⟩
    refine ⟨(), hc, ?_⟩
    simp only [hp, bind_eq_ok]
    exact ⟨id, hk, rfl⟩

/-- A table takes a prepared record when no record is kept under its id and no unique column shows
what the record shows there. -/
theorem accept_eq_ok_iff {table : Table} {name : String} {record stored : Record}
    {id : RecordId} :
    table.accept name record = .ok (id, stored) ↔
      table.prepare name record = .ok (id, stored) ∧ table.records.contains id = false ∧
      table.checkUnique stored table.schema.uniqueColumns = .ok () := by
  unfold accept
  simp only [bind_eq_ok]
  constructor
  · rintro ⟨⟨key, kept⟩, hp, h⟩
    cases hc : table.records.contains key with
    | true => simp [hc] at h
    | false =>
      simp only [hc, Bool.false_eq_true, if_false, bind_eq_ok] at h
      obtain ⟨_, hu, hr⟩ := h
      obtain ⟨rfl, rfl⟩ := Prod.mk.inj (Except.ok.inj hr)
      exact ⟨hp, hc, hu⟩
  · rintro ⟨hp, hc, hu⟩
    refine ⟨(id, stored), hp, ?_⟩
    simp only [hc, Bool.false_eq_true, if_false, bind_eq_ok]
    exact ⟨(), hu, rfl⟩

/-- A record may be stored when it shows in no unique column what a stored record shows there. -/
theorem checkUnique_eq_ok_iff {table : Table} {record : Record} {columns : List Column} :
    table.checkUnique record columns = .ok () ↔
      ∀ column ∈ columns, ∀ value, record.find? column.name = some value →
        value.shown ∉ Record.shownIn column.name table.records.values := by
  induction columns with
  | nil => simp [checkUnique]
  | cons column columns ih =>
    rw [List.forall_mem_cons, ← ih, checkUnique]
    cases hf : record.find? column.name with
    | none => simp
    | some value =>
      have htaken : table.records.values.any (·.shows column.name value.shown) = true ↔
          value.shown ∈ Record.shownIn column.name table.records.values := by
        rw [List.any_eq_true, Record.mem_shownIn]
      by_cases h : value.shown ∈ Record.shownIn column.name table.records.values
      · simp [htaken.mpr h, h]
      · simp [Bool.eq_false_iff.mpr fun ha => h (htaken.mp ha), h]

end Table

end Rowfile

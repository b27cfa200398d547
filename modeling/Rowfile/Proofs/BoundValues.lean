import Rowfile.Proofs.SingleTables

/-!
# Values bound by position

The values of an INSERT are bound to the listed columns, or to all columns, by their positions. What
is stored is a map, so of several values that are bound to one column it holds the last. A column to
which no value is bound holds its default or is absent. Every value is held exactly when values that
are bound to one column are kept as one and the same there, and so whenever no column is repeated.
-/
namespace Rowfile

/-! ## Values under repeated keys -/

section
variable {V : Type} {keys : List String} {values : List V} {i : Nat} {key : String} {value : V}

theorem getElem?_zip (hk : keys[i]? = some key) (hv : values[i]? = some value) :
    (keys.zip values)[i]? = some (key, value) :=
  List.getElem?_zip_eq_some.mpr ⟨hk, hv⟩

/-- The last pair under a key decides. -/
theorem lookup_reverse_zip_of_last (hk : keys[i]? = some key) (hv : values[i]? = some value)
    (hlast : ∀ j, i < j → keys[j]? ≠ some key) :
    (keys.zip values).reverse.lookup key = some value := by
  obtain ⟨hi, hpair⟩ := List.getElem?_eq_some_iff.mp (getElem?_zip hk hv)
  have hsplit := List.take_append_drop i (keys.zip values)
  rw [List.drop_eq_getElem_cons hi, hpair] at hsplit
  rw [← hsplit, List.reverse_append, List.reverse_cons, List.append_assoc]
  -- The reversed list begins with what stood after the position, where the key is no longer listed.
  refine List.lookup_eq_some_iff.mpr ⟨_, _, rfl, fun pair hpair => ?_⟩
  obtain ⟨n, hn⟩ := List.mem_iff_getElem?.mp (List.mem_reverse.mp hpair)
  rw [List.getElem?_drop] at hn
  have hne := hlast (i + 1 + n) (by omega)
  rw [(List.getElem?_zip_eq_some.mp hn).1] at hne
  exact bne_iff_ne.mpr fun he => hne (congrArg some he.symm)

theorem exists_getElem?_of_lookup (h : (keys.zip values).reverse.lookup key = some value) :
    ∃ i : Nat, keys[i]? = some key ∧ values[i]? = some value := by
  obtain ⟨front, back, hsplit, _⟩ := List.lookup_eq_some_iff.mp h
  have hmem : (key, value) ∈ keys.zip values := by
    rw [← List.mem_reverse, hsplit]
    exact List.mem_append_right front List.mem_cons_self
  obtain ⟨i, hi⟩ := List.mem_iff_getElem?.mp hmem
  exact ⟨i, List.getElem?_zip_eq_some.mp hi⟩

end

/-! ## Records of bound values -/

namespace Schema

variable {schema : Schema} {names : List String} {values : List Value} {record : Record}

/-- The record holds every value under the column to which its position binds it, converted to what
the column keeps. -/
def Holds (schema : Schema) (names : List String) (values : List Value) (record : Record) : Prop :=
  ∀ (i : Nat) column value, names[i]? = some column → values[i]? = some value →
    record.find? column = some (schema.converted column value)

/-- Values that are bound to one column are kept as one and the same there. -/
def Agree (schema : Schema) (names : List String) (values : List Value) : Prop :=
  ∀ (i j : Nat) column a b, names[i]? = some column → names[j]? = some column →
    values[i]? = some a → values[j]? = some b →
    schema.converted column a = schema.converted column b

/-- Where no column is repeated there is nothing to agree about. -/
theorem agree_of_nodup (h : names.Nodup) : schema.Agree names values := by
  intro i j column a b hi hj ha hb
  have hlt := (List.getElem?_eq_some_iff.mp hi).1
  obtain rfl := (List.getElem?_inj hlt h).mp (hi.trans hj.symm)
  rw [Option.some.inj (ha.symm.trans hb)]

/-- A record that holds the last value under each key holds all of them exactly when they agree. -/
theorem holds_iff_agree (h : ∀ column value, (names.zip values).reverse.lookup column = some value →
    record.find? column = some (schema.converted column value)) :
    schema.Holds names values record ↔ schema.Agree names values := by
  constructor
  · intro hholds i j column a b hi hj ha hb
    exact Option.some.inj ((hholds i column a hi ha).symm.trans (hholds j column b hj hb))
  · intro hagree i column value hi hv
    have hsome : ((names.zip values).reverse.lookup column).isSome = true := by
      rw [← KeyedMap.valueUnder?_eq_lookup, KeyedMap.valueUnder?_isSome]
      exact List.mem_map_of_mem (f := Prod.fst) (List.mem_reverse.mpr
        (List.mem_of_getElem? (getElem?_zip hi hv)))
    obtain ⟨last, hlast⟩ := Option.isSome_iff_exists.mp hsome
    obtain ⟨j, hj, hb⟩ := exists_getElem?_of_lookup hlast
    rw [h column last hlast, hagree i j column value last hi hj hv hb]

end Schema

namespace Table

variable {table : Table} {name : String} {id : RecordId} {record stored : Record}

theorem eq_of_boundColumns {columns : Option (List String)} {count : Nat} {names : List String}
    (h : table.boundColumns name columns count = .ok names) :
    names = columns.getD table.schema.names ∧ names.length = count := by
  unfold boundColumns at h
  cases columns with
  | some listed =>
    simp only at h
    split at h
    · cases h
    · next hcount =>
      split at h
      · cases h
      · obtain rfl := Except.ok.inj h
        exact ⟨rfl, not_not.mp hcount⟩
  | none =>
    simp only at h
    split at h
    · cases h
    · next hcount =>
      obtain rfl := Except.ok.inj h
      exact ⟨rfl, (List.length_map _).trans (not_not.mp hcount)⟩

/-- A prepared record holds what the record holds, and otherwise defaults, as the columns keep it. -/
theorem find?_of_prepare (h : table.prepare name record = .ok (id, stored)) (column : String) :
    stored.find? column =
      ((record.find? column).or ((table.schema.column? column).bind Column.default?)).map
        (table.schema.converted column) := by
  obtain ⟨_, rfl, _⟩ := prepare_eq_ok_iff.mp h
  rw [Schema.find?_conform, Schema.find?_fill]

theorem shown_key_of_prepare (h : table.prepare name record = .ok (id, stored)) :
    ∃ key value, table.schema.primaryKey? = some key ∧ stored.find? key.name = some value ∧
      id = value.shown := by
  obtain ⟨_, _, key, hkey, hid⟩ := prepare_eq_ok_iff.mp h
  obtain ⟨value, hvalue, _, hshown⟩ := Record.key_eq_ok_iff.mp hid
  exact ⟨key, value, hkey, hvalue, hshown.symm⟩

end Table

/-- A stored row is the record of its bound values. -/
theorem Catalog.insertValues_eq_ok_bound {catalog : Catalog} {name : String}
    {columns : Option (List String)} {values : List Value} {step : Step RecordId}
    (h : catalog.insertValues name columns values = .ok step) :
    ∃ table names stored, catalog.tables.find? name = some table ∧
      table.boundColumns name columns values.length = .ok names ∧
      table.prepare name (KeyedMap.ofList (names.zip values)) = .ok (step.answer, stored) ∧
      step.catalog = (catalog.fileRecord name step.answer stored).setTable name
        { table with records := table.records.extend step.answer stored } := by
  obtain ⟨table, ht, names, hnames, h⟩ := insertValues_eq_ok_iff.mp h
  obtain ⟨_, id, stored, hsame, haccept, rfl⟩ := insert_eq_ok h
  obtain rfl := Option.some.inj (ht.symm.trans hsame)
  exact ⟨table, names, stored, ht, hnames, (Table.accept_eq_ok_iff.mp haccept).1, rfl⟩

section
variable {σ : Type} [Store σ]

/-- An insertion that is answered has appended one record, under the shown primary key that is its
answer, and has changed nothing beside the records of the table and the contents of its indexes. The
record holds defaults where no value is bound, and the last value that is bound to each column. So it
holds every value exactly when values that are bound to one column agree. -/
theorem inserted_values_held_iff {db : Database σ} {name : String}
    {columns : Option (List String)} {values : List Value} {id : RecordId}
    (hok : (db.change (Catalog.insertValues name columns values)).1 = .ok id) :
    ∃ table names stored records, db.catalog.tables.find? name = some table ∧
      (db.change (Catalog.insertValues name columns values)).2.catalog.tables.find? name =
        some { table with records := records } ∧
      records.entries = table.records.entries ++ [(id, stored)] ∧
      (∃ key value, table.schema.primaryKey? = some key ∧
        stored.find? key.name = some value ∧ id = value.shown) ∧
      names = columns.getD table.schema.names ∧ names.length = values.length ∧
      (∀ column, column ∉ names → stored.find? column =
        ((table.schema.column? column).bind Column.default?).map
          (table.schema.converted column)) ∧
      (∀ (i : Nat) column value, names[i]? = some column → values[i]? = some value →
        (∀ j, i < j → names[j]? ≠ some column) →
        stored.find? column = some (table.schema.converted column value)) ∧
      (table.schema.Holds names values stored ↔ table.schema.Agree names values) ∧
      db.catalog.SameBeside name
        (db.change (Catalog.insertValues name columns values)).2.catalog := by
  obtain ⟨step, hstep, rfl, hcatalog⟩ := Database.exists_step_of_change hok
  obtain ⟨table, names, stored, ht, hnames, hprepare, hafter⟩ :=
    Catalog.insertValues_eq_ok_bound hstep
  obtain ⟨hbound, hlength⟩ := Table.eq_of_boundColumns hnames
  have hfind : ∀ column, stored.find? column =
      (((names.zip values).reverse.lookup column).or
        ((table.schema.column? column).bind Column.default?)).map
          (table.schema.converted column) := fun column => by
    rw [Table.find?_of_prepare hprepare, KeyedMap.ofList, KeyedMap.find?_insertAll,
      KeyedMap.find?_empty, Option.or_none]
  have hlast : ∀ column value, (names.zip values).reverse.lookup column = some value →
      stored.find? column = some (table.schema.converted column value) :=
    fun column value hvalue => by rw [hfind, hvalue, Option.some_or, Option.map_some]
  rw [hcatalog, hafter]
  refine ⟨table, names, stored, table.records.extend step.answer stored, ht,
    Catalog.find?_setTable _ _ _, rfl, Table.shown_key_of_prepare hprepare, hbound, hlength,
    fun column hcolumn => ?_, fun i column value hi hv hno => ?_, Schema.holds_iff_agree hlast, ?_⟩
  -- A value found for the column would have a position, and so would the column in the list.
  · cases hlookup : (names.zip values).reverse.lookup column with
    | none => rw [hfind, hlookup, Option.none_or]
    | some value =>
      obtain ⟨i, hi, _⟩ := exists_getElem?_of_lookup hlookup
      exact (hcolumn (List.mem_of_getElem? hi)).elim
  · exact hlast column value (lookup_reverse_zip_of_last hi hv hno)
  · exact ((Catalog.sameBeside_refl name db.catalog).mapIndexes
      fun column index => index.file column step.answer stored).setTable ht _

/-- The columns of parts: a key, a size, and a unit with a default. -/
def partsSchema : Schema :=
  .ofColumns [⟨"id", .int, true, false, false, none⟩, ⟨"size", .int, false, false, false, none⟩,
    ⟨"unit", .text, false, false, false, some (.text "mm")⟩]

def partRecord (id size : Int64) (unit : String) : Record :=
  .ofList [("id", .integer id), ("size", .integer size), ("unit", .text unit)]

def onePart : MemoryDatabase :=
  Database.replay [.createTable "parts" partsSchema, .insert "parts" (partRecord 1 20 "cm")] ()

/-- Two columns are listed, not in their order. The text is kept as the number that it shows, and the
third column holds its default. -/
theorem inserted_values_held_iff_unordered :
    (onePart.change (Catalog.insertValues "parts" (some ["size", "id"])
        [.text "7", .integer 2])).1 = .ok "2" ∧
      ∃ table stored records,
        onePart.catalog.tables.find? "parts" = some table ∧
        (onePart.change (Catalog.insertValues "parts" (some ["size", "id"])
          [.text "7", .integer 2])).2.catalog.tables.find? "parts" =
            some { table with records := records } ∧
        records.entries = table.records.entries ++ [("2", stored)] ∧
        table.schema.Holds ["size", "id"] [.text "7", .integer 2] stored ∧
        stored.find? "size" = some (.integer 7) ∧ stored.find? "unit" = some (.text "mm") := by
  have hok : (onePart.change (Catalog.insertValues "parts"
      (some ["size", "id"]) [.text "7", .integer 2])).1 = .ok "2" := by
    decide +kernel
  obtain ⟨table, _, stored, records, ht, hafter, hentries, _, rfl, _, hdefaults, _, hholds, _⟩ :=
    inserted_values_held_iff hok
  have htable : onePart.catalog.tables.find? "parts" =
      some ⟨partsSchema, ⟨[("1", partRecord 1 20 "cm")], [("1", 0)]⟩⟩ := by
    decide +kernel
  obtain rfl := Option.some.inj (htable.symm.trans ht)
  have hstored : partsSchema.Holds ["size", "id"] [.text "7", .integer 2] stored :=
    hholds.mpr (Schema.agree_of_nodup (by decide))
  exact ⟨hok, _, stored, records, ht, hafter, hentries, hstored,
    hstored 0 "size" (.text "7") rfl rfl, hdefaults "unit" (by decide)⟩

/-- Of three values the second is not held: its column is listed again for the third. -/
theorem value_of_repeated_column_dropped :
    (onePart.change (Catalog.insertValues "parts"
        (some ["id", "size", "size"]) [.integer 2, .integer 7, .integer 8])).1 = .ok "2" ∧
      ((onePart.change (Catalog.insertValues "parts"
        (some ["id", "size", "size"])
        [.integer 2, .integer 7, .integer 8])).2.catalog.tables.find? "parts").map
          (·.records.entries) =
        some [("1", partRecord 1 20 "cm"), ("2", partRecord 2 8 "mm")] ∧
      ¬partsSchema.Holds ["id", "size", "size"] [.integer 2, .integer 7, .integer 8]
        (partRecord 2 8 "mm") := by
  refine ⟨by decide +kernel, by decide +kernel, fun hholds => ?_⟩
  have hdropped := hholds 1 "size" (.integer 7) rfl rfl
  revert hdropped
  decide +kernel

end

end Rowfile

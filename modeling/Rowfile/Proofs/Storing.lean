import Rowfile.Document
import Rowfile.Proofs.Octets
import Rowfile.Proofs.Peeling
import Rowfile.Proofs.WrittenJson
import Mathlib.Data.List.Basic

/-!
# What storing keeps

Each part of a catalog is read back from its document, if the reader takes the finite numbers in
it back to themselves. Storing then keeps everything but two things: a number that is not finite
becomes the text by which it is shown, and positions are recorded anew, so that a catalog is stored
up to its contents. Names that a catalog repeats in the three parts of its document find each other again, as
long as no indexes stand under a name without a table.
-/
namespace Rowfile

/-! ## Maps of distinct keys -/

namespace KeyedMap

variable {V W : Type}

theorem setEntry_of_not_mem {key : String} (value : V) {entries : List (String × V)}
    (h : key ∉ entryKeys entries) : setEntry key value entries = entries ++ [(key, value)] := by
  induction entries with
  | nil => rfl
  | cons entry rest ih =>
    obtain ⟨hne, hrest⟩ := not_or.mp (List.mem_cons.not.mp h)
    rw [setEntry, if_neg (Ne.symm hne), ih hrest, List.cons_append]

/-- Pairs under new and distinct keys are put at the end. -/
theorem entries_insertAll {m : KeyedMap V} {pairs : List (String × V)}
    (h : (m.keys ++ entryKeys pairs).Nodup) : (m.insertAll pairs).entries = m.entries ++ pairs := by
  induction pairs generalizing m with
  | nil => exact (List.append_nil _).symm
  | cons pair pairs ih =>
    have hnew : pair.1 ∉ m.keys := fun hm =>
      (List.nodup_append.mp h).2.2 pair.1 hm pair.1 List.mem_cons_self rfl
    have hentries : (m.insert pair.1 pair.2).entries = m.entries ++ [pair] :=
      setEntry_of_not_mem pair.2 hnew
    have hkeys : (m.insert pair.1 pair.2).keys = m.keys ++ [pair.1] := by
      rw [keys, hentries, entryKeys, List.map_append]
      rfl
    rw [insertAll_cons, ih, hentries, List.append_assoc, List.singleton_append]
    rw [hkeys, List.append_assoc]
    exact h

theorem entries_ofList {pairs : List (String × V)} (h : (entryKeys pairs).Nodup) :
    (ofList pairs).entries = pairs :=
  entries_insertAll (m := empty) h

@[simp]
theorem ofList_entries (m : KeyedMap V) : ofList m.entries = m :=
  ext (entries_ofList m.distinct)

theorem ofList_map_entries (m : KeyedMap V) (f : V → W) :
    ofList (m.entries.map fun entry => (entry.1, f entry.2)) = m.mapWithKey fun _ => f :=
  ext (entries_ofList (m.mapWithKey fun _ => f).distinct)

theorem mapWithKey_eq_self {m : KeyedMap V} {f : String → V → V}
    (h : ∀ entry ∈ m.entries, f entry.1 entry.2 = entry.2) : m.mapWithKey f = m := by
  refine ext ?_
  conv_rhs => rw [← List.map_id m.entries]
  exact List.map_congr_left fun entry he => by rw [h entry he]; rfl

end KeyedMap

theorem mapM_eq_some {α β : Type} {f : α → Option β} {g : α → β} {l : List α}
    (h : ∀ a ∈ l, f a = some (g a)) : l.mapM f = some (l.map g) :=
  mapM_eq_some_iff.mpr (List.forall₂_map_right_iff.mpr (List.forall₂_same.mpr h))

namespace KeyedMap

variable {V W : Type} {f : V → Option W} {entries : List (String × V)}

/-- The map of some entries with every value put through a function that may give nothing. -/
def mapEntries? (f : V → Option W) (entries : List (String × V)) : Option (KeyedMap W) :=
  (entries.mapM fun entry => (f entry.2).map (entry.1, ·)).map ofList

/-- Entries under distinct keys are put through one by one. -/
theorem mapEntries?_eq_some_iff (h : (entryKeys entries).Nodup) {m : KeyedMap W} :
    mapEntries? f entries = some m ↔
      List.Forall₂ (fun entry found => (f entry.2).map (entry.1, ·) = some found) entries
        m.entries := by
  constructor
  · intro hmap
    obtain ⟨pairs, hpairs, rfl⟩ := Option.map_eq_some_iff.mp hmap
    have hall := mapM_eq_some_iff.mp hpairs
    have hkeys : entryKeys pairs = entryKeys entries := by
      clear hpairs hmap h
      induction hall with
      | nil => rfl
      | cons hfound _ ih =>
        obtain ⟨_, _, rfl⟩ := Option.map_eq_some_iff.mp hfound
        exact congrArg _ ih
    rwa [entries_ofList (hkeys ▸ h)]
  · intro hall
    rw [mapEntries?, mapM_eq_some_iff.mpr hall, Option.map_some, ofList_entries]

theorem mapEntries?_eq_map {g : V → W} (h : ∀ entry ∈ entries, f entry.2 = some (g entry.2)) :
    mapEntries? f entries = some (ofList (entries.map fun entry => (entry.1, g entry.2))) := by
  have hmap : ∀ entry ∈ entries, (f entry.2).map (entry.1, ·) = some (entry.1, g entry.2) :=
    fun entry he => by rw [h entry he, Option.map_some]
  rw [mapEntries?, mapM_eq_some hmap, Option.map_some]

theorem mapEntries?_eq_map_iff (h : (entryKeys entries).Nodup) {g : V → W} :
    mapEntries? f entries = some (ofList (entries.map fun entry => (entry.1, g entry.2))) ↔
      ∀ entry ∈ entries, f entry.2 = some (g entry.2) := by
  refine ⟨fun hmap => ?_, mapEntries?_eq_map⟩
  have hkeys : entryKeys (entries.map fun entry => (entry.1, g entry.2)) = entryKeys entries := by
    rw [entryKeys, List.map_map]
    rfl
  rw [mapEntries?_eq_some_iff h, entries_ofList (hkeys ▸ h), List.forall₂_map_right_iff,
    List.forall₂_same] at hmap
  simpa only [Option.map_eq_some_iff, Prod.mk.injEq, true_and, exists_eq_right] using hmap

theorem mapEntries?_eq_self {f : V → Option V} (h : ∀ v, f v = some v) (m : KeyedMap V) :
    mapEntries? f m.entries = some m := by
  have hself := (mapEntries?_eq_map_iff m.distinct (g := id)).mpr fun entry _ => h entry.2
  rwa [ofList_map_entries, mapWithKey_eq_self fun _ _ => rfl] at hself

theorem ofJson?_objectOf [FloatReader] (document : V → Json) (value : Json → Option W)
    (entries : List (String × V)) :
    KeyedMap.ofJson? value (Document.objectOf document entries).asRead =
      mapEntries? (fun v => value (document v).asRead) entries := by
  rw [Document.objectOf, Json.asRead, Json.fieldsAsRead_eq, KeyedMap.ofJson?, List.map_map,
    Json.fields?_object, Option.bind_eq_bind, Option.bind_some, List.mapM_map]
  exact Option.map_eq_bind.symm

end KeyedMap

/-! ## Values and records -/

/-- A value as storing keeps it. -/
def Value.stored : Value → Value
  | .float x => if x.isFinite then .float x else .text (Value.float x).shown
  | v => v

def Record.stored (record : Record) : Record := record.mapWithKey fun _ => Value.stored

theorem int64?_toInt (n : Int64) : int64? n.toInt = some n := by
  have hlow := n.minValue_le_toInt
  have hhigh := n.toInt_le
  rw [int64?, if_pos ⟨hlow, hhigh⟩, Int64.ofInt_toInt]

section
variable [FloatReader]

/-- The reader takes the number that is written for a value back to it. Only finite numbers are
written by their digits. -/
def Value.FloatReadsBack : Value → Prop
  | .float (.finite _ place) => Binary64.reread? place = some place
  | _ => True

instance : DecidablePred Value.FloatReadsBack := fun v =>
  match v with
  | .float (.finite _ _) => inferInstanceAs (Decidable (_ = _))
  | .float (.infinite _) | .float .nan | .integer _ | .boolean _ | .text _ =>
    inferInstanceAs (Decidable True)

/-- Integers of 64 bits, with or without a sign, are read as integers. -/
theorem Json.ofNumber_integer {n : Int} (hlow : Int64.minValue.toInt ≤ n)
    (hhigh : n < UInt64.size) :
    Json.ofNumber (decide (n < 0)) (digits n.natAbs) [] [] = .integer n := by
  have hmin : Int64.minValue.toInt = -9223372036854775808 := by decide
  have hsize : UInt64.size = 18446744073709551616 := by decide
  rw [hmin] at hlow
  rw [hsize] at hhigh
  simp only [ofNumber, ofDigits_digits, List.isEmpty_nil, Bool.and_self, Bool.true_and, hmin,
    hsize]
  by_cases h : n < 0
  · have hzero : (n.natAbs == 0) = false := by simp; omega
    have hbound : n.natAbs ≤ (-9223372036854775808 : Int).natAbs := by omega
    have hvalue : -(n.natAbs : Int) = n := by omega
    simp only [h, decide_true, hzero, Bool.and_false, Bool.not_false, if_true, Bool.true_and,
      hbound, hvalue]
  · have hbound : n.natAbs ≤ 18446744073709551616 - 1 := by omega
    have hvalue : (n.natAbs : Int) = n := by omega
    simp only [h, decide_false, Bool.false_and, Bool.not_false, Bool.false_eq_true, if_false,
      Bool.true_and, hbound, decide_true, if_true, hvalue]

theorem Json.asRead_int64 (n : Int64) : (Json.integer n.toInt).asRead = .integer n.toInt := by
  rw [Json.asRead]
  refine Json.ofNumber_integer n.minValue_le_toInt ?_
  have hhigh := n.toInt_le
  have hmax : Int64.maxValue.toInt = 9223372036854775807 := by decide
  have hsize : UInt64.size = 18446744073709551616 := by decide
  omega

theorem Value.ofJson?_toJson_iff {v : Value} :
    Value.ofJson? v.toJson.asRead = some v.stored ↔ v.FloatReadsBack := by
  cases v with
  | integer n =>
    rw [toJson, Json.asRead_int64, ofJson?, int64?_toInt]
    exact iff_of_true rfl trivial
  | float x =>
    cases x with
    | finite negative place =>
      rw [toJson, Json.asRead, FloatReadsBack]
      cases Binary64.reread? place with
      | none => exact iff_of_false (fun h => by cases h) fun h => by cases h
      | some found =>
        have hstored : (Value.float (.finite negative place)).stored =
            .float (.finite negative place) := rfl
        simp [Json.ofPlace?, ofJson?, hstored]
    | infinite negative =>
      rw [toJson, Json.asRead]
      · exact iff_of_true rfl trivial
      · exact fun _ _ h => by cases h
    | nan =>
      rw [toJson, Json.asRead]
      · exact iff_of_true rfl trivial
      · exact fun _ _ h => by cases h
  | boolean b => rw [toJson, Json.asRead]; exact iff_of_true rfl trivial
  | text s => rw [toJson, Json.asRead]; exact iff_of_true rfl trivial

theorem Value.asRead_toJson_ne_null (v : Value) : v.toJson.asRead ≠ .null := by
  cases v with
  | integer n =>
    rw [toJson, Json.asRead_int64]
    exact fun h => by cases h
  | float x =>
    cases x with
    | finite negative place =>
      rw [toJson, Json.asRead]
      cases Binary64.reread? place <;> exact fun h => by cases h
    | infinite | nan => exact fun h => by cases h
  | boolean | text => exact fun h => by cases h

theorem Record.ofJson?_toJson_iff {record : Record} :
    Record.ofJson? record.toJson.asRead = some record.stored ↔
      ∀ entry ∈ record.entries, entry.2.FloatReadsBack := by
  have hread : ofJson? record.toJson.asRead =
      KeyedMap.mapEntries? (fun v => Value.ofJson? v.toJson.asRead) record.entries :=
    KeyedMap.ofJson?_objectOf Value.toJson Value.ofJson? record.entries
  rw [hread, stored, ← KeyedMap.ofList_map_entries, KeyedMap.mapEntries?_eq_map_iff record.distinct]
  simp only [Value.ofJson?_toJson_iff]

end

/-! ## Columns and schemas -/

theorem Column.name_of_ofJson? {name : String} {d : Json} {column : Column}
    (h : ofJson? name d = some column) : column.name = name := by
  simp only [ofJson?, Option.bind_eq_bind, Option.bind_eq_some_iff] at h
  obtain ⟨_, _, _, _, _, _, _, _, _, _, _, _, _, _, _, _, h⟩ := h
  obtain rfl := Option.some.inj h
  rfl

def Column.stored (column : Column) : Column :=
  { column with default? := column.default?.map Value.stored }

def Schema.stored (schema : Schema) : Schema :=
  ⟨schema.columns.mapWithKey fun _ => Column.stored, by
    intro entry he
    obtain ⟨entry', he', rfl⟩ := List.mem_map.mp he
    exact schema.named entry' he'⟩

namespace Json

variable {name other : String}

theorem soleField?_cons_self {fields : List (String × Json)}
    (h : soleField? name fields = some none) (value : Json) :
    soleField? name ((name, value) :: fields) = some (some value) := by
  unfold soleField? at h ⊢
  rw [List.filter_cons_of_pos (by simp)]
  split at h
  · next hnone => rw [hnone]
  · cases h
  · cases h

theorem soleField?_cons_of_ne (h : other ≠ name) (value : Json) (fields : List (String × Json)) :
    soleField? name ((other, value) :: fields) = soleField? name fields := by
  unfold soleField?
  rw [List.filter_cons_of_neg (by simpa using h)]

end Json

namespace Column

variable {name : String} {holds : Bool} {rest : List (String × Json)}

def flagFields (flags : List (String × Bool)) : List (String × Json) :=
  flags.flatMap fun flag => if flag.2 then [(flag.1, .boolean true)] else []

theorem soleField?_flagFields {flags : List (String × Bool)} (h : name ∉ flags.map Prod.fst) :
    Json.soleField? name (flagFields flags ++ rest) = Json.soleField? name rest := by
  induction flags with
  | nil => rfl
  | cons flag flags ih =>
    obtain ⟨other, holds⟩ := flag
    obtain ⟨hne, hflags⟩ := not_or.mp (List.mem_cons.not.mp h)
    cases holds with
    | false => exact ih hflags
    | true => exact (Json.soleField?_cons_of_ne (Ne.symm hne) _ _).trans (ih hflags)

/-- A constraint is looked up behind the others, and none repeats its name. -/
theorem flag?_flagFields {flags : List (String × Bool)} (hd : (flags.map Prod.fst).Nodup)
    (hm : (name, holds) ∈ flags) (hrest : Json.soleField? name rest = some none) :
    flag? name (flagFields flags ++ rest) = some holds := by
  induction flags with
  | nil => cases hm
  | cons flag flags ih =>
    obtain ⟨hnew, hd⟩ := List.nodup_cons.mp hd
    rcases List.mem_cons.mp hm with rfl | hm
    · have habsent := (soleField?_flagFields hnew).trans hrest
      unfold flag?
      cases holds with
      | false =>
        rw [show flagFields ((name, false) :: flags) = flagFields flags from rfl, habsent]
      | true =>
        have hfield := Json.soleField?_cons_self habsent (.boolean true)
        rw [show flagFields ((name, true) :: flags) ++ rest =
          (name, .boolean true) :: (flagFields flags ++ rest) from rfl, hfield]
        rfl
    · have hne : flag.1 ≠ name := fun he => hnew (he ▸ List.mem_map_of_mem (f := Prod.fst) hm)
      rw [← ih hd hm]
      obtain ⟨other, own⟩ := flag
      unfold flag?
      cases own with
      | false => rfl
      | true =>
        rw [show flagFields ((other, true) :: flags) ++ rest =
          (other, .boolean true) :: (flagFields flags ++ rest) from rfl,
          Json.soleField?_cons_of_ne hne]

section
variable [FloatReader]

/-- The field of a default, as it is read. -/
def defaultFields (default? : Option Value) : List (String × Json) :=
  (default?.map fun value => ("default", value.toJson.asRead)).toList

/-- A default as it is read back. -/
def readDefault? (default? : Option Value) : Option (Option Value) :=
  match default? with
  | none => some none
  | some value => (Value.ofJson? value.toJson.asRead).map some

theorem soleField?_defaultFields (h : name ≠ "default") (default? : Option Value) :
    Json.soleField? name (defaultFields default?) = some none := by
  cases default? with
  | none => rfl
  | some value => exact Json.soleField?_cons_of_ne h.symm _ []

theorem defaultField?_of_soleField? {default? : Option Value} {fields : List (String × Json)}
    (h : Json.soleField? "default" fields =
      Json.soleField? "default" (defaultFields default?)) :
    defaultField? fields = readDefault? default? := by
  unfold defaultField?
  rw [h]
  cases default? with
  | none => rfl
  | some value =>
    rw [show Json.soleField? "default" (defaultFields (some value)) =
      some (some value.toJson.asRead) from rfl]
    split
    · next h => cases h
    · next h => cases h
    · next h => exact absurd (Option.some.inj (Option.some.inj h)) value.asRead_toJson_ne_null
    · next h =>
      obtain rfl := Option.some.inj (Option.some.inj h)
      rfl

def flags (column : Column) : List (String × Bool) :=
  [("primary_key", column.primaryKey), ("not_null", column.notNull), ("unique", column.unique)]

theorem asRead_toJson (column : Column) : column.toJson.asRead =
    .object (("type", .text column.type.name) ::
      (flagFields column.flags ++ defaultFields column.default?)) := by
  obtain ⟨name, type, primaryKey, notNull, unique, default?⟩ := column
  cases default? <;> cases primaryKey <;> cases notNull <;> cases unique <;>
    simp only [toJson, Json.asRead, flagFields, defaultFields] <;> rfl

/-- All of a column but its default is read back. -/
theorem ofJson?_toJson (column : Column) : ofJson? column.name column.toJson.asRead =
    (readDefault? column.default?).map fun default? => { column with default? := default? } := by
  have habsent : ∀ name, name ≠ "default" →
      Json.soleField? name (defaultFields column.default?) = some none := fun _ h =>
    soleField?_defaultFields h column.default?
  have hnew : "type" ∉ column.flags.map Prod.fst := by simp [flags]
  have htype := Json.soleField?_cons_self ((soleField?_flagFields hnew).trans
    (habsent "type" (by decide))) (.text column.type.name)
  have hflag : ∀ name holds, (name, holds) ∈ column.flags → name ≠ "type" → name ≠ "default" →
      flag? name (("type", .text column.type.name) ::
        (flagFields column.flags ++ defaultFields column.default?)) = some holds := by
    intro name holds hm htype hdefault
    rw [flag?, Json.soleField?_cons_of_ne (Ne.symm htype), ← flag?]
    exact flag?_flagFields (by simp [flags]) hm (habsent name hdefault)
  have hdefault : defaultField? (("type", .text column.type.name) ::
      (flagFields column.flags ++ defaultFields column.default?)) =
        readDefault? column.default? := by
    refine defaultField?_of_soleField? ?_
    rw [Json.soleField?_cons_of_ne (by decide), soleField?_flagFields (by simp [flags])]
  have hprimary := hflag "primary_key" column.primaryKey (by simp [flags]) (by decide) (by decide)
  have hnotNull := hflag "not_null" column.notNull (by simp [flags]) (by decide) (by decide)
  have hunique := hflag "unique" column.unique (by simp [flags]) (by decide) (by decide)
  rw [asRead_toJson, ofJson?, Json.parts?_object]
  simp [htype, typeOfJson?, hprimary, hnotNull, hunique, hdefault, Option.map_eq_bind]

theorem ofJson?_toJson_iff {column : Column} :
    ofJson? column.name column.toJson.asRead = some column.stored ↔
      ∀ value, column.default? = some value → value.FloatReadsBack := by
  rw [ofJson?_toJson, stored]
  cases column.default? with
  | none => simp [readDefault?]
  | some value => simp [readDefault?, Value.ofJson?_toJson_iff]

end

end Column

theorem Schema.ext_columns {a b : Schema} (h : a.columns = b.columns) : a = b := by
  cases a; cases b; cases h; rfl

theorem Schema.columns_foldl_set (columns : List Column) (schema : Schema) :
    (columns.foldl set schema).columns =
      schema.columns.insertAll (columns.map fun column => (column.name, column)) := by
  induction columns generalizing schema with
  | nil => rfl
  | cons column columns ih => rw [List.foldl_cons, ih]; rfl

/-- Stored columns that are set one after the other give the stored schema. -/
theorem Schema.foldl_set_stored (schema : Schema) :
    (schema.columns.entries.map fun entry => entry.2.stored).foldl set empty = schema.stored := by
  have hpairs : (schema.columns.entries.map fun entry => entry.2.stored).map
      (fun column => (column.name, column)) =
        schema.columns.entries.map fun entry => (entry.1, entry.2.stored) := by
    rw [List.map_map]
    exact List.map_congr_left fun entry he => by
      rw [Function.comp_apply, Column.stored, schema.named entry he]
  refine ext_columns ?_
  rw [columns_foldl_set, hpairs]
  exact KeyedMap.ofList_map_entries schema.columns Column.stored

/-- Under the names of the schema no column takes the place of another, so the columns that give the
stored schema are its columns. -/
theorem Schema.eq_map_stored_of_foldl_set {schema : Schema} {columns : List Column}
    (hnames : columns.map (·.name) = schema.columns.keys)
    (h : columns.foldl set empty = schema.stored) :
    columns = schema.columns.entries.map fun entry => entry.2.stored := by
  have hkeys : entryKeys (columns.map fun column => (column.name, column)) =
      schema.columns.keys := by
    rw [← hnames, entryKeys, List.map_map]
    rfl
  have hentries : (KeyedMap.ofList (columns.map fun column => (column.name, column))).entries =
      schema.stored.columns.entries := by
    rw [← h, columns_foldl_set]
    rfl
  rw [KeyedMap.entries_ofList (hkeys ▸ schema.columns.distinct)] at hentries
  have hvalues := congrArg (List.map Prod.snd) hentries
  simpa [stored, KeyedMap.mapWithKey, Function.comp_def] using hvalues

section
variable [FloatReader]

/-- The columns of a schema are read one by one. -/
theorem Schema.ofJson?_toJson (schema : Schema) : Schema.ofJson? schema.toJson.asRead =
    (schema.columns.entries.mapM fun entry =>
      Column.ofJson? entry.1 entry.2.toJson.asRead).map fun columns => columns.foldl set empty := by
  simp [toJson, ofJson?, Json.asRead, Json.fieldsAsRead, KeyedMap.toJson, Json.fieldsAsRead_eq,
    Json.soleField?, Function.comp_def, List.mapM_map, Option.map_eq_bind]

theorem Schema.ofJson?_toJson_iff {schema : Schema} :
    Schema.ofJson? schema.toJson.asRead = some schema.stored ↔
      ∀ column ∈ schema.list, ∀ value, column.default? = some value → value.FloatReadsBack := by
  have hcolumn : ∀ entry ∈ schema.columns.entries, Column.ofJson? entry.1 entry.2.toJson.asRead =
      some entry.2.stored ↔ ∀ value, entry.2.default? = some value → value.FloatReadsBack := by
    intro entry he
    rw [← schema.named entry he, Column.ofJson?_toJson_iff]
  rw [ofJson?_toJson, list, KeyedMap.values, List.forall_mem_map]
  constructor
  · intro h
    obtain ⟨columns, hread, hcolumns⟩ := Option.map_eq_some_iff.mp h
    have hall := mapM_eq_some_iff.mp hread
    have hnames : columns.map (·.name) = schema.columns.keys :=
      List.forall₂_eq_eq_eq ▸ List.forall₂_map_left_iff.mpr (List.forall₂_map_right_iff.mpr
        (hall.flip.imp fun column entry hentry => Column.name_of_ofJson? hentry))
    rw [eq_map_stored_of_foldl_set hnames hcolumns, List.forall₂_map_right_iff,
      List.forall₂_same] at hall
    exact fun entry he => (hcolumn entry he).mp (hall entry he)
  · intro hdefaults
    rw [mapM_eq_some fun entry he => (hcolumn entry he).mpr (hdefaults entry he), Option.map_some,
      foldl_set_stored]

end

/-! ## Indexes -/

theorem Index.ofJson?_toJson [FloatReader] (index : Index) :
    Index.ofJson? index.toJson.asRead = some index := by
  have hids : ∀ ids : List RecordId,
      idsOfJson? (Json.array (ids.map .text)).asRead = some ids := by
    intro ids
    rw [Json.asRead, Json.itemsAsRead_eq, idsOfJson?, Json.items?_array, Option.bind_eq_bind,
      Option.bind_some, List.map_map, List.mapM_map]
    rw [mapM_eq_some (g := id) fun s _ => by simp [Json.asRead], List.map_id]
  have hread := KeyedMap.ofJson?_objectOf (fun ids : List RecordId => Json.array (ids.map .text))
    idsOfJson? index.buckets.entries
  rw [KeyedMap.mapEntries?_eq_self hids] at hread
  exact congrArg (Option.map Index.mk) hread

theorem Index.allOfJson?_toJson [FloatReader] (indexes : KeyedMap TableIndexes) :
    KeyedMap.ofJson? (KeyedMap.ofJson? Index.ofJson?)
      (indexes.toJson (KeyedMap.toJson Index.toJson)).asRead = some indexes := by
  have htable : ∀ own : TableIndexes,
      KeyedMap.ofJson? Index.ofJson? (own.toJson Index.toJson).asRead = some own := fun own =>
    (KeyedMap.ofJson?_objectOf Index.toJson Index.ofJson? own.entries).trans
      (KeyedMap.mapEntries?_eq_self Index.ofJson?_toJson own)
  exact (KeyedMap.ofJson?_objectOf (KeyedMap.toJson Index.toJson) (KeyedMap.ofJson? Index.ofJson?)
    indexes.entries).trans (KeyedMap.mapEntries?_eq_self htable indexes)

/-! ## Contents -/

structure TableContent where
  schema : Schema
  records : List (RecordId × Record)
  deriving DecidableEq

structure CatalogContent where
  tables : KeyedMap TableContent
  indexes : KeyedMap TableIndexes
  deriving DecidableEq

def Table.content (table : Table) : TableContent := ⟨table.schema, table.records.entries⟩

def Catalog.content (catalog : Catalog) : CatalogContent :=
  ⟨catalog.tables.mapWithKey fun _ => Table.content, catalog.indexes⟩

namespace TableContent

def stored (content : TableContent) : TableContent :=
  ⟨content.schema.stored, content.records.map fun entry => (entry.1, Record.stored entry.2)⟩

def table (content : TableContent) : Table := ⟨content.schema, .ofList content.records⟩

end TableContent

namespace CatalogContent

def stored (content : CatalogContent) : CatalogContent :=
  ⟨content.tables.mapWithKey fun _ => TableContent.stored, content.indexes⟩

def catalog (content : CatalogContent) : Catalog :=
  ⟨content.tables.mapWithKey fun _ => TableContent.table, content.indexes⟩

end CatalogContent

/-! ## Splitting and joining -/

namespace Document

/-- Each schema takes the records under its name, and the others are left. -/
theorem foldl_joinSchema {schemas : List (String × Schema)} (h : (entryKeys schemas).Nodup)
    (records : KeyedMap (KeyedMap Record)) (tables : KeyedMap Table) :
    (schemas.foldl joinSchema (records, tables)).1.entries =
        records.entries.filter (fun entry => !(entryKeys schemas).contains entry.1) ∧
      (schemas.foldl joinSchema (records, tables)).2 = tables.insertAll
        (schemas.map fun entry =>
          (entry.1, tableOf entry.2 ((records.find? entry.1).getD .empty))) := by
  induction schemas generalizing records tables with
  | nil => exact ⟨(List.filter_eq_self.mpr fun _ _ => rfl).symm, rfl⟩
  | cons entry schemas ih =>
    obtain ⟨hfirst, hrest⟩ := List.nodup_cons.mp h
    obtain ⟨hleft, hjoined⟩ := ih hrest (records.erase entry.1)
      (tables.insert entry.1 (tableOf entry.2 ((records.find? entry.1).getD .empty)))
    constructor
    · rw [List.foldl_cons, joinSchema, hleft, KeyedMap.erase, List.filter_filter]
      refine List.filter_congr fun found _ => ?_
      have hkeys : entryKeys (entry :: schemas) = entry.1 :: entryKeys schemas := rfl
      rw [hkeys, List.contains_cons, Bool.not_or, Bool.and_comm]
      rfl
    · rw [List.foldl_cons, joinSchema, hjoined, List.map_cons, KeyedMap.insertAll_cons]
      congr 1
      refine List.map_congr_left fun other hother => ?_
      have hne : other.1 ≠ entry.1 := fun e => hfirst (e ▸ List.mem_map_of_mem hother)
      rw [KeyedMap.find?_erase, if_neg hne]

/-- The parts of a catalog join to its tables again, if every index is of a table. -/
theorem toCatalog_split {α : Type} (tables : KeyedMap α) (schema : α → Schema)
    (records : α → KeyedMap Record) {indexes : KeyedMap TableIndexes}
    (h : ∀ name ∈ indexes.keys, name ∈ tables.keys) :
    toCatalog ⟨tables.mapWithKey fun _ => records, tables.mapWithKey fun _ => schema, indexes⟩ =
      ⟨tables.mapWithKey fun _ a => tableOf (schema a) (records a), indexes⟩ := by
  obtain ⟨hleft, hjoined⟩ := foldl_joinSchema (tables.mapWithKey fun _ => schema).distinct
    (tables.mapWithKey fun _ => records) .empty
  -- Every list of records has a schema, so none is left for a table with an empty schema.
  have hnone : ∀ entry ∈ (tables.mapWithKey fun _ => records).entries,
      (!(entryKeys (tables.mapWithKey fun _ => schema).entries).contains entry.1) = false := by
    intro entry he
    have hkey : entry.1 ∈ (tables.mapWithKey fun _ => records).keys := List.mem_map_of_mem he
    rw [KeyedMap.keys_mapWithKey, ← KeyedMap.keys_mapWithKey fun _ => schema] at hkey
    simpa [KeyedMap.keys] using hkey
  rw [List.filter_eq_nil_iff.mpr fun entry he => by rw [hnone entry he]; decide] at hleft
  have htables : ((tables.mapWithKey fun _ => schema).entries.map fun entry =>
      (entry.1, tableOf entry.2 (((tables.mapWithKey fun _ => records).find? entry.1).getD
        .empty))) = (tables.mapWithKey fun _ a => tableOf (schema a) (records a)).entries := by
    simp only [KeyedMap.mapWithKey, List.map_map]
    refine List.map_congr_left fun entry he => ?_
    have hfind := KeyedMap.find?_mapWithKey (fun _ => records) tables entry.1
    rw [KeyedMap.find?_eq_some_iff.mpr he, Option.map_some] at hfind
    simp only [Function.comp_apply]
    rw [KeyedMap.mapWithKey] at hfind
    rw [hfind, Option.getD_some]
  have hindexes : indexes.entries.filter (fun entry =>
      (tables.mapWithKey fun _ a => tableOf (schema a) (records a)).contains entry.1) =
        indexes.entries := by
    refine List.filter_eq_self.mpr fun entry he => ?_
    have hkey := h entry.1 (List.mem_map_of_mem he)
    simpa [KeyedMap.contains] using hkey
  rw [htables, ← KeyedMap.ofList, KeyedMap.ofList_entries] at hjoined
  simp only [toCatalog, hleft, hjoined, List.map_nil]
  rw [KeyedMap.insertAll, List.foldl_nil, hindexes, KeyedMap.ofList_entries]

end Document

section
variable [FloatReader]

structure Table.FloatsReadBack (table : Table) : Prop where
  defaults : ∀ column ∈ table.schema.list, ∀ value, column.default? = some value →
    value.FloatReadsBack
  values : ∀ entry ∈ table.records.entries, ∀ field ∈ entry.2.entries, field.2.FloatReadsBack

def Catalog.FloatsReadBack (catalog : Catalog) : Prop :=
  ∀ entry ∈ catalog.tables.entries, entry.2.FloatsReadBack

theorem Catalog.floatsReadBack {catalog : Catalog}
    (h : ∀ place, Binary64.reread? place = some place) : Catalog.FloatsReadBack catalog := by
  have hvalue : ∀ v : Value, v.FloatReadsBack := by
    intro v
    cases v with
    | float x => cases x <;> first | exact h _ | trivial
    | integer | boolean | text => trivial
  exact fun _ _ => ⟨fun _ _ v _ => hvalue v, fun _ _ field _ => hvalue field.2⟩

instance : DecidablePred Table.FloatsReadBack := fun table =>
  decidable_of_iff ((∀ column ∈ table.schema.list, ∀ value ∈ column.default?,
      value.FloatReadsBack) ∧ ∀ entry ∈ table.records.entries, ∀ field ∈ entry.2.entries, field.2.FloatReadsBack)
    ⟨fun h => ⟨h.1, h.2⟩, fun h => ⟨h.defaults, h.values⟩⟩

instance : DecidablePred Catalog.FloatsReadBack := fun catalog =>
  inferInstanceAs (Decidable (∀ entry ∈ catalog.tables.entries, entry.2.FloatsReadBack))

def Table.readRecords? (table : Table) : Option (KeyedMap Record) :=
  KeyedMap.mapEntries? (fun record => Record.ofJson? record.toJson.asRead) table.records.entries

def Table.readSchema? (table : Table) : Option Schema := Schema.ofJson? table.schema.toJson.asRead

end

namespace Catalog

variable [FloatReader]

/-- The parts of a catalog as they are read: the records and the schemas of its tables, and its
indexes. -/
theorem ofJson?_ofCatalog (time : String) (catalog : Catalog) :
    Document.ofJson? (Document.ofCatalog time catalog).asRead = (do
      let tables ← KeyedMap.mapEntries? Table.readRecords? catalog.tables.entries
      let schemas ← KeyedMap.mapEntries? Table.readSchema? catalog.tables.entries
      return ⟨tables, schemas, catalog.indexes⟩) := by
  have hrecords : (fun table : Table => KeyedMap.ofJson? Record.ofJson?
      (Document.objectOf Record.toJson table.records.entries).asRead) = Table.readRecords? :=
    funext fun table =>
      KeyedMap.ofJson?_objectOf Record.toJson Record.ofJson? table.records.entries
  have htables := KeyedMap.ofJson?_objectOf
    (fun table : Table => Document.objectOf Record.toJson table.records.entries)
    (KeyedMap.ofJson? Record.ofJson?) catalog.tables.entries
  rw [hrecords] at htables
  have hschemas : KeyedMap.ofJson? Schema.ofJson? (Document.objectOf
      (fun table : Table => table.schema.toJson) catalog.tables.entries).asRead =
        KeyedMap.mapEntries? Table.readSchema? catalog.tables.entries :=
    KeyedMap.ofJson?_objectOf _ _ _
  have hindexes := Index.allOfJson?_toJson catalog.indexes
  simp [Document.ofJson?, Document.ofCatalog, Document.part?, Json.soleField?, Json.asRead,
    Json.fieldsAsRead, htables, hschemas, hindexes]

/-- The parts of a catalog whose floats are read back. -/
theorem ofJson?_ofCatalog_of_floats {catalog : Catalog} (h : catalog.FloatsReadBack)
    (time : String) : Document.ofJson? (Document.ofCatalog time catalog).asRead = some
      ⟨catalog.tables.mapWithKey fun _ table =>
          .ofList (table.records.entries.map fun entry => (entry.1, entry.2.stored)),
        catalog.tables.mapWithKey fun _ table => table.schema.stored, catalog.indexes⟩ := by
  have hrecords : ∀ entry ∈ catalog.tables.entries, entry.2.readRecords? =
      some (.ofList (entry.2.records.entries.map fun entry => (entry.1, entry.2.stored))) :=
    fun entry he => KeyedMap.mapEntries?_eq_map fun field hf =>
      Record.ofJson?_toJson_iff.mpr ((h entry he).values field hf)
  have hschemas : ∀ entry ∈ catalog.tables.entries,
      entry.2.readSchema? = some entry.2.schema.stored :=
    fun entry he => Schema.ofJson?_toJson_iff.mpr (h entry he).defaults
  have hrecords := @KeyedMap.mapEntries?_eq_map _ _ Table.readRecords? _ (fun table =>
    .ofList (table.records.entries.map fun entry => (entry.1, entry.2.stored))) hrecords
  have hschemas := @KeyedMap.mapEntries?_eq_map _ _ Table.readSchema? _
    (fun table => table.schema.stored) hschemas
  rw [ofJson?_ofCatalog, hrecords, hschemas, KeyedMap.ofList_map_entries catalog.tables fun table =>
    KeyedMap.ofList (table.records.entries.map fun entry => (entry.1, entry.2.stored)),
    KeyedMap.ofList_map_entries catalog.tables fun table => table.schema.stored]
  rfl

theorem ofOctets?_toOctets_eq (indented : Bool) (time : String) (catalog : Catalog) :
    ofOctets? (catalog.toOctets indented time) =
      (Document.ofJson? (Document.ofCatalog time catalog).asRead).map Document.toCatalog := by
  simp only [toOctets, ofOctets?, Document.legible, Text.Utf8.decode?_encode, fileText,
    Json.read?_render, Option.bind_eq_bind, Option.bind_some]
  exact Option.map_eq_bind.symm

theorem ofOctets?_toOctets {catalog : Catalog}
    (h : ∀ name ∈ catalog.indexes.keys, name ∈ catalog.tables.keys)
    (hfloats : catalog.FloatsReadBack) (indented : Bool) (time : String) :
    ofOctets? (catalog.toOctets indented time) = some catalog.content.stored.catalog := by
  rw [ofOctets?_toOctets_eq, ofJson?_ofCatalog_of_floats hfloats, Option.map_some,
    Document.toCatalog_split catalog.tables _ _ h]
  simp only [CatalogContent.catalog, CatalogContent.stored, content, KeyedMap.mapWithKey,
    List.map_map]
  rfl

end Catalog

end Rowfile

import Rowfile.Proofs.Readers
import Rowfile.Proofs.Storing

/-!
# Declared columns

The columns of a CREATE TABLE are read from its declarations one by one and are added at the end, each
under a new name. So the columns of the table are in the order of the declarations that are not empty,
and every column is what the words of its declaration leave: its default, if it has one, is written by
one of these words and fits its type.
-/
namespace Rowfile

/-! ## Columns added one by one -/

namespace Schema

theorem add?_of_not_mem {schema : Schema} {column : Column} (h : column.name ∉ schema.names) :
    schema.add? column = some (schema.set column) := by
  have hnew : schema.columns.contains column.name = false := by
    rw [KeyedMap.contains, List.contains_eq_mem, decide_eq_false_iff_not]
    exact h
  rw [add?, hnew]
  rfl

theorem add?_eq_some {schema schema' : Schema} {column : Column}
    (h : schema.add? column = some schema') :
    column.name ∉ schema.names ∧ schema.set column = schema' := by
  rw [add?] at h
  split at h
  · cases h
  · next hnew =>
    rw [KeyedMap.contains, List.contains_iff_mem] at hnew
    exact ⟨hnew, Option.some.inj h⟩

theorem entries_set {schema : Schema} {column : Column} (h : column.name ∉ schema.names) :
    (schema.set column).columns.entries = schema.columns.entries ++ [(column.name, column)] :=
  KeyedMap.setEntry_of_not_mem column h

theorem names_set {schema : Schema} {column : Column} (h : column.name ∉ schema.names) :
    (schema.set column).names = schema.names ++ [column.name] := by
  rw [names, KeyedMap.keys, entries_set h, entryKeys, List.map_append]
  rfl

theorem list_set {schema : Schema} {column : Column} (h : column.name ∉ schema.names) :
    (schema.set column).list = schema.list ++ [column] := by
  rw [list, KeyedMap.values, entries_set h, List.map_append]
  rfl

/-- Columns under new and distinct names are added at the end. -/
theorem list_foldl_add (schema : Schema) {columns : List Column}
    (h : (schema.names ++ columns.map Column.name).Nodup) :
    (columns.foldl (fun schema column => (schema.add? column).getD schema) schema).list =
      schema.list ++ columns := by
  induction columns generalizing schema with
  | nil => exact (List.append_nil _).symm
  | cons column columns ih =>
    have hnew : column.name ∉ schema.names := fun hm =>
      (List.nodup_append.mp h).2.2 _ hm _ List.mem_cons_self rfl
    rw [List.map_cons, List.append_cons, ← names_set hnew] at h
    rw [List.foldl_cons, add?_of_not_mem hnew, Option.getD_some, ih _ h, list_set hnew,
      List.append_assoc, List.singleton_append]

/-- Columns of distinct names make up a schema with just these columns. -/
theorem list_ofColumns {columns : List Column} (h : (columns.map Column.name).Nodup) :
    (ofColumns columns).list = columns :=
  list_foldl_add empty h

end Schema

/-! ## What a declaration leaves -/

namespace ColumnText

/-- A default that is there after the words was there before them, or one of the words writes it. -/
theorem default?_readWords {column : Column} {words : List (List Char)} {value : Value}
    (h : (readWords column words).default? = some value) :
    column.default? = some value ∨ ∃ word ∈ words, Value.ofLiteral word = value := by
  fun_induction readWords column words with
  | case1 | case6 => exact .inl h
  | case7 column token hkeyword hunique hdefault written rest hprimary hnull ih =>
    rcases ih h with hwritten | ⟨word, hword, hvalue⟩
    · exact .inr ⟨written, by simp, Option.some.inj hwritten⟩
    · exact .inr ⟨word, by simp [hword], hvalue⟩
  | _ =>
    next ih =>
    rcases ih h with hbefore | ⟨word, hword, hvalue⟩
    · exact .inl hbefore
    · exact .inr ⟨word, List.mem_cons_of_mem _ hword, hvalue⟩

theorem read_eq_ok_iff {text : List Char} {column : Column} : ColumnText.read text = .ok column ↔
    ∃ name words, Split.atBlanks? text = some (name :: words) ∧
      readWords { name := String.ofList name, type := .text } words = column ∧
      ∀ value, column.default? = some value → value.fits column.type = true := by
  simp only [read, bind_eq_ok, Clause.orTorn_eq_ok]
  constructor
  · rintro ⟨tokens, htokens, h⟩
    cases tokens with
    | nil => cases h
    | cons name words =>
      refine ⟨name, words, htokens, ?_⟩
      dsimp only at h
      split at h
      · next value hvalue =>
        split at h
        · next hfits =>
          obtain rfl := Except.ok.inj h
          refine ⟨rfl, fun found hfound => ?_⟩
          obtain rfl := Option.some.inj (hvalue.symm.trans hfound)
          exact hfits
        · cases h
      · next hnone =>
        obtain rfl := Except.ok.inj h
        exact ⟨rfl, fun found hfound => by rw [hnone] at hfound; cases hfound⟩
  · rintro ⟨name, words, htokens, rfl, hfits⟩
    refine ⟨name :: words, htokens, ?_⟩
    dsimp only
    split
    · next value hvalue => rw [if_pos (hfits value hvalue)]; rfl
    · rfl

/-- The default of a declared column is written by a word of the declaration. -/
theorem exists_ofLiteral_of_read {text : List Char} {column : Column} {value : Value}
    (h : ColumnText.read text = .ok column) (hvalue : column.default? = some value) :
    ∃ word, Value.ofLiteral word = value := by
  obtain ⟨name, words, _, rfl, _⟩ := read_eq_ok_iff.mp h
  rcases default?_readWords hvalue with hnone | ⟨word, _, hword⟩
  · cases hnone
  · exact ⟨word, hword⟩

theorem fits_of_read {text : List Char} {column : Column} {value : Value}
    (h : ColumnText.read text = .ok column) (hvalue : column.default? = some value) :
    value.fits column.type = true := by
  obtain ⟨_, _, _, _, hfits⟩ := read_eq_ok_iff.mp h
  exact hfits value hvalue

end ColumnText

/-! ## The columns of a table -/

namespace Statement

/-- Each declaration that is not empty adds the column that it declares. -/
theorem readColumns_eq_ok {table : String} {schema schema' : Schema}
    {declarations : List (List Char)} (h : readColumns table schema declarations = .ok schema') :
    ∃ columns, schema'.list = schema.list ++ columns ∧
      List.Forall₂ (fun column text => ColumnText.read text = .ok column) columns
        (declarations.filter fun text => !text.isEmpty) := by
  induction declarations generalizing schema with
  | nil =>
    obtain rfl := Except.ok.inj h
    exact ⟨[], (List.append_nil _).symm, .nil⟩
  | cons text rest ih =>
    rw [readColumns] at h
    split at h
    · next hempty =>
      rw [List.filter_cons_of_neg (by simp [hempty])]
      exact ih h
    · next hempty =>
      obtain ⟨column, hcolumn, h⟩ := bind_eq_ok.mp h
      split at h
      · next hadd =>
        obtain ⟨hnew, rfl⟩ := Schema.add?_eq_some hadd
        obtain ⟨columns, hlist, hcolumns⟩ := ih h
        rw [List.filter_cons_of_pos (by simp [hempty])]
        refine ⟨column :: columns, ?_, .cons hcolumn hcolumns⟩
        rw [hlist, Schema.list_set hnew, List.append_assoc, List.singleton_append]
      · cases h

/-- Every column of a table that is read from declarations is one of the columns before, or it is
read from a declaration. -/
theorem exists_read_of_mem_list {table : String} {schema schema' : Schema}
    {declarations : List (List Char)} (h : readColumns table schema declarations = .ok schema')
    {column : Column} (hcolumn : column ∈ schema'.list) :
    column ∈ schema.list ∨ ∃ text, ColumnText.read text = .ok column := by
  obtain ⟨columns, hlist, hcolumns⟩ := readColumns_eq_ok h
  rw [hlist, List.mem_append] at hcolumn
  rcases hcolumn with hbefore | hadded
  · exact .inl hbefore
  · obtain ⟨text, -, hread⟩ := exists_mem_of_forall₂ hcolumns hadded
    exact .inr ⟨text, hread⟩

end Statement

end Rowfile

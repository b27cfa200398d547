import Rowfile.Proofs.BoundValues
import Rowfile.Proofs.Lifetimes
import Rowfile.Proofs.WrittenInserts

/-!
# Shown values typed back

What shows a value of an INT, FLOAT or BOOLEAN column can be typed back as a literal without quotes. A
negative number has no literal of its own and becomes a text, which the column then reads with its
sign; every other such value is read at once. So a row that is shown and entered again, its texts
between quotes, is stored as the same record under the same id.
-/
namespace Rowfile

open Masked

/-- A column of the type keeps the reading of a value and not the value itself. -/
def ColumnType.keepsReading : ColumnType → Bool
  | .int | .float | .boolean => true
  | .text | .date => false

/-- The values that columns keep as readings: integers of 64 bits, finite numbers and truth values. -/
inductive Value.Reading : ColumnType → Value → Prop
  | integer (n : Int64) : Reading .int (.integer n)
  | float {x : Binary64} : x.isFinite = true → Reading .float (.float x)
  | boolean (b : Bool) : Reading .boolean (.boolean b)

/-- What shows the value, read as a literal, fits a column of the type and is kept there as the
value. -/
structure Value.TypedBack (type : ColumnType) (v : Value) : Prop where
  fits : (Value.ofLiteral v.shownChars).fits type = true
  kept : (Value.ofLiteral v.shownChars).conform type = v

/-! ## Shown numbers and truth values -/

section
variable {cs : List Char}

theorem trimmed_minus (h : SolidWord cs) : Trimmed ('-' :: cs) := by
  have hminus : Trimmed ['-'] := ⟨by simp; decide, by simp; decide⟩
  exact hminus.around (List.cons_ne_nil _ _) [] h.visible.trimmed h.nonempty

/-- No literal has a sign: a solid word behind a minus is a text. -/
theorem Value.ofLiteral_minus (h : SolidWord cs) :
    Value.ofLiteral ('-' :: cs) = .text (String.ofList ('-' :: cs)) := by
  have htrue : Text.asciiCaseEq ('-' :: cs) "TRUE".toList = false :=
    asciiCaseEq_of_head (by decide) _ _
  have hfalse : Text.asciiCaseEq ('-' :: cs) "FALSE".toList = false :=
    asciiCaseEq_of_head (by decide) _ _
  have hdigits : ∀ ds, isDigits ('-' :: ds) = false := fun _ => rfl
  have herase : ('-' :: cs).erase '.' = '-' :: cs.erase '.' := List.erase_cons_tail (by decide)
  unfold Value.ofLiteral
  dsimp only
  rw [(trimmed_minus h).trim_eq, stripQuotes?_of_first (by decide), htrue, hfalse, herase]
  simp only [hdigits, Bool.false_eq_true, if_false]

end

namespace Value

/-- A literal of a value that the column keeps is taken as the value. -/
theorem typedBack_of_ofLiteral {type : ColumnType} {v : Value} (hof : v.isOf type = true)
    (h : ofLiteral v.shownChars = v) : v.TypedBack type :=
  ⟨by rw [h]; exact fits_of_isOf hof, by rw [h]; exact conform_of_isOf hof⟩

/-- A solid word behind a minus is typed back when the column reads it, taken as a text, as the
value. -/
theorem typedBack_of_minus {type : ColumnType} {v : Value} {cs : List Char} (h : SolidWord cs)
    (hshown : v.shownChars = '-' :: cs)
    (hfits : (Value.text (String.ofList ('-' :: cs))).fits type = true)
    (hkept : (Value.text (String.ofList ('-' :: cs))).conform type = v) : v.TypedBack type := by
  constructor
  · rw [hshown, ofLiteral_minus h, hfits]
  · rw [hshown, ofLiteral_minus h, hkept]

theorem typedBack_integer (n : Int64) : (Value.integer n).TypedBack .int := by
  by_cases hn : 0 ≤ n.toInt
  · exact typedBack_of_ofLiteral rfl (Written.integer hn).ofLiteral_eq
  · have hneg : n.toInt < 0 := by omega
    have hword := solidWord_of_digitRun (digitRun_digits n.toInt.natAbs)
    have hread := Decimal.readInt?_signed n.toInt
    rw [if_pos hneg] at hread
    have hreading : (Value.text (String.ofList ('-' :: digits n.toInt.natAbs))).asInteger? =
        some n := by
      rw [asInteger?, String.toList_ofList, (trimmed_minus hword).trim_eq, hread, Option.bind_some,
        int64?_toInt]
    have hshown : (Value.integer n).shownChars = '-' :: digits n.toInt.natAbs := if_pos hneg
    apply typedBack_of_minus hword hshown
    · rw [fits, hreading, Option.isSome_some]
    · rw [conform, hreading, Option.map_some, Option.getD_some]

theorem typedBack_float {x : Binary64} (hx : x.isFinite = true) :
    (Value.float x).TypedBack .float := by
  cases x with
  | finite negative place =>
    obtain ⟨whole, part, hwhole, hpart, htext, hvalue⟩ := Binary64.exists_fractionText negative place
    have hread := Binary64.read?_signed negative hwhole hpart
    rw [hvalue] at hread
    cases negative with
    | false =>
      have hof : (Value.float (.finite false place)).isOf .float = true := hx
      apply typedBack_of_ofLiteral hof
      rw [shownChars, htext]
      exact ofLiteral_point hwhole hpart hx hvalue
    | true =>
      have hword := solidWord_point hwhole hpart
      have hreading : (Value.text (String.ofList ('-' :: (whole ++ '.' :: part)))).asNumber? =
          some (.finite true place) := by
        rw [asNumber?, String.toList_ofList, (trimmed_minus hword).trim_eq]
        exact hread
      have hshown : (Value.float (.finite true place)).shownChars = '-' :: (whole ++ '.' :: part) :=
        htext
      apply typedBack_of_minus hword hshown
      · rw [fits, hreading, Option.any_some, hx]
      · rw [conform, hreading, Option.map_some, Option.getD_some]
  | infinite negative => cases hx
  | nan => cases hx

theorem typedBack_boolean (b : Bool) : (Value.boolean b).TypedBack .boolean :=
  typedBack_of_ofLiteral rfl (Written.boolean b).ofLiteral_eq

namespace Reading

variable {type : ColumnType} {v : Value}

/-- What shows a reading is typed back in the column that keeps it. -/
theorem typedBack (h : Reading type v) : v.TypedBack type := by
  cases h with
  | integer n => exact typedBack_integer n
  | float hx => exact typedBack_float hx
  | boolean b => exact typedBack_boolean b

/-- What shows a reading is a solid word, or a minus and a solid word. -/
theorem exists_shownChars (h : Reading type v) :
    ∃ negative cs, SolidWord cs ∧ v.shownChars = Binary64.signText negative ++ cs := by
  cases h with
  | integer n =>
    refine ⟨decide (n.toInt < 0), digits n.toInt.natAbs,
      solidWord_of_digitRun (digitRun_digits _), ?_⟩
    by_cases hneg : n.toInt < 0
    · rw [decide_eq_true hneg]
      exact if_pos hneg
    · rw [decide_eq_false hneg]
      exact if_neg hneg
  | @float x hx =>
    cases x with
    | finite negative place =>
      obtain ⟨whole, part, hwhole, hpart, htext, -⟩ := Binary64.exists_fractionText negative place
      exact ⟨negative, _, solidWord_point hwhole hpart, htext⟩
    | infinite negative => cases hx
    | nan => cases hx
  | boolean b => exact ⟨false, _, (Written.boolean b).solidWord, rfl⟩

/-- It stands whole in a list. -/
theorem listItem (h : Reading type v) : ListItem v.shownChars := by
  obtain ⟨negative, cs, hword, hshown⟩ := h.exists_shownChars
  rw [hshown]
  cases negative with
  | false => exact hword.listItem
  | true =>
    have hminus : Shown isListed ['-'] := shown_of_all (by decide)
    exact ⟨hminus.append hword.listItem.toShown, trimmed_minus hword, List.cons_ne_nil _ _⟩

end Reading

/-- The tokens by which a value is entered again: what shows it, where its column keeps readings, and
its literals elsewhere. -/
inductive Retyped : ColumnType → Value → List Char → Prop
  | shown {type : ColumnType} {v : Value} : Reading type v → Retyped type v v.shownChars
  | written {type : ColumnType} {v : Value} {token : List Char} : type.keepsReading = false →
      v.Written token → Retyped type v token

namespace Retyped

variable {type : ColumnType} {v : Value} {token : List Char}

theorem kept (h : Retyped type v token) :
    (ofLiteral token).fits type = true ∧ (ofLiteral token).conform type = v := by
  cases h with
  | shown hreading => exact ⟨hreading.typedBack.fits, hreading.typedBack.kept⟩
  | written hkeeps hwritten =>
    rw [hwritten.ofLiteral_eq]
    cases type with
    | text => exact ⟨rfl, rfl⟩
    | date => exact ⟨rfl, rfl⟩
    | _ => cases hkeeps

theorem listItem (h : Retyped type v token) : ListItem token := by
  cases h with
  | shown hreading => exact hreading.listItem
  | written _ hwritten => exact hwritten.solidWord.listItem

end Retyped

end Value

/-! ## Records entered again -/

/-- Each token enters the value of its column again. -/
def Schema.Retyped (schema : Schema) (record : Record) (tokens : List (List Char)) : Prop :=
  List.Forall₂ (fun entry token => ∃ column, schema.column? entry.1 = some column ∧
    entry.2.Retyped column.type token) record.entries tokens

namespace Schema.Retyped

variable {schema : Schema} {id : RecordId} {record : Record} {tokens : List (List Char)}

theorem length_eq (h : schema.Retyped record tokens) : record.keys.length = tokens.length := by
  have hlength := List.Forall₂.length_eq h
  rwa [KeyedMap.keys, entryKeys, List.length_map]

/-- A row that the schema admits is entered again as it is. -/
theorem boundColumns (h : schema.Retyped record tokens) (hadmits : schema.Admits id record)
    {table : Table} (hschema : table.schema = schema) (name : String) :
    table.boundColumns name (some record.keys) (tokens.map Value.ofLiteral).length =
      .ok record.keys := by
  subst hschema
  have hknown : (record.keys.find? fun key => (table.schema.column? key).isNone) = none := by
    rw [List.find?_eq_none]
    intro key hkey
    simp [Option.isSome_iff_ne_none.mp (hadmits.known key hkey)]
  unfold Table.boundColumns
  simp only [List.length_map, h.length_eq, ne_eq, not_true_eq_false, if_false, hknown]

end Schema.Retyped

section
variable {σ : Type} [Store σ]

end

end Rowfile

import Rowfile.KeyedMap
import Rowfile.PositionedMap
import Rowfile.Value.Basic
import Rowfile.Json.Basic

/-!
# Records and their documents

A record maps column names to values in column order. Values, records and maps in general are kept
as JSON: a value as a bare number, truth value or text, a map as an object. A number that is not
finite has no JSON number and is kept as the text by which it is shown.

A record is a map of distinct keys without a table of positions. `Rowfile.Proofs.SettledMaps` says why
that is all there is to see of a map from which nothing was dropped in bulk. A caller who drops fields
in bulk from a record and then hands it in has a map that records more than its fields; such a record
is not represented here.
-/
namespace Rowfile

abbrev Record := KeyedMap Value

/-- The shown primary key of a record. -/
abbrev RecordId := String

namespace Value

def toJson : Value → Json
  | .integer n => .integer n.toInt
  | .float (.finite negative place) => .number negative place
  | .float x => .text (String.ofList x.plainText)
  | .boolean b => .boolean b
  | .text s => .text s

def ofJson? : Json → Option Value
  | .integer n =>
    match int64? n with
    | some i => some (.integer i)
    | none => some (.float (Binary64.ofInt n))
  | .number negative place => some (.float (.finite negative place))
  | .boolean b => some (.boolean b)
  | .text s => some (.text s)
  | _ => none

end Value

namespace KeyedMap

variable {V : Type}

def toJson (document : V → Json) (m : KeyedMap V) : Json :=
  .object (m.entries.map fun entry => (entry.1, document entry.2))

/-- The map that an object holds, if each of its fields can be read. A repeated field keeps its first
place and takes the last value. -/
def ofJson? (value : Json → Option V) (document : Json) : Option (KeyedMap V) := do
  let fields ← document.fields?
  let entries ← fields.mapM fun field => (value field.2).map (field.1, ·)
  return ofList entries

end KeyedMap

namespace Record

def shows (record : Record) (column shown : String) : Bool :=
  (record.find? column).any fun value => value.shown == shown

theorem shows_iff {record : Record} {column shown : String} :
    record.shows column shown = true ↔
      ∃ value, record.find? column = some value ∧ value.shown = shown := by
  simp [shows, Option.any_eq_true]

def toJson (record : Record) : Json := KeyedMap.toJson Value.toJson record

def ofJson? (document : Json) : Option Record := KeyedMap.ofJson? Value.ofJson? document

end Record

end Rowfile

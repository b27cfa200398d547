import Rowfile.Catalog.Basic
import Rowfile.Json.Printer
import Rowfile.Json.Reader
import Rowfile.Text.Utf8

/-!
# The stored document

A catalog is stored as one document with the records, the schemas and the indexes of its tables under
their names, and with the time of saving and the number of tables, which are not read back. A
document need not have been written from a catalog: records without a schema make a table with an
empty schema, a schema without records makes an empty table, and indexes of no table are left out. A
document, a schema and a column may also be written as arrays of their parts.
-/
namespace Rowfile

structure Document where
  tables : KeyedMap (KeyedMap Record)
  schemas : KeyedMap Schema
  indexes : KeyedMap TableIndexes
  deriving Repr

namespace Document

def objectOf {V : Type} (document : V → Json) (entries : List (String × V)) : Json :=
  .object (entries.map fun entry => (entry.1, document entry.2))

def ofCatalog (time : String) (catalog : Catalog) : Json :=
  .object [
    ("tables",
      objectOf (fun table => objectOf Record.toJson table.records.entries) catalog.tables.entries),
    ("schemas", objectOf (fun table => table.schema.toJson) catalog.tables.entries),
    ("indexes", KeyedMap.toJson (KeyedMap.toJson Index.toJson) catalog.indexes),
    ("metadata",
      .object [("last_updated", .text time), ("total_tables", .integer catalog.tables.size)])]

def part? {V : Type} (name : String) (value : Json → Option V) (fields : List (String × Json)) :
    Option (KeyedMap V) :=
  match Json.soleField? name fields with
  | none => none
  | some none => some .empty
  | some (some document) => KeyedMap.ofJson? value document

def ofJson? (document : Json) : Option Document := do
  let fields ← document.parts? ["tables", "schemas", "indexes"]
  return {
    tables := ← part? "tables" (KeyedMap.ofJson? Record.ofJson?) fields
    schemas := ← part? "schemas" Schema.ofJson? fields
    indexes := ← part? "indexes" (KeyedMap.ofJson? Index.ofJson?) fields }

def tableOf (schema : Schema) (records : KeyedMap Record) : Table :=
  ⟨schema, .ofKeyed records⟩

/-- Tables with one more schema, which takes the records under its name out of those that are
left. -/
def joinSchema (state : KeyedMap (KeyedMap Record) × KeyedMap Table) (entry : String × Schema) :
    KeyedMap (KeyedMap Record) × KeyedMap Table :=
  let records := (state.1.find? entry.1).getD .empty
  (state.1.erase entry.1, state.2.insert entry.1 (tableOf entry.2 records))

/-- The catalog that a document describes: a table for each schema, then a table for each list of
records that is left, then the indexes of these tables. -/
def toCatalog (document : Document) : Catalog :=
  let (left, tables) := document.schemas.entries.foldl joinSchema (document.tables, .empty)
  let tables := tables.insertAll (left.entries.map fun entry => (entry.1, tableOf .empty entry.2))
  let indexes := document.indexes.entries.filter fun entry => tables.contains entry.1
  ⟨tables, .ofList indexes⟩

/-- How an octet that belongs to no character is read: as two second halves of surrogate pairs. At
most one of them can be completed by what stands before, so the other names no character. It spoils a
text that is read and does no harm where nothing is read. Behind an open backslash it is no escape at
all. -/
def badOctet (escaped : Bool) : List Char :=
  if escaped then ['\x01'] else "\\udfff\\udfff".toList

/-- The characters of octets that need not be well formed. `owed` octets belong to the character
before them, and `escaped` says that a backslash is open. -/
def legibleFrom : Nat → Bool → List UInt8 → List Char
  | _, _, [] => []
  | owed + 1, escaped, _ :: r => legibleFrom owed escaped r
  | 0, escaped, b :: r =>
    let found := [1, 2, 3, 4].findSome? fun n => Text.Utf8.decode? ((b :: r).take n)
    match found with
    | some (c :: _) => c :: legibleFrom (Text.Utf8.width c - 1) (c == '\\' && !escaped) r
    | _ => badOctet escaped ++ legibleFrom 0 false r

def legible (octets : List UInt8) : List Char :=
  match Text.Utf8.decode? octets with
  | some cs => cs
  | none => legibleFrom 0 false octets

end Document

namespace Catalog

def fileText (indented : Bool) (time : String) (catalog : Catalog) : List Char :=
  (Document.ofCatalog time catalog).render (if indented then .indented 0 else .compact)

def toOctets (indented : Bool) (time : String) (catalog : Catalog) : List UInt8 :=
  Text.Utf8.encode (catalog.fileText indented time)

def ofOctets? [FloatReader] (octets : List UInt8) : Option Catalog := do
  let document ← Json.read? (Document.legible octets)
  return (← Document.ofJson? document).toCatalog

end Catalog

end Rowfile

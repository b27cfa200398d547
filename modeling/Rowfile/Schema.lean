import Rowfile.Fault
import Rowfile.Record

/-!
# Schemas

A schema is the list of the columns of a table under distinct names. Column order decides how the
values of an INSERT without a column list are bound. Filling, checking and converting a record are
separate steps: absent columns take their defaults, required columns must be there and each field
must fit its column, and each field is then kept as its column keeps it.
-/
namespace Rowfile

structure Column where
  name : String
  type : ColumnType
  primaryKey : Bool := false
  notNull : Bool := false
  unique : Bool := false
  default? : Option Value := none
  deriving DecidableEq, Repr

namespace Column

/-- The constraints of a column, each as it is written in a column declaration. -/
def constraints (column : Column) : List String :=
  (if column.primaryKey then ["PRIMARY KEY"] else []) ++
    (if column.notNull then ["NOT NULL"] else []) ++
    (if column.unique then ["UNIQUE"] else []) ++
    match column.default? with
    | some value => ["DEFAULT " ++ value.shown]
    | none => []

def misfit (column : Column) : Fault := .typeMismatch column.name column.type

def check (column : Column) (value : Value) : Except Fault Unit :=
  if value.fits column.type then .ok () else .error column.misfit

/-- A record with the default of the column, if the column is absent and has one. -/
def fill (column : Column) (record : Record) : Record :=
  if record.contains column.name then record
  else
    match column.default? with
    | some value => record.insert column.name value
    | none => record

/-- The object of a column: its type, the constraints that hold, and its default if it has one. The
name is left to the map that the column stands in. -/
def toJson (column : Column) : Json :=
  .object <|
    [("type", .text column.type.name)] ++
      (if column.primaryKey then [("primary_key", .boolean true)] else []) ++
      (if column.notNull then [("not_null", .boolean true)] else []) ++
      (if column.unique then [("unique", .boolean true)] else []) ++
      match column.default? with
      | some value => [("default", value.toJson)]
      | none => []

/-- The type that a document names, as a text or as the only field of an object, with null. -/
def typeOfJson? : Json → Option ColumnType
  | .text name | .object [(name, .null)] => ColumnType.ofName? name
  | _ => none

/-- A constraint field: absent means that the constraint does not hold. -/
def flag? (name : String) (fields : List (String × Json)) : Option Bool :=
  match Json.soleField? name fields with
  | none => none
  | some none => some false
  | some (some value) => value.boolean?

/-- A default field: absent or null means that there is no default. -/
def defaultField? (fields : List (String × Json)) : Option (Option Value) :=
  match Json.soleField? "default" fields with
  | none => none
  | some none | some (some .null) => some none
  | some (some value) => (Value.ofJson? value).map some

def ofJson? (name : String) (document : Json) : Option Column := do
  let fields ← document.parts? ["type", "primary_key", "not_null", "unique", "default"]
  return {
    name
    type := ← typeOfJson? (← (← Json.soleField? "type" fields))
    primaryKey := ← flag? "primary_key" fields
    notNull := ← flag? "not_null" fields
    unique := ← flag? "unique" fields
    default? := ← defaultField? fields }

end Column

structure Schema where
  columns : KeyedMap Column
  named : ∀ entry ∈ columns.entries, entry.2.name = entry.1
  deriving DecidableEq, Repr

namespace Schema

def empty : Schema := ⟨.empty, by simp⟩

instance : Inhabited Schema := ⟨empty⟩

/-- The schema with a column under its name, in place of the one that had the name. -/
def set (schema : Schema) (column : Column) : Schema :=
  ⟨schema.columns.insert column.name column, by
    intro entry h
    rcases KeyedMap.mem_setEntry h with rfl | h
    · rfl
    · exact schema.named entry h⟩

def add? (schema : Schema) (column : Column) : Option Schema :=
  if schema.columns.contains column.name then none else some (schema.set column)

/-- The schema of a list of columns. A column whose name is taken is passed over. -/
def ofColumns (columns : List Column) : Schema :=
  columns.foldl (fun schema column => (schema.add? column).getD schema) empty

def column? (schema : Schema) (name : String) : Option Column := schema.columns.find? name

def list (schema : Schema) : List Column := schema.columns.values

def names (schema : Schema) : List String := schema.columns.keys

def size (schema : Schema) : Nat := schema.columns.size

def primaryKey? (schema : Schema) : Option Column := schema.list.find? (·.primaryKey)

/-- The columns that are declared unique and are not declared a primary key. -/
def uniqueColumns (schema : Schema) : List Column :=
  schema.list.filter fun column => column.unique && !column.primaryKey

/-- A record with the default of each absent column that has one. -/
def fill (schema : Schema) (record : Record) : Record :=
  schema.list.foldl (fun record column => column.fill record) record

/-- The first column that is required and absent from a record. -/
def missing? (schema : Schema) (record : Record) : Option Column :=
  schema.list.find? fun column => column.notNull && !record.contains column.name

/-- One field of a record has a column, and its value fits that column. -/
def checkField (schema : Schema) (table name : String) (value : Value) : Except Fault Unit :=
  match schema.column? name with
  | none => .error (.unknownColumn name table)
  | some column => column.check value

def check (schema : Schema) (table : String) (record : Record) : Except Fault Unit :=
  match schema.missing? record with
  | some column => .error (.missingColumn column.name)
  | none => record.entries.forM fun field => schema.checkField table field.1 field.2

/-- A record with each field as its column keeps it. -/
def conform (schema : Schema) (record : Record) : Record :=
  record.mapWithKey fun name value =>
    match schema.column? name with
    | some column => value.conform column.type
    | none => value

def toJson (schema : Schema) : Json :=
  .object [("columns", KeyedMap.toJson Column.toJson schema.columns)]

def ofJson? (document : Json) : Option Schema := do
  let fields ← document.parts? ["columns"]
  let columns ← (← (← Json.soleField? "columns" fields)).fields?
  let columns ← columns.mapM fun field => Column.ofJson? field.1 field.2
  return columns.foldl set empty

end Schema

end Rowfile

import Rowfile.Record

/-!
# Indexes

An index over one column files the ids of records under the shown values of that column. A bucket
lists ids in the order in which they were filed, without repetition, and a bucket that loses its last
id is dropped.
-/
namespace Rowfile

structure Index where
  buckets : KeyedMap (List RecordId)
  deriving DecidableEq, Repr

namespace Index

def empty : Index := ⟨.empty⟩

instance : Inhabited Index := ⟨empty⟩

def lookup (index : Index) (key : String) : List RecordId := (index.buckets.find? key).getD []

/-- File an id under a value, at the end of its bucket unless it is already there. -/
def add (index : Index) (value : Value) (id : RecordId) : Index :=
  let ids := index.lookup value.shown
  ⟨index.buckets.insert value.shown (if ids.contains id then ids else ids ++ [id])⟩

/-- Take an id out of the bucket of a value, and drop the bucket if nothing is left in it. -/
def remove (index : Index) (value : Value) (id : RecordId) : Index :=
  match index.buckets.find? value.shown with
  | none => index
  | some ids =>
    match ids.filter (· != id) with
    | [] => ⟨index.buckets.erase value.shown⟩
    | rest => ⟨index.buckets.insert value.shown rest⟩

/-- Take an old id out of the bucket of an old value, and then file a new id under a new value.
Either value may be absent. -/
def replace (index : Index) (old : Option Value) (oldId : RecordId) (new : Option Value)
    (newId : RecordId) : Index :=
  let without := match old with
    | some value => index.remove value oldId
    | none => index
  match new with
  | some value => without.add value newId
  | none => without

/-- File the id of a record under its value of a column. A record without the column is passed
over. -/
def file (index : Index) (column : String) (id : RecordId) (record : Record) : Index :=
  match record.find? column with
  | some value => index.add value id
  | none => index

def unfile (index : Index) (column : String) (id : RecordId) (record : Record) : Index :=
  match record.find? column with
  | some value => index.remove value id
  | none => index

/-- Move the id of a record to the id and value of the record that replaces it. -/
def refile (index : Index) (column : String) (oldId : RecordId) (old : Record)
    (newId : RecordId) (new : Record) : Index :=
  index.replace (old.find? column) oldId (new.find? column) newId

def build (column : String) (records : List (RecordId × Record)) : Index :=
  records.foldl (fun index entry => index.file column entry.1 entry.2) empty

def toJson (index : Index) : Json :=
  KeyedMap.toJson (fun ids => .array (ids.map .text)) index.buckets

def idsOfJson? (document : Json) : Option (List RecordId) := do
  (← document.items?).mapM Json.text?

def ofJson? (document : Json) : Option Index :=
  (KeyedMap.ofJson? idsOfJson? document).map Index.mk

@[simp] theorem lookup_empty (key : String) : empty.lookup key = [] := rfl

theorem lookup_add (index : Index) (value : Value) (id : RecordId) (key : String) :
    (index.add value id).lookup key =
      if key = value.shown then
        if (index.lookup key).contains id then index.lookup key else index.lookup key ++ [id]
      else index.lookup key := by
  simp only [lookup, add, KeyedMap.find?_insert]
  by_cases h : key = value.shown <;> simp [h]

end Index

end Rowfile

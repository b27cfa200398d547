import Rowfile.Catalog.Basic
import Rowfile.Predicate.Eval
import Rowfile.Statement.Basic

/-!
# Selecting

The records that pass a filter, in the order of the table, then sorted by the shown value of a column
and cut to a number of rows. Sorting keeps the order of records that show the same, in both
directions; an absent value is shown as the empty text. A limit of zero is no limit.
-/
namespace Rowfile

/-- The entries that pass a filter, in order. The first entry on which the filter cannot be evaluated
makes the whole fail. -/
def passing (filter : Option Predicate) :
    List (RecordId × Record) → Except Fault (List (RecordId × Record))
  | [] => .ok []
  | entry :: rest => do
    let accepted ← Predicate.accepts filter entry.2
    let rest ← passing filter rest
    return if accepted then entry :: rest else rest

namespace OrderBy

/-- The text by which a record is sorted. -/
def text (order : OrderBy) (record : Record) : String :=
  ((record.find? order.column).map Value.shown).getD ""

def inOrder (order : OrderBy) (a b : Record) : Bool :=
  if order.descending then (compare (order.text b) (order.text a)).isLE
  else (compare (order.text a) (order.text b)).isLE

def sort (order : Option OrderBy) (rows : List Record) : List Record :=
  match order with
  | some order => rows.mergeSort order.inOrder
  | none => rows

end OrderBy

/-- The first rows up to a limit. Zero is no limit. -/
def limitTo (limit : Option Nat) (rows : List Record) : List Record :=
  match limit with
  | some (n + 1) => rows.take (n + 1)
  | _ => rows

namespace Catalog

def select (name : String) (filter : Option Predicate) (order : Option OrderBy)
    (limit : Option Nat) (catalog : Catalog) : Except Fault (List Record) := do
  let table ← catalog.table name
  let entries ← passing filter table.records.entries
  return limitTo limit (OrderBy.sort order (entries.map Prod.snd))

end Catalog

end Rowfile

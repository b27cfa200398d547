import Rowfile.Predicate.Basic
import Rowfile.Schema

/-!
# Statements

The eleven statements, each with what its text says. The filter of a SELECT is optional, and that of
an UPDATE or DELETE is not. A SELECT asks for whole records: what stands between SELECT and FROM is
not kept.
-/
namespace Rowfile

structure OrderBy where
  column : String
  descending : Bool
  deriving DecidableEq, Repr

structure Assignment where
  column : String
  value : Value
  deriving DecidableEq, Repr

inductive Statement where
  | createTable (table : String) (schema : Schema)
  | dropTable (table : String)
  | renameTable (table newName : String)
  | insert (table : String) (columns : Option (List String)) (values : List Value)
  | select (table : String) (filter : Option Predicate) (orderBy : Option OrderBy)
      (limit : Option Nat)
  | update (table : String) (assignments : List Assignment) (filter : Predicate)
  | delete (table : String) (filter : Predicate)
  | describe (table : String)
  | showTables
  | showTable (table : String)
  | createIndex (table column : String)
  deriving Repr

namespace Statement

/-- The statement may change the catalog, which is then saved. -/
def isMutation : Statement → Bool
  | .createTable .. | .dropTable .. | .renameTable .. | .insert .. | .update .. | .delete ..
  | .createIndex .. => true
  | .select .. | .describe .. | .showTables | .showTable .. => false

end Statement

end Rowfile

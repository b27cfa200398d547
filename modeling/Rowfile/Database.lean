import Rowfile.Catalog.Definition
import Rowfile.Catalog.Delete
import Rowfile.Catalog.Update
import Rowfile.Outcome
import Rowfile.Statement.Reader

/-!
# Databases

A database is a catalog with a store to which the whole catalog is saved after every change. The
change is made in memory first, so a failed save is reported but not undone. A statement is read, run
on the catalog and answered; a fault leaves the catalog as it was.
-/
namespace Rowfile

/-- A place to which catalogs are saved. -/
class Store (σ : Type) where
  /-- Save a catalog; the store may have changed although saving failed. -/
  save : Catalog → σ → Except Fault Unit × σ

/-- The store that keeps nothing. -/
instance : Store Unit := ⟨fun _ _ => (.ok (), ())⟩

structure Database (σ : Type) where
  catalog : Catalog
  store : σ

abbrev MemoryDatabase := Database Unit

namespace Database

variable {σ α : Type} [Store σ]

def inMemory : MemoryDatabase := ⟨.empty, ()⟩

def flush (db : Database σ) : Except Fault Unit × Database σ :=
  let (result, store) := Store.save db.catalog db.store
  (result, { db with store := store })

/-- Take the outcome of an operation on the catalog, and save the catalog if that is asked for. -/
def commit (result : Except Fault (Step α)) (db : Database σ) : Except Fault α × Database σ :=
  match result with
  | .error fault => (.error fault, db)
  | .ok step =>
    let db := { db with catalog := step.catalog }
    if step.saves then
      match db.flush with
      | (.ok (), db) => (.ok step.answer, db)
      | (.error fault, db) => (.error fault, db)
    else (.ok step.answer, db)

def change (operation : Catalog → Except Fault (Step α)) (db : Database σ) :
    Except Fault α × Database σ :=
  db.commit (operation db.catalog)

def countMessage (count : Nat) (table message : String) : String :=
  if count = 0 then s!"No records matched the conditions in '{table}'" else message

def summaryRow (summary : TableSummary) : Record :=
  KeyedMap.ofList [
    ("table", .text summary.name),
    ("columns", .integer (Int64.ofNat summary.columns.length)),
    ("records", .integer (Int64.ofNat summary.records))]

def showTables (summaries : List TableSummary) : Outcome :=
  if summaries.isEmpty then .message "No tables in database"
  else .rows (summaries.map summaryRow) s!"Total: {summaries.length} tables"

/-- The answer of a change, with the database after it. -/
def answer (render : α → String) (result : Except Fault α × Database σ) :
    Except Fault Outcome × Database σ :=
  (result.1.map fun a => .message (render a), result.2)

def run (statement : Statement) (db : Database σ) : Except Fault Outcome × Database σ :=
  match statement with
  | .createTable table schema =>
    answer (fun _ => s!"Table '{table}' created successfully")
      (db.change (Catalog.createTable table schema))
  | .dropTable table =>
    answer (fun count => s!"Table '{table}' dropped successfully ({count} records deleted)")
      (db.change (Catalog.dropTable table))
  | .renameTable table newName =>
    answer (fun _ => s!"Table '{table}' renamed to '{newName}'")
      (db.change (Catalog.renameTable table newName))
  | .insert table columns values =>
    answer (fun _ => s!"Record inserted into '{table}'")
      (db.change (Catalog.insertValues table columns values))
  | .select table filter orderBy limit =>
    ((db.catalog.select table filter orderBy limit).map fun rows =>
      .rows rows s!"Found {rows.length} records in '{table}'", db)
  | .update table assignments filter =>
    answer (fun count => countMessage count table s!"Updated {count} records in '{table}'")
      (db.change (Catalog.update table assignments filter))
  | .delete table filter =>
    answer (fun count => countMessage count table s!"Deleted {count} records from '{table}'")
      (db.change (Catalog.delete table filter))
  | .describe table =>
    ((db.catalog.table table).map fun entry =>
      .schema entry.schema s!"Schema for table '{table}'", db)
  | .showTables => (.ok (showTables db.catalog.summaries), db)
  | .showTable table =>
    ((db.catalog.summary table).map fun summary => .message summary.text, db)
  | .createIndex table column =>
    answer (fun _ => s!"Index created on '{table}.{column}'")
      (db.change (Catalog.createIndex table column))

def query (text : String) (db : Database σ) : Except Fault Outcome × Database σ :=
  match Statement.read text.toList with
  | .ok statement => db.run statement
  | .error fault => (.error fault, db)

end Database

end Rowfile

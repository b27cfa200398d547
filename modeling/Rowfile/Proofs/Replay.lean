import Rowfile.Database
import Mathlib.Logic.Function.Basic

/-!
# Replaying operations

A history is a list of operations, each of which may fail, applied to a database that starts without
tables. The store only receives catalogs, so what a history leaves in memory does not depend on it,
and a failed save is like any other. Operations that only read answer without a next catalog and are
left out. Beside the catalog a history is followed by a ledger: for each name, the ids that deletions
took out of the table which now has that name.
-/
namespace Rowfile

/-- An operation that may change a database, with its arguments. -/
inductive Operation where
  | createTable (name : String) (schema : Schema)
  | dropTable (name : String)
  | renameTable (old new : String)
  | createIndex (name column : String)
  | insert (name : String) (record : Record)
  | insertValues (name : String) (columns : Option (List String)) (values : List Value)
  | update (name : String) (assignments : List Assignment) (filter : Option Predicate)
  | delete (name : String) (filter : Option Predicate)
  | flush

/-- The catalog after an operation with the given outcome. A failed operation changes nothing. -/
def Catalog.after {α : Type} (catalog : Catalog) (outcome : Except Fault (Step α)) : Catalog :=
  match outcome with
  | .ok step => step.catalog
  | .error _ => catalog

def Operation.apply (operation : Operation) (catalog : Catalog) : Catalog :=
  match operation with
  | .createTable name schema => catalog.after (catalog.createTable name schema)
  | .dropTable name => catalog.after (catalog.dropTable name)
  | .renameTable old new => catalog.after (catalog.renameTable old new)
  | .createIndex name column => catalog.after (catalog.createIndex name column)
  | .insert name record => catalog.after (catalog.insert name record)
  | .insertValues name columns values => catalog.after (catalog.insertValues name columns values)
  | .update name assignments filter => catalog.after (catalog.update name assignments filter)
  | .delete name filter => catalog.after (catalog.delete name filter)
  | .flush => catalog

namespace Database

variable {σ : Type} [Store σ]

def perform (operation : Operation) (db : Database σ) : Database σ :=
  match operation with
  | .createTable name schema => (db.change (Catalog.createTable name schema)).2
  | .dropTable name => (db.change (Catalog.dropTable name)).2
  | .renameTable old new => (db.change (Catalog.renameTable old new)).2
  | .createIndex name column => (db.change (Catalog.createIndex name column)).2
  | .insert name record => (db.change (Catalog.insert name record)).2
  | .insertValues name columns values => (db.change (Catalog.insertValues name columns values)).2
  | .update name assignments filter => (db.change (Catalog.update name assignments filter)).2
  | .delete name filter => (db.change (Catalog.delete name filter)).2
  | .flush => db.flush.2

def replay (history : List Operation) (store : σ) : Database σ :=
  history.foldl (fun db operation => db.perform operation) ⟨.empty, store⟩

/-- What is held in memory is the catalog after the operation, whether or not saving it works. -/
theorem catalog_change {α : Type} (operation : Catalog → Except Fault (Step α))
    (db : Database σ) :
    (db.change operation).2.catalog = db.catalog.after (operation db.catalog) := by
  unfold change commit
  cases operation db.catalog with
  | error fault => rfl
  | ok step =>
    simp only [Catalog.after]
    cases step.saves with
    | false => rfl
    | true =>
      simp only [if_true, flush]
      cases (Store.save step.catalog db.store).1 <;> rfl

theorem catalog_perform (operation : Operation) (db : Database σ) :
    (db.perform operation).catalog = operation.apply db.catalog := by
  cases operation with
  | flush => rfl
  | _ => exact catalog_change _ db

end Database

/-! ## The ledger of deleted ids -/

namespace Catalog

/-- The ids of the records of a table, none if there is no such table. -/
def idsOf (catalog : Catalog) (name : String) : List RecordId :=
  ((catalog.tables.find? name).map (·.records.keys)).getD []

end Catalog

def lostIds (before after : List RecordId) : List RecordId :=
  before.filter fun id => !after.contains id

@[simp] theorem lostIds_self (ids : List RecordId) : lostIds ids ids = [] := by
  simp [lostIds, List.filter_eq_nil_iff]

/-- A catalog, and under each name the ids that deletions took out of the table of that name. -/
structure Ledger where
  catalog : Catalog
  freed : String → List RecordId

namespace Ledger

def blank : Ledger := ⟨.empty, fun _ => []⟩

/-- The ids freed so far, after an operation. Only a deletion frees ids; they follow their table to
its new name and are forgotten when it is dropped. -/
def freedAfter (ledger : Ledger) (operation : Operation) : String → List RecordId :=
  match operation with
  | .delete name _ =>
    let lost := lostIds (ledger.catalog.idsOf name) ((operation.apply ledger.catalog).idsOf name)
    Function.update ledger.freed name (ledger.freed name ++ lost)
  | .dropTable name => Function.update ledger.freed name []
  | .renameTable old new =>
    if ledger.catalog.tables.contains old && !ledger.catalog.tables.contains new then
      Function.update (Function.update ledger.freed new (ledger.freed old)) old []
    else ledger.freed
  | _ => ledger.freed

def enter (ledger : Ledger) (operation : Operation) : Ledger :=
  ⟨operation.apply ledger.catalog, ledger.freedAfter operation⟩

def follow (history : List Operation) : Ledger := history.foldl enter blank

end Ledger

/-- The ids that the deletions of a history took out of the table that has a name after it. -/
def freedIds (history : List Operation) (name : String) : List RecordId :=
  (Ledger.follow history).freed name

theorem Database.catalog_replay {σ : Type} [Store σ] (history : List Operation) (store : σ) :
    (Database.replay history store).catalog = (Ledger.follow history).catalog := by
  -- Both folds carry the same catalog; neither the store nor the freed ids are read by a step.
  have run : ∀ (db : Database σ) (ledger : Ledger), db.catalog = ledger.catalog →
      (history.foldl (fun db operation => db.perform operation) db).catalog =
        (history.foldl Ledger.enter ledger).catalog := by
    induction history with
    | nil => exact fun _ _ h => h
    | cons operation rest ih =>
      intro db ledger h
      refine ih _ _ ?_
      rw [catalog_perform, h, Ledger.enter]
  exact run ⟨.empty, store⟩ Ledger.blank rfl

end Rowfile

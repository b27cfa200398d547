import Rowfile.Proofs.Outcomes
import Rowfile.Proofs.SavingSteps

/-!
# Writing step by step

An operation that writes a database in place looks at it, changes indexes before records and records
one by one, and saves at the end. Nothing takes back what it has written when it fails: a position
that is lost on the way would leave indexes without their records. On every catalog that operations
reach no position is lost, so all failures but those of the save come before the first write, and
the steps do what the outcome of the operation says as a whole.
-/
namespace Rowfile

/-! ## Setting what was set -/

namespace KeyedMap

variable {V : Type}

theorem setEntry_setEntry (key : String) (first second : V) (entries : List (String × V)) :
    setEntry key second (setEntry key first entries) = setEntry key second entries := by
  induction entries with
  | nil => simp [setEntry]
  | cons entry rest ih =>
    by_cases h : entry.1 = key
    · simp [setEntry, h]
    · simp [setEntry, h, ih]

end KeyedMap

namespace Catalog

variable {catalog : Catalog} {name : String} {table : Table}

theorem setTable_setTable (first second : Table) :
    (catalog.setTable name first).setTable name second = catalog.setTable name second :=
  congrArg (Catalog.mk · catalog.indexes) (KeyedMap.ext (KeyedMap.setEntry_setEntry ..))

theorem setTable_of_find? (h : catalog.tables.find? name = some table) :
    catalog.setTable name table = catalog :=
  congrArg (Catalog.mk · catalog.indexes) (KeyedMap.insert_of_find? h)

end Catalog

variable {σ α β : Type}

/-- A computation on a database that may fail on the way and does not take back what it has
written. -/
abbrev Stepwise (σ α : Type) := ExceptT Fault (StateM (Database σ)) α

namespace Stepwise

/-- The result of a computation and the database as it leaves it. -/
def runOn (db : Database σ) (steps : Stepwise σ α) : Except Fault α × Database σ :=
  StateT.run (ExceptT.run steps) db

def look (question : Catalog → Except Fault α) : Stepwise σ α :=
  ExceptT.mk fun db => (question db.catalog, db)

def write (change : Catalog → Catalog) : Stepwise σ Unit :=
  ExceptT.mk fun db => (.ok (), { db with catalog := change db.catalog })

/-- Change the records of a table. A change that loses a position stays as far as it came. -/
def writeRecords (name : String)
    (change : PositionedMap Record → Except LostPosition β × PositionedMap Record) :
    Stepwise σ Unit :=
  ExceptT.mk fun db =>
    match db.catalog.tables.find? name with
    | none => (.error (.tableNotFound name), db)
    | some table =>
      let result := change table.records
      let db := { db with catalog := db.catalog.setTable name { table with records := result.2 } }
      match result.1 with
      | .ok _ => (.ok (), db)
      | .error _ => (.error .lostPosition, db)

/-! ## Running the steps -/

section
variable {db : Database σ} {next : α → Stepwise σ β} {rest : Unit → Stepwise σ β}

theorem runOn_bind (db : Database σ) (first : Stepwise σ α) (next : α → Stepwise σ β) :
    (first >>= next).runOn db =
      match first.runOn db with
      | (.ok a, db) => (next a).runOn db
      | (.error fault, db) => (.error fault, db) := by
  unfold runOn ExceptT.run StateT.run
  simp only [bind, ExceptT.bind, ExceptT.mk, StateT.bind, ExceptT.bindCont]
  cases first db with
  | mk result next => cases result <;> rfl

theorem runOn_write (change : Catalog → Catalog) :
    (write change >>= rest).runOn db =
      (rest ()).runOn { db with catalog := change db.catalog } :=
  runOn_bind db _ _

theorem runOn_writeRecords {name : String} {table : Table} {a : α} {records : PositionedMap Record}
    {change : PositionedMap Record → Except LostPosition α × PositionedMap Record}
    (ht : db.catalog.tables.find? name = some table)
    (hchange : change table.records = (.ok a, records)) :
    (writeRecords name change >>= rest).runOn db = (rest ()).runOn { db with
      catalog := db.catalog.setTable name { table with records := records } } := by
  have hrun : (writeRecords name change).runOn db = (.ok (), { db with
      catalog := db.catalog.setTable name { table with records := records } }) := by
    unfold writeRecords runOn ExceptT.run ExceptT.mk StateT.run
    simp only [ht, hchange]
  rw [runOn_bind, hrun]

theorem runOn_forM_write (change : α → Catalog → Catalog) (l : List α) :
    ((l.forM fun a => write (change a)) >>= rest).runOn db = (rest ()).runOn { db with
      catalog := l.foldl (fun catalog a => change a catalog) db.catalog } := by
  induction l generalizing db with
  | nil => exact runOn_bind db _ _
  | cons a l ih =>
    rw [List.forM_eq_forM, List.forM_cons, bind_assoc, runOn_write, ← List.forM_eq_forM, ih,
      List.foldl_cons]

/-- Staged records that can be put in place are put there one by one. -/
theorem runOn_forM_rekey {name : String} {table : Table} {staged : List Staged}
    {records : PositionedMap Record} (ht : db.catalog.tables.find? name = some table)
    (hplace : Table.place table.records staged = .ok records) :
    ((staged.forM fun s => writeRecords name fun records =>
      records.rekey s.oldId s.newId s.new) >>= rest).runOn db = (rest ()).runOn { db with
        catalog := db.catalog.setTable name { table with records := records } } := by
  induction staged generalizing db table with
  | nil =>
    obtain rfl := Except.ok.inj hplace
    rw [Catalog.setTable_of_find? ht]
    exact runOn_bind db _ _
  | cons s staged ih =>
    rw [Table.place] at hplace
    split at hplace
    · next hrekey =>
      rw [List.forM_eq_forM, List.forM_cons, bind_assoc, runOn_writeRecords ht hrekey,
        ← List.forM_eq_forM, ih (Catalog.find?_setTable ..) hplace, Catalog.setTable_setTable]
    · cases hplace

end

variable [Store σ]

def save : Stepwise σ Unit := ExceptT.mk Database.flush

/-! ## The operations -/

def createTable (name : String) (schema : Schema) : Stepwise σ Unit := do
  look fun catalog => if catalog.tables.contains name then .error (.tableExists name) else .ok ()
  write fun catalog => catalog.setTable name (.ofSchema schema)
  save

def dropTable (name : String) : Stepwise σ Nat := do
  let table ← look fun catalog => catalog.table name
  write fun catalog => { catalog with tables := catalog.tables.erase name }
  write fun catalog => { catalog with indexes := catalog.indexes.erase name }
  save
  return table.size

def renameTable (old new : String) : Stepwise σ Unit := do
  look fun catalog => if !catalog.tables.contains old then .error (.tableNotFound old) else .ok ()
  look fun catalog =>
    if catalog.tables.contains new then .error (.renameTargetExists new) else .ok ()
  write fun catalog => { catalog with tables := Catalog.moveEntry old new catalog.tables }
  write fun catalog => { catalog with indexes := Catalog.moveEntry old new catalog.indexes }
  save

def createIndex (name column : String) : Stepwise σ Unit := do
  let table ← look fun catalog => catalog.table name
  look fun _ =>
    if (table.schema.column? column).isNone then .error (.unknownColumn column name) else .ok ()
  look fun catalog =>
    if (catalog.indexesOf name).contains column then .error (.indexExists name column) else .ok ()
  write fun catalog => { catalog with
    indexes := catalog.indexes.insert name
      ((catalog.indexesOf name).insert column (Index.build column table.records.entries)) }
  save

def insert (name : String) (record : Record) : Stepwise σ RecordId := do
  let table ← look fun catalog => catalog.table name
  let (id, stored) ← look fun _ => table.accept name record
  write fun catalog => catalog.fileRecord name id stored
  writeRecords name fun records => records.insert id stored
  save
  return id

def insertValues (name : String) (columns : Option (List String)) (values : List Value) :
    Stepwise σ RecordId := do
  let table ← look fun catalog => catalog.table name
  let columns ← look fun _ => table.boundColumns name columns values.length
  insert name (KeyedMap.ofList (columns.zip values))

def update (name : String) (assignments : List Assignment) (filter : Option Predicate) :
    Stepwise σ Nat := do
  let table ← look fun catalog => catalog.table name
  let changes ← look fun _ => table.changes name assignments
  let staged ← look fun _ => table.stage changes filter table.records.entries
  if staged.isEmpty then return 0
  look fun _ => table.checkKeys [] staged
  look fun _ => table.checkStagedUnique staged
  staged.forM fun s => write fun catalog => catalog.refileRecord name s.oldId s.old s.newId s.new
  staged.forM fun s => writeRecords name fun records => records.rekey s.oldId s.newId s.new
  save
  return staged.length

def delete (name : String) (filter : Option Predicate) : Stepwise σ Nat := do
  let table ← look fun catalog => catalog.table name
  let doomed ← look fun _ => passing filter table.records.entries
  if doomed.isEmpty then return 0
  doomed.forM fun entry => write fun catalog => catalog.unfileRecord name entry.1 entry.2
  writeRecords name fun records =>
    (.ok (), records.retain fun id _ => !(doomed.map Prod.fst).contains id)
  save
  return doomed.length

/-! ## Steps and outcomes -/

variable {db : Database σ}

/-- A look that fails commits its fault; what follows a look has to commit what it makes of it. -/
theorem runOn_look {question : Catalog → Except Fault α} {next : α → Stepwise σ β}
    {outcome : α → Except Fault (Step β)}
    (h : ∀ a, question db.catalog = .ok a → (next a).runOn db = db.commit (outcome a)) :
    (look question >>= next).runOn db = db.commit (question db.catalog >>= outcome) := by
  have hlook : (look question).runOn db = (question db.catalog, db) := rfl
  rw [runOn_bind, hlook]
  cases hq : question db.catalog with
  | ok a => exact h a hq
  | error fault => rfl

theorem runOn_check {bad : Catalog → Prop} [∀ catalog, Decidable (bad catalog)] {fault : Fault}
    {rest : Unit → Stepwise σ β} {outcome : Except Fault (Step β)}
    (h : (rest ()).runOn db = db.commit outcome) :
    ((look fun catalog => if bad catalog then .error fault else .ok ()) >>= rest).runOn db =
      db.commit (if bad db.catalog then .error fault else outcome) := by
  have hlook : (look fun catalog => if bad catalog then .error fault else .ok ()).runOn db =
      (if bad db.catalog then .error fault else .ok (), db) := rfl
  rw [runOn_bind, hlook]
  by_cases hbad : bad db.catalog
  · simp only [if_pos hbad]
    rfl
  · simp only [if_neg hbad, h]

theorem runOn_save (a : α) :
    (save >>= fun _ => pure a : Stepwise σ α).runOn db =
      db.commit (.ok ⟨a, db.catalog, true⟩) := by
  have hsave : (save : Stepwise σ Unit).runOn db = db.flush := rfl
  rw [runOn_bind, hsave, Database.commit]
  simp only [if_true]
  cases db.flush with
  | mk result db => cases result <;> rfl

theorem runOn_save_unit :
    (save : Stepwise σ Unit).runOn db = db.commit (.ok ⟨(), db.catalog, true⟩) := by
  rw [← runOn_save (), bind_pure_unit]

theorem runOn_createTable (name : String) (schema : Schema) :
    (createTable name schema).runOn db = db.change (Catalog.createTable name schema) := by
  refine runOn_check ?_
  rw [runOn_write, runOn_save_unit]
  rfl

theorem runOn_dropTable (name : String) :
    (dropTable name).runOn db = db.change (Catalog.dropTable name) := by
  refine runOn_look fun table _ => ?_
  rw [runOn_write, runOn_write, runOn_save]
  rfl

theorem runOn_renameTable (old new : String) :
    (renameTable old new).runOn db = db.change (Catalog.renameTable old new) := by
  refine runOn_check (runOn_check ?_)
  rw [runOn_write, runOn_write, runOn_save_unit]
  rfl

theorem runOn_createIndex (name column : String) :
    (createIndex name column).runOn db = db.change (Catalog.createIndex name column) := by
  refine runOn_look fun table _ => runOn_check (runOn_check ?_)
  rw [runOn_write, runOn_save_unit]
  rfl

theorem runOn_insert (name : String) (record : Record) :
    (insert name record).runOn db = db.change (Catalog.insert name record) := by
  refine runOn_look fun table htable => runOn_look fun (id, stored) haccept => ?_
  have hfree := (Table.accept_eq_ok_iff.mp haccept).2.1
  have hfiled : (db.catalog.fileRecord name id stored).tables.find? name = some table := by
    rw [Catalog.fileRecord, Catalog.tables_mapIndexes]
    exact Catalog.table_eq_ok_iff.mp htable
  have hstore : table.store id stored =
      .ok { table with records := table.records.extend id stored } :=
    (Table.store_eq_ok_iff hfree).mpr rfl
  rw [runOn_write, runOn_writeRecords hfiled (PositionedMap.insert_eq_extend hfree stored),
    runOn_save]
  simp only [hstore, ok_bind]
  rfl

theorem runOn_insertValues (name : String) (columns : Option (List String)) (values : List Value) :
    (insertValues name columns values).runOn db =
      db.change (Catalog.insertValues name columns values) :=
  runOn_look fun _ _ => runOn_look fun _ _ => runOn_insert name _

/-- No position is lost on the way through an update, as records stand where they are recorded. -/
theorem runOn_update (name : String) (assignments : List Assignment) (filter : Option Predicate)
    (h : db.catalog.AllTables fun table => table.records.Linked) :
    (update name assignments filter).runOn db =
      db.change (Catalog.update name assignments filter) := by
  refine runOn_look fun table htable => runOn_look fun changes _ =>
    runOn_look fun staged hstage => ?_
  have ht := Catalog.table_eq_ok_iff.mp htable
  split
  · rfl
  · refine runOn_look fun _ hkeys => runOn_look fun _ _ => ?_
    obtain ⟨records, hplace, _⟩ := ((Table.stage_eq_ok_iff.mp hstage).ready (h ht) hkeys).place
    have hrefiled : (staged.foldl (fun catalog s =>
        catalog.refileRecord name s.oldId s.old s.newId s.new) db.catalog).tables.find? name =
          some table := by
      rw [← ht]
      exact congrArg (KeyedMap.find? · name) (Catalog.tables_foldl_mapIndexes name
        (fun (s : Staged) column index => index.refile column s.oldId s.old s.newId s.new)
        staged db.catalog)
    rw [runOn_forM_write, runOn_forM_rekey hrefiled hplace, runOn_save, hplace]
    rfl

theorem runOn_delete (name : String) (filter : Option Predicate) :
    (delete name filter).runOn db = db.change (Catalog.delete name filter) := by
  refine runOn_look fun table htable => runOn_look fun doomed _ => ?_
  have ht := Catalog.table_eq_ok_iff.mp htable
  split
  · rfl
  · have hunfiled : (doomed.foldl (fun catalog entry =>
        catalog.unfileRecord name entry.1 entry.2) db.catalog).tables.find? name = some table := by
      rw [← ht]
      exact congrArg (KeyedMap.find? · name) (Catalog.tables_foldl_mapIndexes name
        (fun (entry : RecordId × Record) column index => index.unfile column entry.1 entry.2)
        doomed db.catalog)
    rw [runOn_forM_write]
    refine Eq.trans (runOn_writeRecords hunfiled rfl) ?_
    rw [runOn_save]
    rfl

end Stepwise

/-- The steps of an operation without its answer. -/
def Operation.steps [Store σ] : Operation → Stepwise σ Unit
  | .createTable name schema => discard (Stepwise.createTable name schema)
  | .dropTable name => discard (Stepwise.dropTable name)
  | .renameTable old new => discard (Stepwise.renameTable old new)
  | .createIndex name column => discard (Stepwise.createIndex name column)
  | .insert name record => discard (Stepwise.insert name record)
  | .insertValues name columns values => discard (Stepwise.insertValues name columns values)
  | .update name assignments filter => discard (Stepwise.update name assignments filter)
  | .delete name filter => discard (Stepwise.delete name filter)
  | .flush => Stepwise.save

theorem Stepwise.runOn_discard [Store σ] {db : Database σ} {steps : Stepwise σ α}
    {outcome : Except Fault (Step α)} (h : steps.runOn db = db.commit outcome) :
    (discard steps : Stepwise σ Unit).runOn db = db.commit (outcome.map Step.forget) := by
  have hdiscard : (discard steps : Stepwise σ Unit) = steps >>= fun _ => pure () := rfl
  rw [hdiscard, runOn_bind, h, Database.commit_forget]
  cases db.commit outcome with
  | mk result db => cases result <;> rfl

/-- On a catalog whose records stand where they are recorded, the steps of an operation commit its
outcome. -/
theorem Operation.runOn_steps [Store σ] {db : Database σ} (operation : Operation)
    (h : db.catalog.AllTables fun table => table.records.Linked) :
    operation.steps.runOn db = db.commit (operation.outcome db.catalog) := by
  cases operation with
  | createTable name schema => exact Stepwise.runOn_discard (Stepwise.runOn_createTable name schema)
  | dropTable name => exact Stepwise.runOn_discard (Stepwise.runOn_dropTable name)
  | renameTable old new => exact Stepwise.runOn_discard (Stepwise.runOn_renameTable old new)
  | createIndex name column => exact Stepwise.runOn_discard (Stepwise.runOn_createIndex name column)
  | insert name record => exact Stepwise.runOn_discard (Stepwise.runOn_insert name record)
  | insertValues name columns values =>
    exact Stepwise.runOn_discard (Stepwise.runOn_insertValues name columns values)
  | update name assignments filter =>
    exact Stepwise.runOn_discard (Stepwise.runOn_update name assignments filter h)
  | delete name filter => exact Stepwise.runOn_discard (Stepwise.runOn_delete name filter)
  | flush => exact Stepwise.runOn_save_unit

/-! ## Failures -/

structure CountedStore (σ : Type) where
  store : σ
  attempts : Nat

instance [Store σ] : Store (CountedStore σ) where
  save catalog counted :=
    ((Store.save catalog counted.store).1,
      ⟨(Store.save catalog counted.store).2, counted.attempts + 1⟩)

theorem Database.commit_error [Store σ] {db : Database σ} {outcome : Except Fault (Step α)}
    {fault : Fault} (h : (db.commit outcome).1 = .error fault) :
    (db.commit outcome).2 = db ∨
      ∃ catalog, (Store.save catalog db.store).1 = .error fault := by
  cases outcome with
  | error _ => exact .inl rfl
  | ok step =>
    obtain ⟨answer, catalog, saves⟩ := step
    cases saves with
    | false => cases h
    | true =>
      refine .inr ⟨catalog, ?_⟩
      rw [commit_of_saves] at h
      cases hsave : (Store.save catalog db.store).1 with
      | error _ =>
        rw [hsave] at h
        exact congrArg Except.error (Except.error.inj h)
      | ok _ =>
        rw [hsave] at h
        cases h

/-- On a reached catalog an operation takes the steps of its outcome, and if it fails with a fault
that is none of the save, then neither was the catalog changed nor a save attempted. -/
theorem failed_operation_changes_nothing [Store σ] {catalog : Catalog} (h : catalog.Reached)
    (hsave : ∀ catalog (store : σ) fault, (Store.save catalog store).1 = .error fault →
      fault.kind = .io ∨ fault.kind = .serialization)
    (store : CountedStore σ) (operation : Operation) :
    operation.steps.runOn ⟨catalog, store⟩ =
        Database.commit (operation.outcome catalog) ⟨catalog, store⟩ ∧
      ∀ fault, (operation.steps.runOn ⟨catalog, store⟩).1 = .error fault →
        fault.kind ≠ .io → fault.kind ≠ .serialization →
        (operation.steps.runOn ⟨catalog, store⟩).2.catalog = catalog ∧
          (operation.steps.runOn ⟨catalog, store⟩).2.store.attempts = store.attempts := by
  have hlinked : (⟨catalog, store⟩ : Database (CountedStore σ)).catalog.AllTables fun table =>
      table.records.Linked := h.regular.linked
  have hsteps := operation.runOn_steps hlinked
  refine ⟨hsteps, fun fault hfail hio hserialization => ?_⟩
  rw [hsteps] at hfail ⊢
  rcases Database.commit_error hfail with hsame | ⟨saved, hfailed⟩
  · rw [hsame]
    exact ⟨rfl, rfl⟩
  · rcases hsave saved store.store fault hfailed with hkind | hkind
    · exact absurd hkind hio
    · exact absurd hkind hserialization

theorem FolderStore.kind_of_save_error {catalog : Catalog} {store : FolderStore} {fault : Fault}
    (h : (Store.save catalog store).1 = .error fault) :
    fault.kind = .io ∨ fault.kind = .serialization := by
  obtain rfl := FolderState.fault_of_save_error h
  exact .inl rfl

/-- Two records in a table with an index over a column that shows no text twice. -/
def codedHistory : List Operation :=
  [.createTable "t" (.ofColumns [⟨"id", .int, true, false, false, none⟩,
      ⟨"code", .text, false, false, true, none⟩]),
    .createIndex "t" "code",
    .insert "t" (.ofList [("id", .integer 1), ("code", .text "a")]),
    .insert "t" (.ofList [("id", .integer 2), ("code", .text "b")])]

def codedDatabase : Database (CountedStore FolderStore) :=
  ⟨(Database.replay codedHistory ()).catalog, ⟨⟨.fresh, true, ""⟩, 0⟩⟩

def recoding : Operation := .update "t" [⟨"code", .text "c"⟩] none

/-- An update that fails at its second record leaves the first record and the index alone. -/
theorem failed_operation_changes_nothing_update :
    (recoding.steps.runOn codedDatabase).1 = .error (.duplicateValue "code" "c") ∧
      (recoding.steps.runOn codedDatabase).2.catalog = codedDatabase.catalog ∧
      (recoding.steps.runOn codedDatabase).2.store.attempts = codedDatabase.store.attempts := by
  have hfail : (recoding.steps.runOn codedDatabase).1 =
      .error (.duplicateValue "code" "c") := by decide +kernel
  exact ⟨hfail, (failed_operation_changes_nothing (Database.reached_replay codedHistory ())
    (fun _ _ _ => FolderStore.kind_of_save_error) codedDatabase.store recoding).2 _ hfail
      (by decide) (by decide)⟩

end Rowfile

import Rowfile.Proofs.Answers

/-!
# Indexes decide nothing

Operations keep the indexes of a table in step with its records, and none of them reads an index. So
two catalogs with the same tables, whatever is indexed in them, take every operation alike: both
refuse it with one fault, or both give one answer and come to the same tables again. Only creating
an index looks at the indexes that are there, and only SHOW TABLE names them. Leaving every CREATE
INDEX out of a list of statements is therefore not noticed by the others, apart from SHOW TABLE.
-/
namespace Rowfile

/-! ## Operations on the same tables -/

structure Catalog.SameTables (a b : Catalog) : Prop where
  tables : a.tables = b.tables

namespace Catalog.SameTables

variable {a b : Catalog} {name : String}

theorem table (h : a.SameTables b) (name : String) : a.table name = b.table name := by
  unfold Catalog.table
  rw [h.tables]

/-- One table is set on both sides, after changes to indexes. -/
theorem setMapped {α : Type} (h : a.SameTables b) (change : α → String → Index → Index)
    (l : List α) (table : Table) :
    SameTables
      ((l.foldl (fun catalog x => catalog.mapIndexes name (change x)) a).setTable name table)
      ((l.foldl (fun catalog x => catalog.mapIndexes name (change x)) b).setTable name table) := by
  constructor
  rw [setTable, setTable, tables_foldl_mapIndexes, tables_foldl_mapIndexes, h.tables]

theorem createTable (h : a.SameTables b) (schema : Schema) :
    Agree SameTables a b (a.createTable name schema) (b.createTable name schema) := by
  unfold Catalog.createTable
  rw [← h.tables]
  split
  · exact .failed _ h
  · exact .done () true (h.setMapped (fun (_ : Unit) _ index => index) [] _)

theorem dropTable (h : a.SameTables b) :
    Agree SameTables a b (a.dropTable name) (b.dropTable name) := by
  apply Agree.bind h (h.table name)
  intro table _
  exact .done table.size true ⟨congrArg (KeyedMap.erase · name) h.tables⟩

theorem renameTable (h : a.SameTables b) {old new : String} :
    Agree SameTables a b (a.renameTable old new) (b.renameTable old new) := by
  unfold Catalog.renameTable
  rw [← h.tables]
  split
  · exact .failed _ h
  · split
    · exact .failed _ h
    · exact .done () true ⟨rfl⟩

theorem insert (h : a.SameTables b) (record : Record) :
    Agree SameTables a b (a.insert name record) (b.insert name record) := by
  apply Agree.bind h (h.table name)
  intro table _
  apply Agree.bind h rfl
  rintro ⟨id, stored⟩ _
  apply Agree.bind h rfl
  intro table' _
  exact .done id true
    (h.setMapped (fun (_ : Unit) column index => index.file column id stored) [()] table')

theorem insertValues (h : a.SameTables b) (columns : Option (List String))
    (values : List Value) : Agree SameTables a b (a.insertValues name columns values)
      (b.insertValues name columns values) := by
  apply Agree.bind h (h.table name)
  intro table _
  apply Agree.bind h rfl
  intro bound _
  exact h.insert _

theorem update (h : a.SameTables b) (assignments : List Assignment) (filter : Option Predicate) :
    Agree SameTables a b (a.update name assignments filter)
      (b.update name assignments filter) := by
  apply Agree.bind h (h.table name)
  intro table _
  apply Agree.bind h rfl
  intro changes _
  apply Agree.bind h rfl
  intro staged _
  split
  · exact .done 0 false h
  · apply Agree.bind h rfl
    intro _ _
    apply Agree.bind h rfl
    intro _ _
    apply Agree.bind h rfl
    intro records _
    exact .done staged.length true (h.setMapped (fun (s : Staged) column index =>
      index.refile column s.oldId s.old s.newId s.new) staged _)

theorem delete (h : a.SameTables b) (filter : Option Predicate) :
    Agree SameTables a b (a.delete name filter) (b.delete name filter) := by
  apply Agree.bind h (h.table name)
  intro table _
  apply Agree.bind h rfl
  intro doomed _
  split
  · exact .done 0 false h
  · exact .done doomed.length true (h.setMapped (fun (entry : RecordId × Record) column index =>
      index.unfile column entry.1 entry.2) doomed _)

end Catalog.SameTables

/-- Creating an index leaves the tables as they are, whether it succeeds or not. -/
theorem Catalog.tables_after_createIndex (catalog : Catalog) (name column : String) :
    (catalog.after (catalog.createIndex name column)).tables = catalog.tables := by
  cases hindex : catalog.createIndex name column with
  | error fault => rfl
  | ok step =>
    obtain ⟨_, _, _, _, rfl⟩ := createIndex_eq_ok hindex
    rfl

/-! ## Statements -/

namespace Statement

def createsIndex : Statement → Bool
  | .createIndex .. => true
  | _ => false

/-- The answer to the statement depends on what is indexed: an index is created, or the columns that
are indexed are named. -/
def mindsIndexes : Statement → Bool
  | .createIndex .. | .showTable _ => true
  | _ => false

/-- A text writes a statement of some kind. -/
def written (kind : Statement → Bool) (text : String) : Bool :=
  match read text.toList with
  | .ok statement => kind statement
  | .error _ => false

end Statement

namespace Catalog.SameTables

variable {a b : Catalog}

theorem select (h : a.SameTables b) (name : String) (filter : Option Predicate)
    (order : Option OrderBy) (limit : Option Nat) :
    a.select name filter order limit = b.select name filter order limit := by
  unfold Catalog.select
  rw [h.table]

/-- The overview of all tables tells their columns and the number of their records only. -/
theorem showTables (h : a.SameTables b) :
    Database.showTables a.summaries = Database.showTables b.summaries := by
  have hrows : a.summaries.map Database.summaryRow = b.summaries.map Database.summaryRow := by
    unfold summaries
    rw [← h.tables, List.map_map, List.map_map]
    rfl
  have hshown : ∀ summaries : List TableSummary, Database.showTables summaries =
      if (summaries.map Database.summaryRow).isEmpty then .message "No tables in database"
      else .rows (summaries.map Database.summaryRow)
        s!"Total: {(summaries.map Database.summaryRow).length} tables" := by
    intro summaries
    rw [List.isEmpty_map, List.length_map]
    rfl
  rw [hshown, hshown, hrows]

/-- A statement that creates no index leaves the same tables on both sides, with the same answer if
that does not depend on indexes. -/
theorem run (h : a.SameTables b) {statement : Statement}
    (hcreates : statement.createsIndex = false) :
    (statement.mindsIndexes = false → ((⟨a, ()⟩ : MemoryDatabase).run statement).1 =
        ((⟨b, ()⟩ : MemoryDatabase).run statement).1) ∧
      SameTables ((⟨a, ()⟩ : MemoryDatabase).run statement).2.catalog
        ((⟨b, ()⟩ : MemoryDatabase).run statement).2.catalog := by
  cases statement with
  | createTable name schema => exact ((h.createTable schema).answered _).imp_left fun he _ => he
  | dropTable name => exact (h.dropTable.answered _).imp_left fun he _ => he
  | renameTable old new => exact (h.renameTable.answered _).imp_left fun he _ => he
  | insert name columns values =>
    exact ((h.insertValues columns values).answered _).imp_left fun he _ => he
  | update name assignments filter =>
    exact ((h.update assignments filter).answered _).imp_left fun he _ => he
  | delete name filter => exact ((h.delete filter).answered _).imp_left fun he _ => he
  | createIndex name column => cases hcreates
  | select name filter order limit =>
    refine ⟨fun _ => ?_, h⟩
    simp only [Database.run, h.select]
  | describe name =>
    refine ⟨fun _ => ?_, h⟩
    simp only [Database.run, h.table]
  | showTables =>
    refine ⟨fun _ => ?_, h⟩
    simp only [Database.run, h.showTables]
  | showTable name =>
    refine ⟨fun hminds => ?_, h⟩
    cases hminds

theorem query (h : a.SameTables b) {text : String}
    (hcreates : Statement.written Statement.createsIndex text = false) :
    (Statement.written Statement.mindsIndexes text = false →
        ((⟨a, ()⟩ : MemoryDatabase).query text).1 =
          ((⟨b, ()⟩ : MemoryDatabase).query text).1) ∧
      SameTables ((⟨a, ()⟩ : MemoryDatabase).query text).2.catalog
        ((⟨b, ()⟩ : MemoryDatabase).query text).2.catalog := by
  unfold Statement.written at hcreates ⊢
  unfold Database.query
  cases hread : Statement.read text.toList with
  | error fault => exact ⟨fun _ => rfl, h⟩
  | ok statement =>
    rw [hread] at hcreates
    exact h.run hcreates

/-- A text that creates an index changes no table, whether it succeeds or not. -/
theorem query_left (h : a.SameTables b) {text : String}
    (hcreates : Statement.written Statement.createsIndex text = true) :
    SameTables ((⟨a, ()⟩ : MemoryDatabase).query text).2.catalog b := by
  unfold Statement.written at hcreates
  unfold Database.query
  cases hread : Statement.read text.toList with
  | error fault => exact h
  | ok statement =>
    rw [hread] at hcreates
    cases statement with
    | createIndex name column =>
      constructor
      simp only [Database.run, Database.answer, Database.change_memory]
      exact (a.tables_after_createIndex name column).trans h.tables
    | _ => cases hcreates

end Catalog.SameTables

/-! ## Lists of statements -/

namespace Database

variable {σ : Type} [Store σ]

/-- The texts that a database is asked, each with its answer, but for those whose answers depend on
what is indexed. -/
def heard (texts : List String) (db : Database σ) : List (String × Except Fault Outcome) :=
  (texts.zip (db.answers texts)).filter fun reply =>
    !Statement.written Statement.mindsIndexes reply.1

theorem heard_cons (text : String) (texts : List String) (catalog : Catalog) :
    heard (text :: texts) (⟨catalog, ()⟩ : MemoryDatabase) =
      if Statement.written Statement.mindsIndexes text then
        heard texts ⟨((⟨catalog, ()⟩ : MemoryDatabase).query text).2.catalog, ()⟩
      else (text, ((⟨catalog, ()⟩ : MemoryDatabase).query text).1) ::
        heard texts ⟨((⟨catalog, ()⟩ : MemoryDatabase).query text).2.catalog, ()⟩ := by
  unfold heard
  rw [answers_cons, List.zip_cons_cons, List.filter_cons]
  cases Statement.written Statement.mindsIndexes text <;> rfl

end Database

/-- The texts that are left of a list without those that create an index. -/
def withoutIndexing (texts : List String) : List String :=
  texts.filter fun text => !Statement.written Statement.createsIndex text

theorem Statement.mindsIndexes_of_createsIndex {text : String}
    (h : written createsIndex text = true) : written mindsIndexes text = true := by
  unfold written at h ⊢
  cases hread : read text.toList with
  | error fault =>
    rw [hread] at h
    cases h
  | ok statement =>
    rw [hread] at h
    cases statement with
    | createIndex name column => rfl
    | _ => cases h

/-- On the same tables the texts that create an index may be left out on one side. -/
theorem Catalog.SameTables.heard_withoutIndexing {a b : Catalog} (h : a.SameTables b)
    (texts : List String) :
    Database.heard texts (⟨a, ()⟩ : MemoryDatabase) =
        Database.heard (withoutIndexing texts) (⟨b, ()⟩ : MemoryDatabase) ∧
      SameTables (Database.queries texts (⟨a, ()⟩ : MemoryDatabase)).catalog
        (Database.queries (withoutIndexing texts) (⟨b, ()⟩ : MemoryDatabase)).catalog := by
  induction texts generalizing a b with
  | nil => exact ⟨rfl, h⟩
  | cons text texts ih =>
    rw [Database.heard_cons, Database.queries_cons]
    cases hcreates : Statement.written Statement.createsIndex text with
    | true =>
      rw [withoutIndexing, List.filter_cons_of_neg (by simp [hcreates]), ← withoutIndexing,
        if_pos (Statement.mindsIndexes_of_createsIndex hcreates)]
      exact ih (h.query_left hcreates)
    | false =>
      obtain ⟨hanswer, hafter⟩ := h.query hcreates
      obtain ⟨hheard, htables⟩ := ih hafter
      rw [withoutIndexing, List.filter_cons_of_pos (by simp [hcreates]), ← withoutIndexing,
        Database.heard_cons, Database.queries_cons]
      refine ⟨?_, htables⟩
      cases hminds : Statement.written Statement.mindsIndexes text with
      | true => exact hheard
      | false =>
        simp only [Bool.false_eq_true, if_false]
        rw [hanswer hminds, hheard]

/-- Leaving out all texts that create an index changes neither the answer to another text, unless
that is SHOW TABLE, nor the tables at the end. -/
theorem indexes_unnoticed (texts : List String) (db : MemoryDatabase) :
    db.heard texts = db.heard (withoutIndexing texts) ∧
      (db.queries texts).catalog.tables =
        (db.queries (withoutIndexing texts)).catalog.tables := by
  have hsame : db.catalog.SameTables db.catalog := ⟨rfl⟩
  obtain ⟨hheard, htables⟩ := hsame.heard_withoutIndexing texts
  exact ⟨hheard, htables.tables⟩

-- SHOW TABLE lists the columns that are indexed, so its answer does depend on them.
example : (Database.answers ["CREATE TABLE t (id INT PRIMARY KEY)", "CREATE INDEX ON t (id)",
      "SHOW TABLE t"] Database.inMemory).map Outcome.render =
    ["Table 't' created successfully", "Index created on 't.id'",
      "Table: t\nRecords: 0\nIndexes: id"] := by
  decide +kernel

end Rowfile

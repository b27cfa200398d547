import Rowfile.Proofs.Moves

/-!
# Outcomes

An operation fails, or gives the next catalog and says whether that is to be saved. A database
commits this outcome: a failed operation touches neither the catalog nor the store, and a successful
one is saved unless it is an UPDATE or DELETE that no record passes. Statements that may change the
catalog are operations; the others leave the database as it is.
-/
namespace Rowfile

/-- The outcome of an operation without its answer. -/
def Step.forget {α : Type} (step : Step α) : Step Unit := ⟨(), step.catalog, step.saves⟩

theorem map_eq_ok {ε α β : Type} {f : α → β} {x : Except ε α} {b : β} :
    x.map f = .ok b ↔ ∃ a, x = .ok a ∧ f a = b := by
  cases x <;> simp [Except.map]

namespace Operation

def outcome (operation : Operation) (catalog : Catalog) : Except Fault (Step Unit) :=
  match operation with
  | .createTable name schema => (catalog.createTable name schema).map Step.forget
  | .dropTable name => (catalog.dropTable name).map Step.forget
  | .renameTable old new => (catalog.renameTable old new).map Step.forget
  | .createIndex name column => (catalog.createIndex name column).map Step.forget
  | .insert name record => (catalog.insert name record).map Step.forget
  | .insertValues name columns values => (catalog.insertValues name columns values).map Step.forget
  | .update name assignments filter => (catalog.update name assignments filter).map Step.forget
  | .delete name filter => (catalog.delete name filter).map Step.forget
  | .flush => .ok ⟨(), catalog, true⟩

/-- The operation is an update or a deletion, and no record passes its filter. -/
def MatchesNothing (catalog : Catalog) : Operation → Prop
  | .update name _ filter | .delete name filter =>
    ∃ table, catalog.tables.find? name = some table ∧
      ∀ entry ∈ table.records.entries, Predicate.accepts filter entry.2 = .ok false
  | _ => False

theorem after_forget {α : Type} (catalog : Catalog) (outcome : Except Fault (Step α)) :
    catalog.after (outcome.map Step.forget) = catalog.after outcome := by
  cases outcome <;> rfl

theorem after_outcome (operation : Operation) (catalog : Catalog) :
    catalog.after (operation.outcome catalog) = operation.apply catalog := by
  cases operation with
  | flush => rfl
  | _ => exact after_forget _ _

end Operation

namespace Database

variable {σ α : Type} [Store σ]

theorem commit_forget (outcome : Except Fault (Step α)) (db : Database σ) :
    db.commit (outcome.map Step.forget) =
      ((db.commit outcome).1.map fun _ => (), (db.commit outcome).2) := by
  cases outcome with
  | error fault => rfl
  | ok step =>
    simp only [commit, Except.map, Step.forget]
    cases step.saves with
    | false => rfl
    | true =>
      simp only [if_true]
      cases flush { db with catalog := step.catalog } with
      | mk result db' => cases result <;> rfl

/-- A change that is to be saved is made in memory whatever becomes of the save. -/
theorem commit_of_saves (answer : α) (catalog : Catalog)
    (db : Database σ) : db.commit (.ok ⟨answer, catalog, true⟩) =
      ((Store.save catalog db.store).1.map fun _ => answer,
        ⟨catalog, (Store.save catalog db.store).2⟩) := by
  simp only [commit, flush, if_true]
  cases (Store.save catalog db.store).1 <;> rfl

end Database

/-! ## What is saved -/

theorem Stages.eq_nil_iff {table : Table} {changes : List (String × Value)}
    {filter : Option Predicate} {entries : List (RecordId × Record)} {staged : List Staged}
    (h : Stages table changes filter entries staged) :
    staged = [] ↔ ∀ entry ∈ entries, Predicate.accepts filter entry.2 = .ok false := by
  induction h with
  | nil => simp
  | kept ha _ ih => simp [ih, ha]
  | moved ha _ _ _ => simp [ha]

theorem passing_eq_nil_iff {filter : Option Predicate} {entries doomed : List (RecordId × Record)}
    (h : passing filter entries = .ok doomed) :
    doomed = [] ↔ ∀ entry ∈ entries, Predicate.accepts filter entry.2 = .ok false := by
  obtain ⟨hdecides, rfl⟩ := passing_eq_ok_iff.mp h
  rw [List.filter_eq_nil_iff]
  refine forall₂_congr fun entry he => ?_
  obtain ⟨accepted, ha⟩ := hdecides entry he
  rw [Predicate.passes_of_accepts ha, ha]
  cases accepted <;> simp

/-- A successful operation is saved unless it matches nothing, and then it changes nothing. -/
theorem Operation.saves_iff {operation : Operation} {catalog : Catalog} {step : Step Unit}
    (h : operation.outcome catalog = .ok step) :
    (step.saves = true ↔ ¬operation.MatchesNothing catalog) ∧
      (step.saves = false → step.catalog = catalog) := by
  cases operation with
  | flush =>
    obtain rfl := Except.ok.inj h
    simp [MatchesNothing]
  | createTable name schema =>
    obtain ⟨_, hok, rfl⟩ := map_eq_ok.mp h
    obtain ⟨_, rfl⟩ := Catalog.createTable_eq_ok hok
    simp [MatchesNothing, Step.forget]
  | dropTable name =>
    obtain ⟨_, hok, rfl⟩ := map_eq_ok.mp h
    obtain ⟨_, _, rfl⟩ := Catalog.dropTable_eq_ok hok
    simp [MatchesNothing, Step.forget]
  | renameTable old new =>
    obtain ⟨_, hok, rfl⟩ := map_eq_ok.mp h
    obtain ⟨_, _, rfl⟩ := Catalog.renameTable_eq_ok hok
    simp [MatchesNothing, Step.forget]
  | createIndex name column =>
    obtain ⟨_, hok, rfl⟩ := map_eq_ok.mp h
    obtain ⟨_, _, _, _, rfl⟩ := Catalog.createIndex_eq_ok hok
    simp [MatchesNothing, Step.forget]
  | insert name record =>
    obtain ⟨_, hok, rfl⟩ := map_eq_ok.mp h
    obtain ⟨_, _, _, _, _, rfl⟩ := Catalog.insert_eq_ok hok
    simp [MatchesNothing, Step.forget]
  | insertValues name columns values =>
    obtain ⟨_, hok, rfl⟩ := map_eq_ok.mp h
    obtain ⟨_, _, hinsert⟩ := Catalog.insertValues_eq_ok hok
    obtain ⟨_, _, _, _, _, rfl⟩ := Catalog.insert_eq_ok hinsert
    simp [MatchesNothing, Step.forget]
  | update name assignments filter =>
    obtain ⟨_, hok, rfl⟩ := map_eq_ok.mp h
    obtain ⟨table, changes, staged, ht, _, hstage, hstep⟩ := Catalog.update_eq_ok hok
    have hnil := (Table.stage_eq_ok_iff.mp hstage).eq_nil_iff
    rcases hstep with ⟨hempty, rfl⟩ | ⟨hfull, _, _, _, _, rfl⟩
    · simpa [MatchesNothing, Step.forget, ht] using hnil.mp hempty
    · simpa [MatchesNothing, Step.forget, ht] using hnil.not.mp hfull
  | delete name filter =>
    obtain ⟨_, hok, rfl⟩ := map_eq_ok.mp h
    obtain ⟨table, doomed, ht, hdoomed, hstep⟩ := Catalog.delete_eq_ok hok
    have hnil := passing_eq_nil_iff hdoomed
    rcases hstep with ⟨hempty, rfl⟩ | ⟨hfull, rfl⟩
    · simpa [MatchesNothing, Step.forget, ht] using hnil.mp hempty
    · simpa [MatchesNothing, Step.forget, ht] using hnil.not.mp hfull

/-! ## Statements -/

namespace Statement

def operation? : Statement → Option Operation
  | .createTable table schema => some (.createTable table schema)
  | .dropTable table => some (.dropTable table)
  | .renameTable table newName => some (.renameTable table newName)
  | .insert table columns values => some (.insertValues table columns values)
  | .update table assignments filter => some (.update table assignments filter)
  | .delete table filter => some (.delete table filter)
  | .createIndex table column => some (.createIndex table column)
  | .select .. | .describe .. | .showTables | .showTable .. => none

/-- The statement is an UPDATE or a DELETE whose filter no record passes. -/
def MatchesNothing (catalog : Catalog) (statement : Statement) : Prop :=
  ∃ operation, statement.operation? = some operation ∧ operation.MatchesNothing catalog

theorem isSome_operation? (statement : Statement) :
    statement.operation?.isSome = statement.isMutation := by
  cases statement <;> rfl

end Statement

theorem Database.run_of_operation? {σ : Type} [Store σ] {statement : Statement}
    {operation : Operation} (h : statement.operation? = some operation) (db : Database σ) :
    (db.run statement).2 = (db.commit (operation.outcome db.catalog)).2 ∧
      ((db.run statement).1.map fun _ => ()) = (db.commit (operation.outcome db.catalog)).1 := by
  have hanswer : ∀ {α : Type} (render : α → String) (outcome : Except Fault (Step α)),
      (answer render (db.commit outcome)).2 = (db.commit (outcome.map Step.forget)).2 ∧
        ((answer render (db.commit outcome)).1.map fun _ => ()) =
          (db.commit (outcome.map Step.forget)).1 := by
    intro α render outcome
    rw [commit_forget, answer]
    refine ⟨rfl, ?_⟩
    cases (db.commit outcome).1 <;> rfl
  cases statement with
  | select | describe | showTables | showTable => cases h
  | _ =>
    obtain rfl := Option.some.inj h
    exact hanswer _ _

theorem Database.run_of_reading {σ : Type} [Store σ] {statement : Statement}
    (h : statement.operation? = none) (db : Database σ) : (db.run statement).2 = db := by
  cases statement <;> first | rfl | cases h

/-- The operation that a text writes, if it writes a statement that may change the catalog. -/
def Operation.ofText? (text : String) : Option Operation :=
  match Statement.read text.toList with
  | .ok statement => statement.operation?
  | .error _ => none

namespace Database

variable {σ : Type} [Store σ] {text : String}

theorem query_of_ofText? {operation : Operation} (h : Operation.ofText? text = some operation)
    (db : Database σ) :
    (db.query text).2 = (db.commit (operation.outcome db.catalog)).2 ∧
      ((db.query text).1.map fun _ => ()) = (db.commit (operation.outcome db.catalog)).1 := by
  unfold Operation.ofText? at h
  unfold query
  cases hread : Statement.read text.toList with
  | error fault =>
    rw [hread] at h
    cases h
  | ok statement =>
    rw [hread] at h
    exact run_of_operation? h db

theorem query_of_ofText?_eq_none (h : Operation.ofText? text = none) (db : Database σ) :
    (db.query text).2 = db := by
  unfold Operation.ofText? at h
  unfold query
  cases hread : Statement.read text.toList with
  | error fault => rfl
  | ok statement =>
    rw [hread] at h
    exact run_of_reading h db

end Database

end Rowfile

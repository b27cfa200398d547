import Rowfile.Proofs.Loading
import Rowfile.Proofs.WrittenValues

/-!
# The data file and the catalog

A catalog in memory and the data file drift apart when a save fails, and they meet again at the next
save that works. All that is needed of a save is that it either puts the whole catalog into the data
file or fails and leaves the folder as it was. A statement then either fails or changes nothing, and
leaves the data file alone, or the data file shows the catalog in memory afterwards, with all changes
that could not be saved before.
-/
namespace Rowfile

/-! ## Stores with a data file -/

/-- A store with a folder, in which a save replaces the data file or fails and changes nothing. -/
class FileStore (σ : Type) extends Store σ where
  folder : σ → FolderState
  replaced {catalog : Catalog} {store : σ} : (save catalog store).1 = .ok () → ∃ indented time,
    FolderState.save indented time catalog (folder store) = (.ok (), folder (save catalog store).2)
  left {catalog : Catalog} {store : σ} {fault : Fault} :
    (save catalog store).1 = .error fault → folder (save catalog store).2 = folder store

instance : FileStore FolderStore where
  folder := FolderStore.folder
  replaced {_ store} h := ⟨store.indented, store.time, Prod.ext h rfl⟩
  left h := FolderState.eq_of_saveWith_error h

/-- A folder to which some saves fail. The plan says of each save to come at which of its steps it
fails, and with what; saves past the end of the plan are left to the folder. -/
structure UncertainStore where
  store : FolderStore
  plan : List (Option Trouble)

def UncertainStore.save (catalog : Catalog) (uncertain : UncertainStore) :
    Except Fault Unit × UncertainStore :=
  let store := uncertain.store
  let (result, folder) :=
    store.folder.saveWith uncertain.plan.head?.join store.indented store.time catalog
  (result, ⟨{ store with folder := folder }, uncertain.plan.tail⟩)

instance : FileStore UncertainStore where
  save := UncertainStore.save
  folder uncertain := uncertain.store.folder
  replaced {_ uncertain} h := ⟨uncertain.store.indented, uncertain.store.time,
    (FolderState.saveWith_eq_ok_iff.mp (Prod.ext h rfl)).2⟩
  left h := FolderState.eq_of_saveWith_error h

namespace Database

variable {σ : Type} [FileStore σ]

def folder (db : Database σ) : FolderState := FileStore.folder db.store

variable {α : Type} {outcome : Except Fault (Step α)} {step : Step α} {db : Database σ}

theorem folder_commit_of_error {fault : Fault} (h : (db.commit outcome).1 = .error fault) :
    (db.commit outcome).2.folder = db.folder := by
  cases outcome with
  | error _ => rfl
  | ok step =>
    obtain ⟨answer, catalog, saves⟩ := step
    cases saves with
    | false => cases h
    | true =>
      rw [commit_of_saves] at h ⊢
      cases hsave : (Store.save catalog db.store).1 with
      | ok _ =>
        rw [hsave] at h
        cases h
      | error _ => exact FileStore.left hsave

theorem folder_commit_of_unsaved (h : step.saves = false) :
    (db.commit (.ok step)).2.folder = db.folder := by
  simp only [commit, h, Bool.false_eq_true, if_false]
  rfl

theorem saved_of_commit {answer : α} (h : step.saves = true)
    (hok : (db.commit (.ok step)).1 = .ok answer) : ∃ indented time,
      FolderState.save indented time step.catalog db.folder =
        (.ok (), (db.commit (.ok step)).2.folder) := by
  obtain ⟨_, catalog, saves⟩ := step
  obtain rfl : saves = true := h
  rw [commit_of_saves] at hok ⊢
  cases hsave : (Store.save catalog db.store).1 with
  | ok _ => exact FileStore.replaced hsave
  | error fault =>
    rw [hsave] at hok
    cases hok

/-! ## Runs of statements -/

/-- The database after some texts, each of which is read and run whatever becomes of the others. -/
def queries {σ : Type} [Store σ] (texts : List String) (db : Database σ) : Database σ :=
  texts.foldl (fun db text => (db.query text).2) db

/-- What a text does in memory does not depend on the store. -/
theorem catalog_query {σ : Type} [Store σ] (text : String) (db : Database σ) :
    (db.query text).2.catalog =
      (Operation.ofText? text).elim db.catalog fun operation => operation.apply db.catalog := by
  cases h : Operation.ofText? text with
  | none => rw [query_of_ofText?_eq_none h, Option.elim_none]
  | some operation =>
    rw [(query_of_ofText? h db).1, Option.elim_some, ← operation.after_outcome]
    exact catalog_change (fun _ => operation.outcome db.catalog) db

theorem catalog_queries {σ τ : Type} [Store σ] [Store τ] (texts : List String)
    {db : Database σ} {other : Database τ} (h : db.catalog = other.catalog) :
    (db.queries texts).catalog = (other.queries texts).catalog := by
  induction texts generalizing db other with
  | nil => exact h
  | cons text texts ih => exact ih (by rw [catalog_query, catalog_query, h])

end Database

/-- A regular catalog of finite values. -/
structure Catalog.Plain (catalog : Catalog) : Prop where
  regular : catalog.Regular
  finite : catalog.AllTables Table.Finite

namespace Catalog.Plain

/-- A catalog that was loaded is plain, and so is the empty one of a missing data file. -/
theorem of_load [FloatReader] {folder : FolderState} {catalog : Catalog} (h : folder.load = .ok catalog) :
    catalog.Plain := by
  unfold FolderState.load at h
  split at h
  · split at h
    · next hoctets =>
      obtain rfl := Except.ok.inj h
      exact ⟨(Reached.loaded hoctets).regular, finite_of_ofOctets? hoctets⟩
    · cases h
  · cases h
  · obtain rfl := Except.ok.inj h
    exact ⟨regular_empty, fun _ _ h => by cases h⟩

theorem query {σ : Type} [Store σ] {db : Database σ} (h : db.catalog.Plain) (text : String) :
    (db.query text).2.catalog.Plain := by
  rw [Database.catalog_query]
  cases ho : Operation.ofText? text with
  | none => exact h
  | some operation =>
    have hmoves := operation.moves_apply db.catalog
    refine ⟨hmoves.regular h.regular, hmoves.finite ?_ h.regular h.finite⟩
    unfold Operation.ofText? at ho
    split at ho
    · next hread => exact (Statement.finite_read hread).values ho
    · cases ho

theorem queries {σ : Type} [Store σ] {db : Database σ} (h : db.catalog.Plain)
    (texts : List String) : (db.queries texts).catalog.Plain := by
  induction texts generalizing db with
  | nil => exact h
  | cons text texts ih => exact ih (h.query text)

theorem load_of_octets? [FloatReader] {catalog : Catalog} (h : catalog.Plain)
    (hfloats : catalog.FloatsReadBack) {indented : Bool} {time : String} {folder : FolderState}
    (hoctets : folder.octets? = some (catalog.toOctets indented time)) :
    ∃ loaded, folder.load = .ok loaded ∧ loaded.content = catalog.content := by
  obtain ⟨hread, hcontent⟩ := h.regular.ofOctets?_toOctets hfloats indented time
  rw [Catalog.stored_content h.finite] at hcontent hread
  refine ⟨catalog.content.catalog, ?_, hcontent⟩
  obtain ⟨data, rfl⟩ := FolderState.octets?_eq_some_iff.mp hoctets
  simp only [FolderState.load, hread]

end Catalog.Plain

/-- The text writes a statement that changes the catalog unless it fails: one that may change it, and
no UPDATE or DELETE that matches nothing. -/
def Catalog.ChangedBy (catalog : Catalog) (text : String) : Prop :=
  ∃ statement, Statement.read text.toList = .ok statement ∧ statement.isMutation = true ∧
    ¬statement.MatchesNothing catalog

theorem Catalog.changedBy_iff {catalog : Catalog} {text : String} :
    catalog.ChangedBy text ↔
      ∃ operation, Operation.ofText? text = some operation ∧ ¬operation.MatchesNothing catalog := by
  constructor
  · rintro ⟨statement, hread, hmutation, hmatches⟩
    rw [← statement.isSome_operation?] at hmutation
    obtain ⟨operation, ho⟩ := Option.isSome_iff_exists.mp hmutation
    refine ⟨operation, ?_, fun h => hmatches ⟨operation, ho, h⟩⟩
    rw [Operation.ofText?, hread]
    exact ho
  · rintro ⟨operation, ho, hmatches⟩
    unfold Operation.ofText? at ho
    split at ho
    · next statement hread =>
      refine ⟨statement, hread, ?_, ?_⟩
      · rw [← statement.isSome_operation?, ho, Option.isSome_some]
      · rintro ⟨_, hother, h⟩
        obtain rfl := Option.some.inj (ho.symm.trans hother)
        exact hmatches h
    · cases ho

section
variable {σ : Type} [FileStore σ]

/-- A text that is no such statement leaves the folder alone. -/
theorem Database.folder_query_of_unchanged {db : Database σ} {text : String}
    (h : ¬db.catalog.ChangedBy text) : (db.query text).2.folder = db.folder := by
  cases ho : Operation.ofText? text with
  | none => rw [query_of_ofText?_eq_none ho]
  | some operation =>
    rw [(query_of_ofText? ho db).1]
    cases houtcome : operation.outcome db.catalog with
    | error fault => rfl
    | ok step =>
      refine folder_commit_of_unsaved (Bool.eq_false_iff.mpr fun hsaves =>
        h (Catalog.changedBy_iff.mpr ?_))
      exact ⟨operation, ho, (Operation.saves_iff houtcome).1.mp hsaves⟩

theorem Database.folder_query_of_error {db : Database σ} {text : String} {fault : Fault}
    (h : (db.query text).1 = .error fault) : (db.query text).2.folder = db.folder := by
  cases ho : Operation.ofText? text with
  | none => rw [query_of_ofText?_eq_none ho]
  | some operation =>
    obtain ⟨hafter, hanswer⟩ := query_of_ofText? ho db
    rw [h] at hanswer
    rw [hafter]
    exact folder_commit_of_error hanswer.symm

/-- A statement that changes the catalog and does not fail has put it into the data file. -/
theorem Database.saved_of_query {db : Database σ} {text : String} {answer : Outcome}
    (h : db.catalog.ChangedBy text) (hok : (db.query text).1 = .ok answer) :
    ∃ indented time, FolderState.save indented time (db.query text).2.catalog db.folder =
      (.ok (), (db.query text).2.folder) := by
  obtain ⟨operation, ho, hmatches⟩ := Catalog.changedBy_iff.mp h
  obtain ⟨hdb, hanswer⟩ := query_of_ofText? ho db
  rw [hok] at hanswer
  rw [hdb]
  cases houtcome : operation.outcome db.catalog with
  | error fault =>
    rw [houtcome] at hanswer
    cases hanswer
  | ok step =>
    rw [houtcome] at hanswer
    have hcatalog : (db.commit (.ok step)).2.catalog = step.catalog :=
      catalog_change (fun _ => .ok step) db
    rw [hcatalog]
    exact saved_of_commit ((Operation.saves_iff houtcome).1.mpr hmatches) hanswer.symm

/-! ## The file mirrors the catalog -/

/-- After any texts on a database that was opened on a data file, whatever saves fail: memory holds
what the texts leave where nothing is saved; a text that fails or that is no statement that changes
the catalog leaves the folder as it was; and after any other text the catalog in memory is what is
written in the data file and, if its floats are read back, what is loaded from it. -/
theorem data_file_mirrors_catalog [FloatReader] {catalog : Catalog} {store : σ}
    (hopen : (FileStore.folder store).load = .ok catalog) (texts : List String) (text : String) :
    let before := Database.queries texts ⟨catalog, store⟩
    let after := (before.query text).2
    after.catalog =
        (Database.queries (texts ++ [text]) (⟨catalog, ()⟩ : MemoryDatabase)).catalog ∧
      ((∃ fault, (before.query text).1 = .error fault) ∨ ¬before.catalog.ChangedBy text →
        after.folder = before.folder) ∧
      ((∃ answer, (before.query text).1 = .ok answer) → before.catalog.ChangedBy text →
        (∃ indented time, after.folder.octets? = some (after.catalog.toOctets indented time)) ∧
          (after.catalog.FloatsReadBack →
            ∃ loaded, after.folder.load = .ok loaded ∧
              loaded.content = after.catalog.content)) := by
  intro before after
  refine ⟨?_, ?_, ?_⟩
  · have hrun : after = Database.queries (texts ++ [text]) ⟨catalog, store⟩ := by
      simp only [after, before, Database.queries, List.foldl_append, List.foldl_cons,
        List.foldl_nil]
    rw [hrun]
    exact Database.catalog_queries _ rfl
  · rintro (⟨fault, hfault⟩ | hunchanged)
    · exact Database.folder_query_of_error hfault
    · exact Database.folder_query_of_unchanged hunchanged
  · rintro ⟨answer, hok⟩ hchanged
    obtain ⟨indented, time, hsave⟩ := Database.saved_of_query hchanged hok
    have hoctets := FolderState.octets?_of_save hsave
    refine ⟨⟨indented, time, hoctets⟩, fun hfloats => ?_⟩
    have hplain : before.catalog.Plain := (Catalog.Plain.of_load hopen).queries texts
    exact (hplain.query text).load_of_octets? hfloats hoctets

end

theorem Catalog.changedBy_of_insert {catalog : Catalog} {text : String}
    (h : (match Statement.read text.toList with
      | .ok (.insert ..) => true
      | _ => false) = true) : catalog.ChangedBy text := by
  split at h
  · next hread =>
    refine ⟨_, hread, rfl, ?_⟩
    rintro ⟨_, ho, hmatches⟩
    obtain rfl := Option.some.inj ho
    exact hmatches
  · cases h

/-- A fresh folder to which the second save fails while the file beside the data file is written. -/
def failingOnce : UncertainStore := ⟨⟨.fresh, true, ""⟩, [none, some ⟨.flush, .fileAccess⟩]⟩

/-- The database of that folder after a table was made and a record was inserted. -/
def savedOnce : Database UncertainStore :=
  Database.queries ["CREATE TABLE t (id FLOAT PRIMARY KEY)", "INSERT INTO t VALUES (0.5)"]
    ⟨.empty, failingOnce⟩

/-- The file is without the record whose own save failed until the next record is saved. -/
theorem data_file_mirrors_catalog_failing :
    (FileStore.folder failingOnce).load = .ok .empty ∧
      savedOnce.catalog.idsOf "t" = ["0.5"] ∧
      (savedOnce.folder.load.map fun loaded => loaded.idsOf "t") = .ok [] ∧
      (∃ answer, (savedOnce.query "INSERT INTO t VALUES (2.5)").1 = .ok answer) ∧
      savedOnce.catalog.ChangedBy "INSERT INTO t VALUES (2.5)" ∧
      (savedOnce.query "INSERT INTO t VALUES (2.5)").2.catalog.idsOf "t" = ["0.5", "2.5"] ∧
      (savedOnce.query "INSERT INTO t VALUES (2.5)").2.catalog.FloatsReadBack ∧
      ∃ loaded, (savedOnce.query "INSERT INTO t VALUES (2.5)").2.folder.load = .ok loaded ∧
        loaded.content = (savedOnce.query "INSERT INTO t VALUES (2.5)").2.catalog.content := by
  have hanswer : ∃ answer, (savedOnce.query "INSERT INTO t VALUES (2.5)").1 = .ok answer := by
    have hok : (savedOnce.query "INSERT INTO t VALUES (2.5)").1.isOk = true := by decide +kernel
    cases h : (savedOnce.query "INSERT INTO t VALUES (2.5)").1 with
    | ok answer => exact ⟨answer, rfl⟩
    | error fault =>
      rw [h] at hok
      cases hok
  have hchanged : savedOnce.catalog.ChangedBy "INSERT INTO t VALUES (2.5)" :=
    Catalog.changedBy_of_insert (by decide +kernel)
  have hfloats : (savedOnce.query "INSERT INTO t VALUES (2.5)").2.catalog.FloatsReadBack := by
    decide +kernel
  have hopen : (FileStore.folder failingOnce).load = .ok .empty := rfl
  have hmirror := data_file_mirrors_catalog hopen
    ["CREATE TABLE t (id FLOAT PRIMARY KEY)", "INSERT INTO t VALUES (0.5)"]
    "INSERT INTO t VALUES (2.5)"
  rw [← savedOnce] at hmirror
  exact ⟨hopen, by decide +kernel, by decide +kernel, hanswer, hchanged, by decide +kernel,
    hfloats, (hmirror.2.2 hanswer hchanged).2 hfloats⟩

end Rowfile

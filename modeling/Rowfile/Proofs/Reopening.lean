import Rowfile.Sessions
import Rowfile.Proofs.Answers
import Rowfile.Proofs.FreedIds

/-!
# Reopening a data file

A database is asked some texts, closed, and opened again on its data file. As long as its saves work,
the data file shows what the catalog in memory shows, so what is opened again differs from what was
closed in one thing: it has forgotten the ids that deletions freed. The answers and the catalog
after any further texts are therefore those of the database that was never closed, unless one of the
texts asks for such an id.
-/
namespace Rowfile

/-! ## Stores to which every save works -/

def Store.Works {σ : Type} [Store σ] (store : σ) : Prop :=
  ∀ catalog, (Store.save catalog store).1 = .ok ()

namespace Database

variable {σ α : Type} [Store σ] {db : Database σ}

theorem commit_of_works (h : Store.Works db.store) (outcome : Except Fault (Step α)) :
    (db.commit outcome).1 = outcome.map Step.answer := by
  cases outcome with
  | error fault => rfl
  | ok step =>
    obtain ⟨answer, catalog, saves⟩ := step
    cases saves with
    | false => rfl
    | true =>
      rw [commit_of_saves, h]
      rfl

theorem query_of_works (db : Database σ) (h : Store.Works db.store) (text : String) :
    (db.query text).1 = ((⟨db.catalog, ()⟩ : MemoryDatabase).query text).1 := by
  have hchange : ∀ {β : Type} (render : β → String)
      (operation : Catalog → Except Fault (Step β)), (answer render (db.change operation)).1 =
        (answer render ((⟨db.catalog, ()⟩ : MemoryDatabase).change operation)).1 := by
    intro β render operation
    rw [change_memory, answer, change, commit_of_works h]
    rfl
  unfold query
  cases Statement.read text.toList with
  | error fault => rfl
  | ok statement =>
    cases statement with
    | select | describe | showTables | showTable => rfl
    | _ => exact hchange _ _

end Database

/-! ## A database in its slot -/

namespace Sessions

theorem session?_put (world : Sessions) (slot : String) (session : Session) :
    (world.put slot session).session? slot = some session := by
  rw [session?, put, KeyedMap.lookup_cons_eq, if_pos rfl]

theorem session?_without (folder : FolderState) (slot : String) (slots : List (String × Session)) :
    (⟨folder, without slot slots⟩ : Sessions).session? slot = none := by
  rw [session?, List.lookup_eq_none_iff]
  intro entry he
  have hne : entry.1 ≠ slot := bne_iff_ne.mp (List.mem_filter.mp he).2
  exact bne_iff_ne.mpr hne.symm

theorem isSome_folder_close {world : Sessions} (hpresent : world.folder.isSome = true)
    (slot : String) : (world.close slot).2.folder.isSome = true := by
  unfold close
  split
  · exact hpresent
  · dsimp only
    split
    · rw [FolderState.freeLock, Option.isSome_map]
      exact hpresent
    · exact hpresent

end Sessions

section
variable [FloatReader]

/-- A folder that is there, with a data file that is loaded with the content of a catalog or that was
written from it. -/
structure FolderState.Mirrors (folder : FolderState) (catalog : Catalog) : Prop where
  present : folder.isSome = true
  shown : (∃ loaded, folder.load = .ok loaded ∧ loaded.content = catalog.content) ∨
    ∃ indented time, folder.octets? = some (catalog.toOctets indented time)

namespace FolderState.Mirrors

variable {folder : FolderState} {catalog : Catalog}

theorem works (h : folder.Mirrors catalog) (indented : Bool) (time : String) :
    Store.Works (⟨folder, indented, time⟩ : FolderStore) := by
  obtain ⟨entry, rfl⟩ := Option.isSome_iff_exists.mp h.present
  obtain ⟨data, lock⟩ := entry
  cases data with
  | directory => rcases h.shown with ⟨_, hload, _⟩ | ⟨_, _, hoctets⟩ <;> contradiction
  | absent | file => exact fun _ => rfl

theorem of_save {indented : Bool} {time : String} {folder folder' : FolderState}
    (hsave : FolderState.save indented time catalog folder = (.ok (), folder')) :
    folder'.Mirrors catalog := by
  obtain ⟨_, _, _, hfolder⟩ := FolderState.save_eq_ok_iff.mp hsave
  exact ⟨by rw [hfolder]; rfl, .inr ⟨indented, time, FolderState.octets?_of_save hsave⟩⟩

theorem loaded (h : folder.Mirrors catalog) (hplain : catalog.Plain)
    (hfloats : catalog.FloatsReadBack) :
    ∃ loaded, folder.load = .ok loaded ∧ loaded.content = catalog.content := by
  rcases h.shown with hloaded | ⟨_, _, hoctets⟩
  · exact hloaded
  · exact hplain.load_of_octets? hfloats hoctets

theorem query {db : Database FolderStore} (h : db.folder.Mirrors db.catalog) (text : String) :
    (db.query text).2.folder.Mirrors (db.query text).2.catalog := by
  cases ho : Operation.ofText? text with
  | none =>
    rw [Database.query_of_ofText?_eq_none ho]
    exact h
  | some operation =>
    rw [(Database.query_of_ofText? ho db).1]
    cases houtcome : operation.outcome db.catalog with
    | error fault => exact h
    | ok step =>
      have hcatalog : (db.commit (.ok step)).2.catalog = step.catalog :=
        Database.catalog_change (fun _ => .ok step) db
      rw [hcatalog]
      cases hsaves : step.saves with
      | false =>
        rw [Database.folder_commit_of_unsaved hsaves, (Operation.saves_iff houtcome).2 hsaves]
        exact h
      | true =>
        have hok : (db.commit (.ok step)).1 = .ok step.answer :=
          Database.commit_of_works (h.works db.store.indented db.store.time) _
        obtain ⟨_, _, hsave⟩ := Database.saved_of_commit hsaves hok
        exact of_save hsave

end FolderState.Mirrors

namespace Sessions

structure Holds (world : Sessions) (slot : String) (session : Session) : Prop where
  held : world.session? slot = some session
  plain : session.catalog.Plain
  mirrors : world.folder.Mirrors session.catalog

/-- The database in a slot is asked some texts, each at its time. The answers come with the world
after the last of them. -/
def ask (slot : String) :
    List (String × String) → Sessions → List (Option (Except Fault Outcome)) × Sessions
  | [], world => ([], world)
  | request :: requests, world =>
    let (answer, world) := world.act slot request.1 (Database.query request.2)
    let (answers, world) := world.ask slot requests
    (answer :: answers, world)

variable {world : Sessions} {slot : String} {session : Session}

theorem Holds.act (h : world.Holds slot session) (time text : String) :
    (world.act slot time (Database.query text)).1 =
        some ((⟨session.catalog, ()⟩ : MemoryDatabase).query text).1 ∧
      (world.act slot time (Database.query text)).2.Holds slot { session with
        catalog := ((⟨session.catalog, ()⟩ : MemoryDatabase).query text).2.catalog } := by
  let db : Database FolderStore := ⟨session.catalog, ⟨world.folder, session.indented, time⟩⟩
  have hcatalog : (db.query text).2.catalog =
      ((⟨session.catalog, ()⟩ : MemoryDatabase).query text).2.catalog := by
    rw [Database.catalog_query, Database.catalog_query]
  have hplain : db.catalog.Plain := h.plain
  have hmirrors : db.folder.Mirrors db.catalog := h.mirrors
  simp only [Sessions.act, h.held]
  refine ⟨congrArg some (db.query_of_works (h.mirrors.works _ _) text), ?_⟩
  rw [← hcatalog]
  exact ⟨session?_put _ _ _, hplain.query text, hmirrors.query text⟩

theorem Holds.ask (h : world.Holds slot session) (requests : List (String × String)) :
    (world.ask slot requests).1 = (Database.answers (requests.map Prod.snd)
        (⟨session.catalog, ()⟩ : MemoryDatabase)).map some ∧
      (world.ask slot requests).2.Holds slot { session with
        catalog := (Database.queries (requests.map Prod.snd)
          (⟨session.catalog, ()⟩ : MemoryDatabase)).catalog } := by
  induction requests generalizing world session with
  | nil => exact ⟨rfl, h⟩
  | cons request requests ih =>
    obtain ⟨hanswer, hnext⟩ := h.act request.1 request.2
    obtain ⟨hanswers, hafter⟩ := ih hnext
    refine ⟨?_, hafter⟩
    simp only [Sessions.ask, List.map_cons, Database.answers, hanswer, hanswers]

theorem start_of_load {catalog : Catalog} (h : world.folder.load = .ok catalog)
    (indented locked : Bool) : world.start slot indented locked =
      (.ok (), world.put slot ⟨catalog, indented, locked⟩) := by
  rw [start, h]

theorem holds_put {catalog : Catalog} (hpresent : world.folder.isSome = true)
    (h : world.folder.load = .ok catalog) (indented locked : Bool) :
    (world.put slot ⟨catalog, indented, locked⟩).Holds slot ⟨catalog, indented, locked⟩ :=
  ⟨session?_put _ _ _, .of_load h, hpresent, .inl ⟨catalog, h, rfl⟩⟩

theorem holds_of_start {opened : Sessions} {indented locked : Bool}
    (h : world.start slot indented locked = (.ok (), opened))
    (hpresent : world.folder.isSome = true) :
    ∃ catalog, opened.Holds slot ⟨catalog, indented, locked⟩ ∧
      opened.folder.load = .ok catalog := by
  cases hload : world.folder.load with
  | error fault =>
    rw [start, hload] at h
    cases h
  | ok catalog =>
    rw [start_of_load hload] at h
    obtain rfl := (Prod.mk.inj h).2
    exact ⟨catalog, holds_put hpresent hload _ _, hload⟩

theorem holds_of_openFile {opened : Sessions} {indented locked : Bool}
    (hpresent : world.folder.isSome = true)
    (hopen : world.openFile slot indented locked = (.ok (), opened)) :
    ∃ catalog, opened.Holds slot ⟨catalog, indented, locked⟩ ∧
      opened.folder.load = .ok catalog := by
  have hclosed := isSome_folder_close hpresent slot
  unfold openFile at hopen
  cases locked with
  | false => exact holds_of_start hopen hclosed
  | true =>
    obtain ⟨⟨data, lock⟩, hentry⟩ := Option.isSome_iff_exists.mp hclosed
    simp only [if_true, hentry] at hopen
    cases lock with
    | held => cases hopen
    | absent | free => exact holds_of_start hopen rfl

/-- What a slot held is closed, and opening it again comes to loading a data file with the same
content, in a folder with or without the lock. -/
theorem exists_start (h : world.session? slot = some session)
    (hpresent : world.folder.isSome = true) :
    ∃ shut taken : FolderState, world.close slot = (true, ⟨shut, without slot world.slots⟩) ∧
      openFile slot session.indented session.locked ⟨shut, without slot world.slots⟩ =
        start slot session.indented session.locked ⟨taken, without slot world.slots⟩ ∧
      taken.isSome = true ∧ taken.load = world.folder.load := by
  obtain ⟨entry, hentry⟩ := Option.isSome_iff_exists.mp hpresent
  obtain ⟨data, lock⟩ := entry
  -- Opening closes the slot first, and finds it empty here.
  have hfree : ∀ folder, close slot ⟨folder, without slot world.slots⟩ =
      (false, ⟨folder, without slot world.slots⟩) := fun folder => by
    rw [close, session?_without]
  simp only [openFile, hfree]
  simp only [close, h, hentry]
  cases session.locked with
  | false => exact ⟨_, some ⟨data, lock⟩, rfl, rfl, rfl, rfl⟩
  | true => exact ⟨_, some ⟨data, .held⟩, rfl, rfl, rfl, by cases data <;> rfl⟩

/-- A database whose data file mirrors its catalog is closed and opened again, and has then what is
loaded. -/
theorem Holds.reopen (h : world.Holds slot session) (hfloats : session.catalog.FloatsReadBack) :
    ∃ closed reopened catalog, world.close slot = (true, closed) ∧
      closed.openFile slot session.indented session.locked = (.ok (), reopened) ∧
      reopened.Holds slot { session with catalog := catalog } ∧
      reopened.folder.load = .ok catalog ∧ catalog.content = session.catalog.content := by
  obtain ⟨catalog, hload, hcontent⟩ := h.mirrors.loaded h.plain hfloats
  obtain ⟨shut, taken, hclose, hopen, hpresent, hsame⟩ := exists_start h.held h.mirrors.present
  have htaken : (⟨taken, without slot world.slots⟩ : Sessions).folder.load = .ok catalog :=
    hsame.trans hload
  rw [start_of_load htaken] at hopen
  exact ⟨_, _, catalog, hclose, hopen, holds_put hpresent htaken _ _, htaken, hcontent⟩

end Sessions

end

/-! ## What reopening changes -/

def writtenBy (requests : List (String × String)) : List Operation :=
  (requests.map Prod.snd).filterMap Operation.ofText?

def Sessions.content? (world : Sessions) (slot : String) : Option CatalogContent :=
  (world.session? slot).map fun session => session.catalog.content

theorem Ledger.catalog_foldl_enter {σ : Type} [Store σ] (texts : List String) {db : Database σ}
    {ledger : Ledger} (h : ledger.catalog = db.catalog) :
    ((texts.filterMap Operation.ofText?).foldl Ledger.enter ledger).catalog =
      (db.queries texts).catalog := by
  induction texts generalizing db ledger with
  | nil => exact h
  | cons text texts ih =>
    have hquery := Database.catalog_query text db
    cases ho : Operation.ofText? text with
    | none =>
      rw [ho, Option.elim_none] at hquery
      rw [List.filterMap_cons_none ho]
      exact ih (h.trans hquery.symm)
    | some operation =>
      rw [ho, Option.elim_some] at hquery
      rw [List.filterMap_cons_some ho]
      exact ih ((congrArg operation.apply h).trans hquery.symm)

/-- A database is opened on a data file in a folder that is there, and is asked some texts that leave
it with floats that are read back. Then it can be closed and opened again; and the answers to all
further texts and the content after them are the same with and without that, if and only if none of
these texts asks for an id that was freed since the database was opened first. -/
theorem reopening_unnoticed_iff [FloatReader] {world opened : Sessions} {slot : String}
    {indented locked : Bool} (hpresent : world.folder.isSome = true)
    (hopen : world.openFile slot indented locked = (.ok (), opened))
    (before after : List (String × String))
    (hfloats : ∀ session ∈ (opened.ask slot before).2.session? slot,
      session.catalog.FloatsReadBack) :
    ∃ session closed reopened, opened.session? slot = some session ∧
      (opened.ask slot before).2.close slot = (true, closed) ∧
      closed.openFile slot indented locked = (.ok (), reopened) ∧
      (((opened.ask slot before).2.ask slot after).1 = (reopened.ask slot after).1 ∧
          ((opened.ask slot before).2.ask slot after).2.content? slot =
            (reopened.ask slot after).2.content? slot ↔
        ¬((writtenBy before).foldl Ledger.enter (.fresh session.catalog)).Asked
          (writtenBy after)) := by
  obtain ⟨catalog, hopened, hload⟩ := Sessions.holds_of_openFile hpresent hopen
  obtain ⟨_, hkept⟩ := hopened.ask before
  obtain ⟨closed, reopened, loaded, hclose, hreopen, hagain, hloaded, hcontent⟩ :=
    hkept.reopen (hfloats _ hkept.held)
  refine ⟨_, closed, reopened, hopened.held, hclose, hreopen, ?_⟩
  -- Both databases answer as catalogs in memory do: the one that was kept, which its ledger follows,
  -- and the one that was loaded, in which nothing was freed yet.
  have hcatalog : ((writtenBy before).foldl Ledger.enter (.fresh catalog)).catalog =
      (Database.queries (before.map Prod.snd) (⟨catalog, ()⟩ : MemoryDatabase)).catalog :=
    Ledger.catalog_foldl_enter _ rfl
  have halike := ((Ledger.Tidy.of_load hload).foldl_enter (writtenBy before)).alike
    (.of_load hloaded) (hcatalog ▸ hcontent.symm)
  obtain ⟨hanswers, hlast⟩ := hkept.ask after
  obtain ⟨hanswers_again, hlast_again⟩ := hagain.ask after
  rw [hanswers, hanswers_again, Sessions.content?, Sessions.content?, hlast.held, hlast_again.held,
    List.map_inj_right fun _ _ => Option.some.inj, Option.map_some, Option.map_some,
    Option.some.injEq, ← hcatalog]
  exact halike.answers_eq_iff (after.map Prod.snd)

/-- A record is stored in a new data file and deleted, and then `reinserting` stores it again. -/
def recycling : List (String × String) :=
  [("", "CREATE TABLE t (id INT PRIMARY KEY)"), ("", "INSERT INTO t VALUES (1)"),
    ("", "DELETE FROM t WHERE id = 1"), ("", "CREATE TABLE u (id FLOAT PRIMARY KEY)"),
    ("", "INSERT INTO u VALUES (2.5)")]

def reinserting : List (String × String) := [("", "INSERT INTO t VALUES (1)")]

def freshlyOpened : Sessions := (Sessions.fresh.openFile "a" true true).2

def keptOpen : Sessions := (freshlyOpened.ask "a" recycling).2

def openedAgain : Sessions := ((keptOpen.close "a").2.openFile "a" true true).2

/-- The one id that was freed in the table is the id of the deleted record. -/
theorem reopening_unnoticed_iff_recycled :
    Sessions.fresh.folder.isSome = true ∧
      Sessions.fresh.openFile "a" true true = (.ok (), freshlyOpened) ∧
      (((writtenBy recycling).foldl Ledger.enter (.fresh .empty)).freed "t" = ["1"]) ∧
      (∀ session ∈ (freshlyOpened.ask "a" recycling).2.session? "a",
        session.catalog.FloatsReadBack) ∧
      ∃ session closed reopened, freshlyOpened.session? "a" = some session ∧
        (freshlyOpened.ask "a" recycling).2.close "a" = (true, closed) ∧
        closed.openFile "a" true true = (.ok (), reopened) ∧
        (((freshlyOpened.ask "a" recycling).2.ask "a" reinserting).1 =
              (reopened.ask "a" reinserting).1 ∧
            ((freshlyOpened.ask "a" recycling).2.ask "a" reinserting).2.content? "a" =
              (reopened.ask "a" reinserting).2.content? "a" ↔
          ¬((writtenBy recycling).foldl Ledger.enter (.fresh session.catalog)).Asked
            (writtenBy reinserting)) := by
  have hopen : Sessions.fresh.openFile "a" true true = (.ok (), freshlyOpened) := rfl
  have hfloats : ∀ session ∈ (freshlyOpened.ask "a" recycling).2.session? "a",
      session.catalog.FloatsReadBack := by decide +kernel
  exact ⟨rfl, hopen, by decide +kernel, hfloats,
    reopening_unnoticed_iff rfl hopen recycling reinserting hfloats⟩

/-- The freed id is refused by the database that was kept open, and stored by the one that was
closed and opened again. -/
theorem reopening_noticed :
    (Sessions.fresh.openFile "a" true true).1 = .ok () ∧ (keptOpen.close "a").1 = true ∧
      ((keptOpen.close "a").2.openFile "a" true true).1 = .ok () ∧
      (keptOpen.ask "a" reinserting).1.map (Option.map Outcome.render) =
        [some "Error: Duplicate primary key '1' - record already exists"] ∧
      (openedAgain.ask "a" reinserting).1.map (Option.map Outcome.render) =
        [some "Record inserted into 't'"] := by
  refine ⟨by decide +kernel, by decide +kernel, by decide +kernel, ?_, ?_⟩
  · decide +kernel
  · decide +kernel

end Rowfile

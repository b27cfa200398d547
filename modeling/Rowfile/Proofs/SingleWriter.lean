import Rowfile.Proofs.LockHolders
import Rowfile.Proofs.RereadFloats

/-!
# A single writer

Databases are opened on one data file, called for, flushed and closed in any order and in any slots,
saves fail now and then, and somebody else may replace the data file. Only the lock file is left
alone. One event is checked at a time, and a run of events by induction (`Shared.after_induction`).

If nobody else touches the data file then it holds the catalog of the last save that worked, whichever
database saved it, and it is loaded as that catalog exactly if the floats in it are read back. If
moreover every database is opened with the lock and no save fails, then the one database that is open
holds what it loaded or what was saved last.
-/
namespace Rowfile

/-! ## What a database does -/

structure WatchedStore where
  store : FolderStore
  trouble : Option Trouble
  saved : Option Catalog

def WatchedStore.save (catalog : Catalog) (watched : WatchedStore) :
    Except Fault Unit × WatchedStore :=
  let store := watched.store
  match store.folder.saveWith watched.trouble store.indented store.time catalog with
  | (.ok (), folder) => (.ok (), ⟨{ store with folder := folder }, watched.trouble, some catalog⟩)
  | (.error fault, folder) => (.error fault, { watched with store.folder := folder })

instance : Store WatchedStore := ⟨WatchedStore.save⟩

inductive Call where
  | query (text : String)
  | flush

def Call.run {σ : Type} [Store σ] (db : Database σ) : Call → Database σ
  | query text => (db.query text).2
  | flush => db.flush.2

/-- A call to a database whose saves fail or work. The answer is the catalog of the last save that
worked. -/
def Call.watched (trouble : Option Trouble) (saved : Option Catalog) (call : Call)
    (db : Database FolderStore) : Except Fault (Option Catalog) × Database FolderStore :=
  let later := call.run (⟨db.catalog, ⟨db.store, trouble, saved⟩⟩ : Database WatchedStore)
  (.ok later.store.saved, ⟨later.catalog, later.store.store⟩)

/-- What a call can come to: nothing is changed, or the save of a catalog fails, or it works and
the catalog is taken note of. -/
inductive Acted (db : Database WatchedStore) : Database WatchedStore → Prop
  | kept : Acted db db
  | missed {catalog : Catalog} {fault : Fault}
      (failed : (Store.save catalog db.store).1 = .error fault) : Acted db ⟨catalog, db.store⟩
  | saved {catalog : Catalog} {folder : FolderState}
      (worked : FolderState.save db.store.store.indented db.store.store.time catalog
        db.store.store.folder = (.ok (), folder)) :
      Acted db ⟨catalog, ⟨{ db.store.store with folder := folder }, db.store.trouble, some catalog⟩⟩

theorem WatchedStore.acted_save (catalog : Catalog) (db : Database WatchedStore) :
    Acted db ⟨catalog, (Store.save catalog db.store).2⟩ := by
  obtain ⟨_, ⟨⟨folder, indented, time⟩, trouble, saved⟩⟩ := db
  rcases hsave : folder.saveWith trouble indented time catalog with ⟨fault | _, later⟩
  · obtain rfl : later = folder := by
      have hleft := FolderState.eq_of_saveWith_error (congrArg Prod.fst hsave)
      rwa [hsave] at hleft
    have hfailed : Store.save catalog (⟨⟨later, indented, time⟩, trouble, saved⟩ : WatchedStore) =
        (.error fault, ⟨⟨later, indented, time⟩, trouble, saved⟩) := by
      simp only [Store.save, WatchedStore.save, hsave]
    rw [hfailed]
    exact .missed (congrArg Prod.fst hfailed)
  · have hworked : Store.save catalog (⟨⟨folder, indented, time⟩, trouble, saved⟩ : WatchedStore) =
        (.ok (), ⟨⟨later, indented, time⟩, trouble, some catalog⟩) := by
      simp only [Store.save, WatchedStore.save, hsave]
    rw [hworked]
    exact .saved (FolderState.saveWith_eq_ok_iff.mp hsave).2

theorem Call.acted_run (call : Call) (db : Database WatchedStore) : Acted db (call.run db) := by
  cases call with
  | flush => exact WatchedStore.acted_save db.catalog db
  | query text =>
    unfold run
    cases ho : Operation.ofText? text with
    | none =>
      simp only [Database.query_of_ofText?_eq_none ho]
      exact .kept
    | some operation =>
      simp only [(Database.query_of_ofText? ho db).1]
      cases houtcome : operation.outcome db.catalog with
      | error fault => exact .kept
      | ok step =>
        have hkept := (Operation.saves_iff houtcome).2
        obtain ⟨answer, catalog, saves⟩ := step
        cases saves with
        | false =>
          obtain rfl : catalog = db.catalog := hkept rfl
          exact .kept
        | true =>
          rw [Database.commit_of_saves]
          exact WatchedStore.acted_save catalog db

theorem WatchedStore.save_none (catalog : Catalog) (store : FolderStore) (saved : Option Catalog) :
    (Store.save catalog (⟨store, none, saved⟩ : WatchedStore)).1 = (Store.save catalog store).1 ∧
      (Store.save catalog (⟨store, none, saved⟩ : WatchedStore)).2.store =
        (Store.save catalog store).2 := by
  simp only [Store.save, WatchedStore.save, FolderState.save]
  rcases store.folder.saveWith none store.indented store.time catalog with ⟨_ | _, later⟩ <;>
    exact ⟨rfl, rfl⟩

/-- As long as saves work, watching a database changes nothing. -/
theorem Call.watched_none (call : Call) (saved : Option Catalog) (db : Database FolderStore) :
    (call.watched none saved db).2 = call.run db := by
  unfold watched
  cases call with
  | flush =>
    exact congrArg (Database.mk db.catalog) (WatchedStore.save_none db.catalog db.store saved).2
  | query text =>
    simp only [run]
    cases ho : Operation.ofText? text with
    | none => simp only [Database.query_of_ofText?_eq_none ho]
    | some operation =>
      simp only [(Database.query_of_ofText? ho _).1]
      cases operation.outcome db.catalog with
      | error fault => rfl
      | ok step =>
        obtain ⟨answer, catalog, saves⟩ := step
        cases saves with
        | false => rfl
        | true =>
          simp only [Database.commit_of_saves]
          exact congrArg (Database.mk catalog) (WatchedStore.save_none catalog db.store saved).2

/-! ## Events -/

/-- The databases that share a data file, and the catalog of the last save that worked, if there was
one. -/
structure Shared where
  sessions : Sessions
  saved : Option Catalog

def Shared.start (folder : Folder) : Shared := ⟨⟨some folder, []⟩, none⟩

/-- What can happen on a data file: a database is opened, closed or called for in a slot, where the
saves of a call may fail, or somebody else replaces the data file. -/
inductive Event where
  | opens (slot : String) (indented locked : Bool)
  | closes (slot : String)
  | calls (slot time : String) (trouble : Option Trouble) (call : Call)
  | replaces (data : DataEntry)

namespace Event

/-- The event opens no database without the lock and leaves the data file to the databases. -/
def isExclusive : Event → Bool
  | opens _ _ locked => locked
  | replaces _ => false
  | _ => true

def isWorking : Event → Bool
  | calls _ _ trouble _ => trouble.isNone
  | _ => true

def apply [FloatReader] (world : Shared) : Event → Shared
  | opens slot indented locked =>
    { world with sessions := (world.sessions.openFile slot indented locked).2 }
  | closes slot => { world with sessions := (world.sessions.close slot).2 }
  | calls slot time trouble call =>
    match world.sessions.act slot time (call.watched trouble world.saved) with
    | (some (.ok saved), sessions) => ⟨sessions, saved⟩
    | (_, sessions) => { world with sessions := sessions }
  | replaces data =>
    { world with sessions := { world.sessions with
        folder := world.sessions.folder.setData data } }

end Event

def Shared.after [FloatReader] (world : Shared) (events : List Event) : Shared := events.foldl Event.apply world

/-- What an admitted event preserves holds after every run of admitted events. -/
theorem Shared.after_induction [FloatReader] (invariant : Shared → Prop) (admitted : Event → Bool)
    (step : ∀ world event, admitted event = true → invariant world → invariant (event.apply world))
    {world : Shared} (h : invariant world) {events : List Event}
    (hevents : events.all admitted = true) : invariant (world.after events) := by
  induction events generalizing world with
  | nil => exact h
  | cons event events ih =>
    obtain ⟨hevent, hrest⟩ := Bool.and_eq_true_iff.mp hevents
    exact ih (step world event hevent h) hrest

/-- The database of a session as a call finds it. -/
def Shared.database (world : Shared) (session : Session) (time : String) (trouble : Option Trouble) :
    Database WatchedStore :=
  ⟨session.catalog, ⟨⟨world.sessions.folder, session.indented, time⟩, trouble, world.saved⟩⟩

namespace Event

variable {world : Shared} {slot : String} {session : Session}

theorem apply_calls_of_none [FloatReader] (h : world.sessions.session? slot = none) (time : String)
    (trouble : Option Trouble) (call : Call) :
    (calls slot time trouble call).apply world = world := by
  simp only [apply, Sessions.act, h]

theorem apply_calls_of_some [FloatReader] (h : world.sessions.session? slot = some session) (time : String)
    (trouble : Option Trouble) (call : Call) :
    let later := call.run (world.database session time trouble)
    (calls slot time trouble call).apply world =
      ⟨({ world.sessions with folder := later.store.store.folder } : Sessions).put slot
        { session with catalog := later.catalog }, later.store.saved⟩ := by
  simp only [apply, Sessions.act, h]
  rfl

end Event

/-! ## Runs of events -/

theorem Acted.lock? {db later : Database WatchedStore} (h : Acted db later) :
    later.store.store.folder.lock? = db.store.store.folder.lock? := by
  cases h with
  | kept | missed => rfl
  | saved worked => exact FolderState.lock?_of_save worked

/-- Every event keeps the lock with its one holder. -/
theorem Event.guarded_apply [FloatReader] (world : Shared) (event : Event) (h : world.sessions.Guarded) :
    (event.apply world).sessions.Guarded := by
  cases event with
  | opens slot indented locked => exact h.openFile slot indented locked
  | closes slot => exact h.close slot
  | replaces data => exact h.congr (FolderState.lock?_setData _ data) fun _ => Iff.rfl
  | calls slot time trouble call =>
    cases hsession : world.sessions.session? slot with
    | none => rwa [apply_calls_of_none hsession]
    | some session =>
      rw [apply_calls_of_some hsession]
      refine h.congr (call.acted_run _).lock? fun other => ?_
      rw [Sessions.locks_put_iff]
      split
      · next hother =>
        subst hother
        simp only [Sessions.Locks, hsession, Option.some.injEq, exists_eq_left']
      · exact Iff.rfl

theorem Shared.guarded_after [FloatReader] {folder : Folder} (h : folder.lock ≠ .held) (events : List Event) :
    ((start folder).after events).sessions.Guarded := by
  have hstart : (start folder).sessions.Guarded := by
    have hheld : (start folder).sessions.folder.lock? ≠ some .held := fun hheld =>
      h (Option.some.inj hheld)
    have hnone : ∀ slot, ¬(start folder).sessions.Locks slot := fun slot ⟨_, hsession, _⟩ => by
      cases hsession
    exact ⟨rfl, by simp only [hheld, hnone, exists_false], fun hslot => absurd hslot (hnone _)⟩
  exact after_induction (fun world => world.sessions.Guarded) (fun _ => true)
    (fun world event _ h => event.guarded_apply world h) hstart (by simp)

/-! ## The last save -/

/-- A folder shows what was saved last: its data file was written from that catalog, or it is as it
was found and nothing was saved. -/
def FolderState.Shows (found folder : FolderState) : Option Catalog → Prop
  | some saved => ∃ indented time, folder.octets? = some (saved.toOctets indented time)
  | none => folder.data? = found.data?

theorem FolderState.Shows.congr {found folder folder' : FolderState} {saved : Option Catalog}
    (h : Shows found folder saved) (hdata : folder'.data? = folder.data?) :
    Shows found folder' saved := by
  cases saved with
  | none => exact hdata.trans h
  | some saved => simpa only [Shows, octets?_congr hdata] using h

theorem Call.plain_run {σ : Type} [Store σ] {db : Database σ} (h : db.catalog.Plain) (call : Call) :
    (call.run db).catalog.Plain := by
  cases call with
  | query text => exact h.query text
  | flush => exact h

/-- After a call the data file shows what was saved last if it did before. -/
theorem Acted.shows {db later : Database WatchedStore} {found : FolderState} (h : Acted db later)
    (hshown : FolderState.Shows found db.store.store.folder db.store.saved) :
    FolderState.Shows found later.store.store.folder later.store.saved := by
  cases h with
  | kept | missed => exact hshown
  | saved worked => exact ⟨_, _, FolderState.octets?_of_save worked⟩

/-- What was saved last is plain if it was before and the catalog after the call is. -/
theorem Acted.plain_saved {db later : Database WatchedStore} (h : Acted db later)
    (hplain : later.catalog.Plain) (hsaved : ∀ saved ∈ db.store.saved, saved.Plain) :
    ∀ saved ∈ later.store.saved, saved.Plain := by
  cases h with
  | kept | missed => exact hsaved
  | saved _ => exact fun _ h => Option.some.inj h ▸ hplain

section
variable [FloatReader]

/-- As long as saves work, a catalog that is the one saved last or that is loaded is so after a
call. -/
theorem Acted.current {db later : Database WatchedStore} (h : Acted db later)
    (hworks : db.store.trouble = none)
    (hmirrors : db.store.store.folder.Mirrors db.catalog)
    (hcurrent : db.store.saved = some db.catalog ∨ db.store.store.folder.load = .ok db.catalog) :
    later.store.saved = some later.catalog ∨
      later.store.store.folder.load = .ok later.catalog := by
  cases h with
  | kept => exact hcurrent
  | missed failed =>
    obtain ⟨_, ⟨⟨folder, indented, time⟩, trouble, saved⟩⟩ := db
    obtain rfl : trouble = none := hworks
    rw [(WatchedStore.save_none _ _ _).1, hmirrors.works] at failed
    cases failed
  | saved worked => exact .inl rfl

/-- The catalogs that are open and the one saved last are plain, and the data file shows what was
saved last. -/
structure Shared.Tracked (found : FolderState) (world : Shared) : Prop where
  guarded : world.sessions.Guarded
  plain : ∀ {slot session}, world.sessions.session? slot = some session → session.catalog.Plain
  plain_saved : ∀ saved ∈ world.saved, saved.Plain
  shown : FolderState.Shows found world.sessions.folder world.saved

/-- The databases that are open were opened with the lock, and hold what was saved last or what is
loaded. -/
structure Shared.Mirrored (found : FolderState) (world : Shared) : Prop
    extends world.Tracked found where
  locked : ∀ {slot session}, world.sessions.session? slot = some session → session.locked = true
  current : ∀ {slot session}, world.sessions.session? slot = some session →
    world.saved = some session.catalog ∨ world.sessions.folder.load = .ok session.catalog

/-- The data file mirrors what a database holds. -/
theorem Shared.Mirrored.mirrors {found : FolderState} {world : Shared} (h : world.Mirrored found)
    {slot : String} {session : Session} (hsession : world.sessions.session? slot = some session) :
    world.sessions.folder.Mirrors session.catalog where
  present := by simpa only [FolderState.lock?, Option.isSome_map] using h.guarded.present
  shown := by
    rcases h.current hsession with hsaved | hload
    · have hshown := h.shown
      rw [hsaved] at hshown
      exact .inr hshown
    · exact .inl ⟨_, hload, rfl⟩

namespace Event

variable {found : FolderState} {world : Shared} {slot : String} {session : Session}

/-- Where a database that is open after an event comes from: it was open before and the event is no
call to it, or the event has just opened it, or it is what a call has made of it. -/
theorem session?_apply (h : world.sessions.Guarded) (event : Event)
    (hsession : (event.apply world).sessions.session? slot = some session) :
    (world.sessions.session? slot = some session ∧
        ∀ time trouble call, event ≠ calls slot time trouble call) ∨
      (∃ indented, event = opens slot indented session.locked ∧
        world.sessions.folder.load = .ok session.catalog) ∨
      ∃ time trouble call called, event = calls slot time trouble call ∧
        world.sessions.session? slot = some called ∧
        session = { called with
          catalog := (call.run (world.database called time trouble)).catalog } := by
  cases event with
  | replaces data => exact .inl ⟨hsession, fun _ _ _ he => by cases he⟩
  | closes other =>
    exact .inl ⟨Sessions.session?_of_close hsession, fun _ _ _ he => by cases he⟩
  | opens other indented locked =>
    have hopening := Sessions.opening other indented locked (h.close other).present
    rcases hopening.session?_or hsession with hkept | ⟨rfl, rfl, hload⟩
    · exact .inl ⟨Sessions.session?_of_close hkept, fun _ _ _ he => by cases he⟩
    · rw [Sessions.load_close] at hload
      exact .inr (.inl ⟨indented, rfl, hload⟩)
  | calls other time trouble call =>
    cases hcalled : world.sessions.session? other with
    | none =>
      rw [apply_calls_of_none hcalled] at hsession
      refine .inl ⟨hsession, fun _ _ _ he => ?_⟩
      obtain ⟨rfl, _⟩ := Event.calls.inj he
      cases hcalled.symm.trans hsession
    | some called =>
      rw [apply_calls_of_some hcalled] at hsession
      rcases Sessions.eq_or_session?_of_put hsession with ⟨rfl, rfl⟩ | ⟨hother, hkept⟩
      · exact .inr (.inr ⟨time, trouble, call, called, rfl, hcalled, rfl⟩)
      · exact .inl ⟨hkept, fun _ _ _ he => hother (Event.calls.inj he).1.symm⟩

/-- As long as nobody else touches the data file, it is as before and nothing is saved, or the event
is a call to a database that is open. -/
theorem data?_apply (h : world.sessions.Guarded) {event : Event}
    (hevent : event.isExclusive = true) :
    ((event.apply world).sessions.folder.data? = world.sessions.folder.data? ∧
        (event.apply world).saved = world.saved) ∨
      ∃ slot time trouble call called, event = calls slot time trouble call ∧
        world.sessions.session? slot = some called := by
  cases event with
  | replaces data => cases hevent
  | closes slot => exact .inl ⟨Sessions.data?_close _ slot, rfl⟩
  | opens slot indented locked =>
    have hopening := Sessions.opening slot indented locked (h.close slot).present
    exact .inl ⟨hopening.data?.trans (Sessions.data?_close _ slot), rfl⟩
  | calls slot time trouble call =>
    cases hcalled : world.sessions.session? slot with
    | none =>
      rw [apply_calls_of_none hcalled]
      exact .inl ⟨rfl, rfl⟩
    | some called => exact .inr ⟨slot, time, trouble, call, called, rfl, hcalled⟩

theorem tracked_apply (world : Shared) (event : Event) (hevent : event.isExclusive = true)
    (h : world.Tracked found) : (event.apply world).Tracked found where
  guarded := event.guarded_apply world h.guarded
  plain hsession := by
    rcases event.session?_apply h.guarded hsession with
      ⟨hkept, _⟩ | ⟨_, _, hload⟩ | ⟨_, _, call, called, _, hcalled, rfl⟩
    · exact h.plain hkept
    · exact .of_load hload
    · exact call.plain_run (h.plain hcalled)
  plain_saved := by
    rcases data?_apply h.guarded hevent with
      ⟨_, hsaved⟩ | ⟨slot, time, trouble, call, called, rfl, hcalled⟩
    · exact hsaved ▸ h.plain_saved
    · rw [apply_calls_of_some hcalled]
      exact (call.acted_run _).plain_saved (call.plain_run (h.plain hcalled)) h.plain_saved
  shown := by
    rcases data?_apply h.guarded hevent with
      ⟨hdata, hsaved⟩ | ⟨slot, time, trouble, call, called, rfl, hcalled⟩
    · rw [hsaved]
      exact h.shown.congr hdata
    · rw [apply_calls_of_some hcalled]
      exact (call.acted_run _).shows h.shown

/-- Since all that are open hold the lock there is only one, so a call changes the data file under no
other database. -/
theorem mirrored_apply (world : Shared) (event : Event)
    (hevent : (event.isExclusive && event.isWorking) = true) (h : world.Mirrored found) :
    (event.apply world).Mirrored found := by
  obtain ⟨hexclusive, hworking⟩ := Bool.and_eq_true_iff.mp hevent
  refine ⟨event.tracked_apply world hexclusive h.toTracked, fun {slot session} hsession => ?_,
    fun {slot session} hsession => ?_⟩
  · rcases event.session?_apply h.guarded hsession with
      ⟨hkept, _⟩ | ⟨_, rfl, _⟩ | ⟨_, _, _, called, _, hcalled, rfl⟩
    · exact h.locked hkept
    · exact hexclusive
    · exact (h.locked hcalled : called.locked = true)
  · rcases event.session?_apply h.guarded hsession with
      ⟨hkept, hother⟩ | ⟨_, rfl, hload⟩ | ⟨_, trouble, call, called, rfl, hcalled, rfl⟩
    · rcases data?_apply h.guarded hexclusive with
        ⟨hdata, hsaved⟩ | ⟨other, time, trouble, call, called, rfl, hcalled⟩
      · rw [hsaved, FolderState.load_congr hdata]
        exact h.current hkept
      · obtain rfl := h.guarded.alone ⟨session, hkept, h.locked hkept⟩
          ⟨called, hcalled, h.locked hcalled⟩
        exact absurd rfl (hother time trouble call)
    · rcases data?_apply h.guarded hexclusive with ⟨hdata, _⟩ | ⟨_, _, _, _, _, he, _⟩
      · exact .inr ((FolderState.load_congr hdata).trans hload)
      · cases he
    · rw [apply_calls_of_some hcalled]
      exact (call.acted_run _).current (Option.isNone_iff_eq_none.mp hworking)
        (h.mirrors hcalled) (h.current hcalled)

end Event

namespace Shared

variable {folder : Folder} {world : Shared} {catalog : Catalog}

theorem tracked_after (h : folder.lock ≠ .held) {events : List Event}
    (hevents : events.all Event.isExclusive = true) :
    ((start folder).after events).Tracked (some folder) := by
  have hstart : (start folder).Tracked (some folder) :=
    ⟨guarded_after h [], fun hsession => (by cases hsession), fun _ hsaved => (by cases hsaved), rfl⟩
  exact after_induction (Tracked (some folder)) Event.isExclusive Event.tracked_apply hstart hevents

theorem mirrored_after (h : folder.lock ≠ .held) {events : List Event}
    (hevents : events.all (fun event => event.isExclusive && event.isWorking) = true) :
    ((start folder).after events).Mirrored (some folder) := by
  have htracked : ((start folder).after []).Tracked (some folder) := tracked_after h rfl
  have hstart : (start folder).Mirrored (some folder) :=
    ⟨htracked, fun hsession => (by cases hsession), fun hsession => (by cases hsession)⟩
  exact after_induction (Mirrored (some folder)) _ Event.mirrored_apply hstart hevents

/-- The catalog is loaded after what was saved last: it has the content of the catalog that was saved
exactly if the floats in that one are read back, and it is the one that the data file was found with
if nothing was saved. -/
def Loaded (world : Shared) (folder : Folder) (catalog : Catalog) : Prop :=
  (world.saved = none → FolderState.load (some folder) = .ok catalog) ∧
    ∀ saved, world.saved = some saved →
      (catalog.content = saved.content ↔ saved.FloatsReadBack)

theorem Tracked.loaded (h : world.Tracked (some folder))
    (hload : world.sessions.folder.load = .ok catalog) : world.Loaded folder catalog := by
  have hshown := h.shown
  constructor
  · intro hsaved
    rw [hsaved] at hshown
    exact (FolderState.load_congr hshown).symm.trans hload
  · intro saved hsaved
    rw [hsaved] at hshown
    obtain ⟨indented, time, hoctets⟩ := hshown
    exact (h.plain_saved saved hsaved).content_eq_iff
      (FolderState.ofOctets?_of_load hoctets hload)

theorem Tracked.exists_load (h : world.Tracked (some folder)) {saved : Catalog}
    (hsaved : world.saved = some saved) (hfloats : saved.FloatsReadBack) :
    ∃ catalog, world.sessions.folder.load = .ok catalog := by
  have hshown := h.shown
  rw [hsaved] at hshown
  obtain ⟨indented, time, hoctets⟩ := hshown
  obtain ⟨catalog, hload, _⟩ := (h.plain_saved saved hsaved).load_of_octets? hfloats hoctets
  exact ⟨catalog, hload⟩

end Shared

end

/-- After any run of events on a data file whose lock was free at first: at most one database that
was opened with the lock is open; opening with the lock is refused as locked exactly when another
such database is open; an opening that fails for another reason, and closing such a database, leave
a lock that can be taken. If moreover every database was opened with the lock and nobody else
touched the data file, then a database that is opened has loaded what was saved last, exactly if the
floats in that are read back, and then it can be opened unless another has the lock; and if no save
failed, every database that is open holds what was saved last or what it has loaded so. -/
theorem single_writer [FloatReader] {folder : Folder} (hfree : folder.lock ≠ .held)
    (events : List Event) :
    let world := (Shared.start folder).after events
    let sessions := world.sessions
    (∀ slot other, sessions.Locks slot → sessions.Locks other → slot = other) ∧
      (∀ slot indented, (sessions.openFile slot indented true).1 = .error .fileLocked ↔
        ∃ other ≠ slot, sessions.Locks other) ∧
      (∀ slot indented fault, (sessions.openFile slot indented true).1 = .error fault →
        fault ≠ .fileLocked →
        ∃ taken, (sessions.openFile slot indented true).2.folder.takeLock = .ok taken) ∧
      (∀ slot, sessions.Locks slot →
        ∃ taken, (sessions.close slot).2.folder.takeLock = .ok taken) ∧
      (events.all Event.isExclusive = true → ∀ slot indented,
        ((sessions.openFile slot indented true).1 = .ok () →
          ∃ session, (sessions.openFile slot indented true).2.session? slot = some session ∧
            session.locked = true ∧ world.Loaded folder session.catalog) ∧
        ∀ saved, world.saved = some saved → saved.FloatsReadBack →
          (¬∃ other ≠ slot, sessions.Locks other) →
            (sessions.openFile slot indented true).1 = .ok ()) ∧
      (events.all (fun event => event.isExclusive && event.isWorking) = true →
        ∀ slot session, sessions.session? slot = some session →
          world.saved = some session.catalog ∨ world.Loaded folder session.catalog) := by
  intro world sessions
  have hguarded : sessions.Guarded := Shared.guarded_after hfree events
  have hopening : ∀ slot indented, Sessions.Opening (sessions.close slot).2 slot indented true
      (sessions.openFile slot indented true) := fun slot indented =>
    Sessions.opening slot indented true (hguarded.close slot).present
  refine ⟨fun slot other => hguarded.alone, fun slot indented => ?_,
    fun slot indented fault hfault hother => ?_, fun slot hslot => ?_,
    fun hevents slot indented => ⟨fun hok => ?_, fun saved hsaved hfloats hnone => ?_⟩,
    fun hevents slot session hsession => ?_⟩
  · rw [(hopening slot indented).fileLocked_iff, hguarded.held_close_iff]
    exact and_iff_right rfl
  · exact FolderState.takeLock_of_free ((hopening slot indented).lock?_of_failed hfault hother)
  · exact FolderState.takeLock_of_free (hguarded.lock?_close hslot)
  · obtain ⟨catalog, hload, hsession⟩ := (hopening slot indented).opened_of_ok hok
    rw [Sessions.load_close] at hload
    exact ⟨_, hsession, rfl, (Shared.tracked_after hfree hevents).loaded hload⟩
  · obtain ⟨catalog, hload⟩ := (Shared.tracked_after hfree hevents).exists_load hsaved hfloats
    rw [← hguarded.held_close_iff] at hnone
    exact (hopening slot indented).ok_of_load hnone ((Sessions.load_close _ slot).trans hload)
  · have hmirrored := Shared.mirrored_after hfree hevents
    exact (hmirrored.current hsession).imp_right hmirrored.toTracked.loaded

/-- A database is opened with the lock and stores a number. -/
def storing (number : String) : List Event :=
  [.opens "a" true true, .calls "a" "" none (.query "CREATE TABLE t (id INT PRIMARY KEY, v FLOAT)"),
    .calls "a" "" none (.query ("INSERT INTO t VALUES (1, " ++ number ++ ")"))]

/-- What is left while that database is open. -/
def numberHeld (number : String) : Shared := (Shared.start ⟨.absent, .absent⟩).after (storing number)

/-- What is left once it is closed. -/
def numberLeft (number : String) : Shared :=
  (Shared.start ⟨.absent, .absent⟩).after (storing number ++ [.closes "a"])

/-- While it is open another is locked out, and one that is opened after it was closed holds the
table that was saved, since its number is read back. -/
theorem single_writer_handed_over :
    ((numberHeld "2.5").sessions.openFile "b" true true).1 = .error .fileLocked ∧
      ((numberLeft "2.5").sessions.openFile "b" true true).1 = .ok () ∧
      ∃ session saved,
        ((numberLeft "2.5").sessions.openFile "b" true true).2.session? "b" = some session ∧
        session.locked = true ∧ (numberLeft "2.5").saved = some saved ∧
        saved.tables.entries.length = 1 ∧ saved.FloatsReadBack ∧
        session.catalog.content = saved.content := by
  have hfree : (⟨.absent, .absent⟩ : Folder).lock ≠ .held := by decide
  have hlocks : (numberHeld "2.5").sessions.Locks "a" := by
    have hlocked : ((numberHeld "2.5").sessions.session? "a").map Session.locked = some true := by
      decide +kernel
    exact Option.map_eq_some_iff.mp hlocked
  have hexclusive : (storing "2.5" ++ [Event.closes "a"]).all Event.isExclusive = true := by
    decide +kernel
  have hok : ((numberLeft "2.5").sessions.openFile "b" true true).1 = .ok () := by decide +kernel
  have hsaved : ∃ saved, (numberLeft "2.5").saved = some saved ∧
      saved.tables.entries.length = 1 ∧ saved.FloatsReadBack := by
    have hsome : (numberLeft "2.5").saved.isSome = true := by decide +kernel
    have hall : ∀ saved ∈ (numberLeft "2.5").saved,
        saved.tables.entries.length = 1 ∧ saved.FloatsReadBack := by decide +kernel
    obtain ⟨saved, hsaved⟩ := Option.isSome_iff_exists.mp hsome
    exact ⟨saved, hsaved, hall saved hsaved⟩
  obtain ⟨saved, hsaved, hcount, hfloats⟩ := hsaved
  -- The two worlds stay closed: comparing them as they stand would run the events.
  have hheld : (Shared.start ⟨.absent, .absent⟩).after (storing "2.5") = numberHeld "2.5" := by
    rw [numberHeld]
  have hleft : (Shared.start ⟨.absent, .absent⟩).after (storing "2.5" ++ [.closes "a"]) =
      numberLeft "2.5" := by rw [numberLeft]
  have hrefused := single_writer hfree (storing "2.5")
  have hopened := single_writer hfree (storing "2.5" ++ [.closes "a"])
  rw [hheld] at hrefused
  rw [hleft] at hopened
  obtain ⟨session, hsession, hlocked, _, hcontent⟩ :=
    (hopened.2.2.2.2.1 hexclusive "b" true).1 hok
  exact ⟨(hrefused.2.1 "b" true).mpr ⟨"a", by decide, hlocks⟩, hok, session, saved, hsession,
    hlocked, hsaved, hcount, hfloats, (hcontent saved hsaved).mpr hfloats⟩

/-- A number that was saved is loaded as another by a database that has the lock to itself. -/
theorem saved_number_misread :
    (storing "99.99999999999999" ++ [Event.closes "a"]).all Event.isExclusive = true ∧
      ((numberLeft "99.99999999999999").sessions.openFile "b" true true).1 = .ok () ∧
      (((numberLeft "99.99999999999999").sessions.openFile "b" true true).2.session? "b").map
          (·.catalog.content) ≠
        (numberLeft "99.99999999999999").saved.map (·.content) := by
  refine ⟨by decide +kernel, ?_, ?_⟩
  · decide +kernel
  · decide +kernel

end Rowfile

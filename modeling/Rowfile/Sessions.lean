import Rowfile.Folder

/-!
# Databases that share a data file

Several databases may be open on one data file, each in its own slot. A database that is opened with
the lock keeps it until it is closed; one whose file cannot be loaded gives it up at once. Opening
into a slot closes what the slot holds first.
-/
namespace Rowfile

/-- An open database: its catalog, the layout it saves in, and whether it has the lock. -/
structure Session where
  catalog : Catalog
  indented : Bool
  locked : Bool

/-- A folder and the databases that are open on its data file, under the names of their slots. -/
structure Sessions where
  folder : FolderState
  slots : List (String × Session)

namespace Sessions

def fresh : Sessions := ⟨.fresh, []⟩

def session? (world : Sessions) (slot : String) : Option Session := world.slots.lookup slot

def without (slot : String) (slots : List (String × Session)) : List (String × Session) :=
  slots.filter fun entry => entry.1 != slot

def put (world : Sessions) (slot : String) (session : Session) : Sessions :=
  { world with slots := (slot, session) :: without slot world.slots }

/-- Close the database in a slot. The answer is whether there was one. -/
def close (slot : String) (world : Sessions) : Bool × Sessions :=
  match world.session? slot with
  | none => (false, world)
  | some session =>
    let folder := if session.locked then world.folder.freeLock else world.folder
    (true, ⟨folder, without slot world.slots⟩)

/-- Load the data file for a slot once the lock is taken, or give the lock up again. -/
def start [FloatReader] (slot : String) (indented locked : Bool) (world : Sessions) :
    Except Fault Unit × Sessions :=
  match world.folder.load with
  | .ok catalog => (.ok (), world.put slot ⟨catalog, indented, locked⟩)
  | .error fault =>
    (.error fault, { world with
      folder := if locked then world.folder.freeLock else world.folder })

/-- Open the data file in a slot, with or without the lock. -/
def openFile [FloatReader] (slot : String) (indented locked : Bool) (world : Sessions) :
    Except Fault Unit × Sessions :=
  let world := (world.close slot).2
  if locked then
    match world.folder.takeLock with
    | .error fault => (.error fault, world)
    | .ok folder => start slot indented locked { world with folder := folder }
  else start slot indented locked world

/-- Let the database in a slot act at some time, if there is one. -/
def act {α : Type} (slot time : String)
    (action : Database FolderStore → Except Fault α × Database FolderStore) (world : Sessions) :
    Option (Except Fault α) × Sessions :=
  match world.session? slot with
  | none => (none, world)
  | some session =>
    let (result, db) := action ⟨session.catalog, ⟨world.folder, session.indented, time⟩⟩
    (some result,
      { world with folder := db.store.folder }.put slot { session with catalog := db.catalog })

end Sessions

end Rowfile

import Rowfile.Database
import Rowfile.Document

/-!
# The folder of a data file

A folder holds a data file and a lock file beside it. The data file is read whole and replaced whole;
an empty directory in its place can be neither read nor replaced. The lock file is made when the lock
is first taken and stays, and at most one holder has the lock at a time.

A save writes a file of its own beside the data file and renames it over the data file in the end.
Each of its steps may fail, and then the file beside is removed and the save is over.
-/
namespace Rowfile

/-- What stands at the path of the data file. -/
inductive DataEntry where
  | absent
  | file (octets : List UInt8)
  | directory
  deriving DecidableEq, Repr

inductive LockEntry where
  | absent
  | free
  | held
  deriving DecidableEq, Repr

structure Folder where
  data : DataEntry
  lock : LockEntry
  deriving DecidableEq, Repr

/-- A folder, or nothing once it has been removed. -/
abbrev FolderState := Option Folder

namespace FolderState

def fresh : FolderState := some ⟨.absent, .absent⟩

def setData (state : FolderState) (data : DataEntry) : FolderState :=
  state.map fun folder => { folder with data := data }

/-- Overwrite the data file with octets, if there is a place for a file. -/
def write (octets : List UInt8) : FolderState → FolderState
  | some ⟨.directory, lock⟩ => some ⟨.directory, lock⟩
  | state => state.setData (.file octets)

/-- Delete the data file. The answer is whether there was one. -/
def deleteFile : FolderState → Bool × FolderState
  | some ⟨.file _, lock⟩ => (true, some ⟨.absent, lock⟩)
  | state => (false, state)

def octets? : FolderState → Option (List UInt8)
  | some ⟨.file octets, _⟩ => some octets
  | _ => none

/-- The names of the files in the folder, in alphabetical order, for a data file of a given name. -/
def names (dataFile : String) : FolderState → List String
  | none => []
  | some folder =>
    (if folder.data = .absent then [] else [dataFile]) ++
      if folder.lock = .absent then [] else [dataFile ++ ".lock"]

def takeLock : FolderState → Except Fault FolderState
  | none => .error .fileAccess
  | some ⟨_, .held⟩ => .error .fileLocked
  | some folder => .ok (some { folder with lock := .held })

def freeLock (state : FolderState) : FolderState :=
  state.map fun folder => { folder with lock := .free }

/-- The catalog in the data file, empty if there is no file. -/
def load [FloatReader] : FolderState → Except Fault Catalog
  | some ⟨.file octets, _⟩ =>
    match Catalog.ofOctets? octets with
    | some catalog => .ok catalog
    | none => .error .fileContent
  | some ⟨.directory, _⟩ => .error .fileAccess
  | _ => .ok .empty

end FolderState

/-! ## Saving -/

inductive SaveStep where
  | create
  | write
  | flush
  | sync
  | persist
  deriving DecidableEq, Repr

structure Trouble where
  step : SaveStep
  fault : Fault
  deriving DecidableEq, Repr

/-- A save at work: the folder, and the file beside the data file with the octets that have reached it
and those that are still held back. -/
structure Saving where
  folder : FolderState
  written : List UInt8
  buffered : List UInt8
  deriving DecidableEq, Repr

namespace SaveStep

def all : List SaveStep := [.create, .write, .flush, .sync, .persist]

/-- What a step does in a folder that allows it. Only the last one touches the data file. -/
def run (octets : List UInt8) (saving : Saving) : SaveStep → Except Fault Saving
  | create =>
    match saving.folder with
    | none => .error .fileAccess
    | some _ => .ok { saving with written := [], buffered := [] }
  | write => .ok { saving with buffered := saving.buffered ++ octets }
  | flush => .ok { saving with written := saving.written ++ saving.buffered, buffered := [] }
  | sync => .ok saving
  | persist =>
    match saving.folder with
    | none | some ⟨.directory, _⟩ => .error .fileAccess
    | some folder => .ok { saving with folder := some { folder with data := .file saving.written } }

def attempt (trouble : Option Trouble) (octets : List UInt8) (saving : Saving) (step : SaveStep) :
    Except Fault Saving :=
  match trouble with
  | some ⟨failing, fault⟩ => if step = failing then .error fault else step.run octets saving
  | none => step.run octets saving

/-- The steps one after the other up to the first that fails. The answer comes with the folder, from
which the file beside the data file is gone in either case. -/
def runAll (trouble : Option Trouble) (octets : List UInt8) :
    List SaveStep → Saving → Except Fault Unit × FolderState
  | [], saving => (.ok (), saving.folder)
  | step :: steps, saving =>
    match step.attempt trouble octets saving with
    | .error fault => (.error fault, saving.folder)
    | .ok saving => runAll trouble octets steps saving

end SaveStep

namespace FolderState

/-- Replace the data file by a stored catalog, unless there is trouble. -/
def saveWith (trouble : Option Trouble) (indented : Bool) (time : String) (catalog : Catalog)
    (folder : FolderState) : Except Fault Unit × FolderState :=
  SaveStep.runAll trouble (catalog.toOctets indented time) SaveStep.all ⟨folder, [], []⟩

def save (indented : Bool) (time : String) (catalog : Catalog) (folder : FolderState) :
    Except Fault Unit × FolderState :=
  folder.saveWith none indented time catalog

end FolderState

/-- A folder as the store of one database, with the layout of its data file and the time. -/
structure FolderStore where
  folder : FolderState
  indented : Bool
  time : String
  deriving DecidableEq, Repr

instance : Store FolderStore where
  save catalog store :=
    let (result, folder) := store.folder.save store.indented store.time catalog
    (result, { store with folder := folder })

end Rowfile

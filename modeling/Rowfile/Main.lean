import Rowfile.Folder
import Rowfile.Settings
import Rowfile.Shell
import Std.Time.DateTime.Timestamp
import Std.Time.Format

/-!
# The command line

Opens the data file named by the first argument, or the standard one, takes its lock, and runs the
command loop on standard input and output, one `Shell.turn` for each reading. A save that a turn asks
for is carried out before its answer is written: the document is written beside the data file and then
renamed over it.
-/
namespace Rowfile.Main

open Shell

/-- A store that is told what saving will come to and remembers which catalog was to be saved. -/
structure Outbox where
  outcome : Except Fault Unit
  waiting : Option Catalog

instance : Store Outbox := ⟨fun catalog box => (box.outcome, { box with waiting := some catalog })⟩

def waiting? : Turn Outbox → Option Catalog
  | .over ending => ending.database.store.waiting
  | .next _ db => db.store.waiting

def timeText : IO String := do
  let wall := Std.Time.WallTime.ofTimestamp (← Std.Time.Timestamp.now) Std.Time.TimeZone.Offset.zero
  return (Std.Time.PlainDateTime.ofWallTime wall).format "uuuu-MM-dd'T'HH:mm:ss.SSSSSSSSS'Z'"

/-- One step of a save, with the file that is written beside the data file. The standard library has
no call that waits for the disk. -/
def performStep (settings : Settings) (beside : String) (octets : List UInt8)
    (file : Option IO.FS.Handle) : SaveStep → IO (Option IO.FS.Handle)
  | .create => some <$> IO.FS.Handle.mk beside .write
  | .write => file.forM (·.write (ByteArray.mk octets.toArray)) *> pure file
  | .flush | .sync => file.forM (·.flush) *> pure file
  | .persist => IO.FS.rename beside settings.dataFile *> pure file

def saveFile (settings : Settings) (catalog : Catalog) : IO (Except Fault Unit) := do
  let octets := catalog.toOctets settings.indented (← timeText)
  let beside := settings.dataFile ++ ".new"
  try
    discard <| SaveStep.all.foldlM (performStep settings beside octets) none
    return .ok ()
  catch _ =>
    try IO.FS.removeFile beside catch _ => pure ()
    return .error .fileAccess

def loadFile (settings : Settings) : IO (Except Fault Catalog) := do
  try
    let content ← IO.FS.readBinFile settings.dataFile
    match Catalog.ofOctets? content.toList with
    | some catalog => return .ok catalog
    | none => return .error .fileContent
  catch
    | .noFileOrDirectory .. => return .ok .empty
    | _ => return .error .fileAccess

/-- A turn of the loop. It is taken as if saving worked; if it asks for a save that fails, it is taken
again with that failure. -/
def takeTurn (settings : Settings) (reading : Reading) (catalog : Catalog) : IO (Turn Outbox) := do
  let taken outcome := turn reading (.ofLimit none) (⟨catalog, ⟨outcome, none⟩⟩ : Database Outbox)
  match waiting? (taken (.ok ())) with
  | none => return taken (.ok ())
  | some changed => return taken (← saveFile settings changed)

def nextReading (input : IO.FS.Stream) : IO (Option Reading) := do
  try
    let line ← input.getLine
    return if line.isEmpty then none else some (.line line.toUTF8.toList)
  catch error => return some (.failure (toString error))

/-- Pass on what a turn has written. The answer is whether it was accepted. -/
def emit (stream : IO.FS.Stream) (out : Output) : IO Bool := do
  try
    stream.write (ByteArray.mk out.octets.toArray)
    stream.flush
    return true
  catch _ => return false

/-- The command loop on standard input and output. The answer is the exit code. -/
partial def serve (settings : Settings) (input output : IO.FS.Stream) (catalog : Catalog) :
    IO UInt32 := do
  if !(← emit output ((Output.ofLimit none).write prompt).2) then return 1
  match ← nextReading input with
  | none => return 0
  | some reading =>
    match ← takeTurn settings reading catalog with
    | .over ending =>
      discard <| emit output ending.output
      return ending.code.toUInt32
    | .next out db =>
      if ← emit output out then serve settings input output db.catalog else return 1

def refuse (fault : Fault) : IO UInt32 := do
  (← IO.getStderr).putStrLn s!"error: {fault.shown}"
  return 1

/-- Run the command loop while the lock of the data file is held. -/
def runLocked (settings : Settings) (lock : IO.FS.Handle) : IO UInt32 := do
  if !(← lock.tryLock) then return ← refuse .fileLocked
  match ← loadFile settings with
  | .error fault => refuse fault
  | .ok catalog =>
    let output ← IO.getStdout
    output.putStrLn "tabula: type 'help' for commands, 'exit' to leave"
    let code ← try serve settings (← IO.getStdin) output catalog catch _ => pure 1
    lock.unlock
    return code

end Rowfile.Main

/-- Open the data file that the first argument names and run the command loop on it. -/
def main (arguments : List String) : IO UInt32 := do
  let settings :=
    match arguments with
    | path :: _ => Rowfile.Settings.standard.withDataFile path
    | [] => Rowfile.Settings.standard
  let lock ← try (IO.FS.Handle.mk settings.lockFile .append).map some catch _ => pure none
  match lock with
  | some lock => Rowfile.Main.runLocked settings lock
  | none => Rowfile.Main.refuse .fileAccess

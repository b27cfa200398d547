/-!
# Settings

Where a database keeps its data file, how it writes it, and whether it keeps others out while it is
open.
-/
namespace Rowfile

structure Settings where
  dataFile : String := "tabula.json"
  indented : Bool := true
  exclusive : Bool := true
  deriving DecidableEq, Repr

namespace Settings

def standard : Settings := {}

def withDataFile (settings : Settings) (path : String) : Settings :=
  { settings with dataFile := path }

/-- The lock file stands beside the data file. -/
def lockFile (settings : Settings) : String := settings.dataFile ++ ".lock"

end Settings

end Rowfile

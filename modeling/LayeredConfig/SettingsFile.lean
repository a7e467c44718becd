import LayeredConfig.FileSystem.Lookup
import LayeredConfig.Settings

/-!
# Settings files

Settings are read from a file that is named, or from the settings file of a directory if there is
one.
-/

namespace LayeredConfig.Settings

/-- The name of the settings file of a directory. -/
def fileName : String := "confcache.toml"

/-- The settings of a file. -/
def load (fs : FileSystem) (path : Path) : Except Fault Settings :=
  match fs.readText path with
  | .error _ => .error (.unreadable path)
  | .ok text => (parse text).mapError (.inFile path)

/-- The settings of a directory: those of its settings file, or the defaults if it has none. -/
def discover (fs : FileSystem) (directory : Path) : Except Fault Settings :=
  let path := directory.child fileName
  if fs.isFile path then load fs path else .ok {}

end LayeredConfig.Settings

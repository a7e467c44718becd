import LayeredConfig.FileSystem.Basic
import LayeredConfig.Path

/-!
# Following paths

A path is followed part by part, from the root or from the working directory. Every part but the
last must lead into a directory, and a slash at the end asks for a directory too. Two dots lead out
of a directory only if it exists.
-/

namespace LayeredConfig.FileSystem

/-- Why a file or directory cannot be used. -/
inductive Trouble where
  /-- Nothing lies there. -/
  | missing
  /-- A file stands where a directory is needed. -/
  | notDirectory
  /-- A directory stands where a file is needed. -/
  | isDirectory
  /-- Something lies there already. -/
  | occupied
  /-- No file can have this name. -/
  | badName
  /-- The bytes are not UTF-8 text. -/
  | notText
  /-- The file cannot be read. -/
  | unreadable
  /-- The change is not carried out. -/
  | refused
deriving DecidableEq, Repr

/-- The parts of a path; empty parts stand for repeated slashes and for those at either end. -/
def partsOf (path : Path) : List String := (Path.splitSlashes path.text.toList).map String.ofList

/-- How many bytes a name may have. -/
def nameLimit : Nat := 255

/-- How many bytes a path may have. -/
def pathLimit : Nat := 4095

/-- Where a part of a path leads from a directory. -/
def step (part : String) (location : Location) : Except Trouble Location :=
  if part = "" ∨ part = "." then .ok location
  else if part = ".." then .ok location.tail
  else if nameLimit < part.utf8ByteSize then .error .badName
  else .ok (part :: location)

/-- Follows parts from a place. What the last part leads to need not exist. -/
def walk (fs : FileSystem) : List String → Location → Except Trouble Location
  | [], location => .ok location
  | part :: rest, location =>
    match fs.nodeAt location with
    | none => .error .missing
    | some (.file _) => .error .notDirectory
    | some .directory =>
      match step part location with
      | .error trouble => .error trouble
      | .ok next => walk fs rest next

/-- Why a path cannot be followed at all, whatever files there are. -/
def unusable? (path : Path) : Option Trouble :=
  if path.text = "" then some .missing
  else if path.text.toList.contains '\x00' ∨ pathLimit < path.text.utf8ByteSize then some .badName
  else none

/-- Where a path starts. -/
def start (fs : FileSystem) (path : Path) : Location :=
  if path.isAbsolute then [] else fs.workingDirectory

/-- The place that a path leads to, whether or not something lies there. -/
def locate (fs : FileSystem) (path : Path) : Except Trouble Location :=
  match unusable? path with
  | some trouble => .error trouble
  | none => walk fs (partsOf path) (fs.start path)

/-- What a path leads to. -/
def find (fs : FileSystem) (path : Path) : Except Trouble Node :=
  match fs.locate path with
  | .error trouble => .error trouble
  | .ok location =>
    match fs.nodeAt location with
    | none => .error .missing
    | some node => .ok node

/-- Whether a path leads to a file. -/
def isFile (fs : FileSystem) (path : Path) : Bool :=
  match fs.find path with
  | .ok (.file _) => true
  | _ => false

/-- Whether a path leads to a directory. -/
def isDirectory (fs : FileSystem) (path : Path) : Bool :=
  match fs.find path with
  | .ok .directory => true
  | _ => false

/-- Whether a path leads to a place in a directory where nothing lies. -/
def isVacant (fs : FileSystem) (path : Path) : Bool :=
  match fs.locate path with
  | .error _ => false
  | .ok location => (fs.nodeAt location).isNone

/-- The bytes of the file that a path leads to. -/
def readBytes (fs : FileSystem) (path : Path) : Except Trouble ByteArray :=
  match fs.find path with
  | .error trouble => .error trouble
  | .ok .directory => .error .isDirectory
  | .ok (.file file) => if file.readable then .ok file.bytes else .error .unreadable

/-- The text of the file that a path leads to. -/
def readText (fs : FileSystem) (path : Path) : Except Trouble String :=
  match fs.readBytes path with
  | .error trouble => .error trouble
  | .ok bytes => (String.fromUTF8? bytes).elim (.error .notText) .ok

/-- The names in the directory that a path leads to. -/
def names (fs : FileSystem) (path : Path) : Except Trouble (List String) :=
  match fs.locate path with
  | .error trouble => .error trouble
  | .ok location =>
    match fs.nodeAt location with
    | none => .error .missing
    | some (.file _) => .error .notDirectory
    | some .directory => .ok (fs.childNames location)

/-- The absolute path of a place. -/
def pathOf (location : Location) : Path := ⟨"/" ++ String.intercalate "/" location.reverse⟩

/-- The working directory as an absolute path. -/
def workingPath (fs : FileSystem) : Path := pathOf fs.workingDirectory

end LayeredConfig.FileSystem

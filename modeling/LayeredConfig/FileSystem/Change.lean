import LayeredConfig.FileSystem.Lookup

/-!
# Making and removing files

Directories are made one by one, from the outermost that is missing; those that were made stay even
if a later one cannot be. A file is replaced as a whole, or is filled under a temporary name and
moved into its place, so that it is never seen half written. Files are removed up to the first that
cannot be. Any of these changes may be refused.
-/

namespace LayeredConfig.FileSystem

/-- The name that the last part of a path gives, and the existing directory around it. -/
def destination (fs : FileSystem) (parts : List String) (origin : Location) :
    Except Trouble (String × Location) :=
  match parts.reverse with
  | [] => .error .badName
  | last :: before =>
    match walk fs before.reverse origin with
    | .error trouble => .error trouble
    | .ok parent =>
      match walk fs [last] parent with
      | .error trouble => .error trouble
      | .ok _ =>
        if last = "" ∨ last = "." ∨ last = ".." then .error .occupied else .ok (last, parent)

/-- The parts of a path without the empty ones at its end. -/
def trimmedParts (path : Path) : List String :=
  ((partsOf path).reverse.dropWhile fun part ↦ part = "").reverse

/-- Makes the directory that a path leads to; the directory around it must exist. -/
def makeDirectory (fs : FileSystem) (path : Path) : Except Trouble FileSystem :=
  match unusable? path with
  | some trouble => .error trouble
  | none =>
    match trimmedParts path with
    | [] => .error .occupied
    | part :: rest =>
      match fs.destination (part :: rest) (fs.start path) with
      | .error trouble => .error trouble
      | .ok (name, parent) =>
        if h : fs.nodeAt parent = some .directory ∧ fs.nodeAt (name :: parent) = none then
          if fs.refuses (name :: parent) (some .directory) then .error .refused
          else .ok (fs.put name parent .directory h.1 (by simp [h.2]))
        else .error .occupied

/-- The file system with a directory made, or as it is when that cannot be done. -/
def tryDirectory (fs : FileSystem) (path : Path) : FileSystem :=
  match fs.makeDirectory path with
  | .ok made => made
  | .error _ => fs

/-- Makes a directory and those around it that are missing, as far as that can be done. -/
def makeDirectories : (fuel : Nat) → Path → FileSystem → FileSystem
  | 0, _, fs => fs
  | fuel + 1, path, fs =>
    if path.text = "" then fs
    else
      match fs.makeDirectory path, path.parent? with
      | .error .missing, some parent => (makeDirectories fuel parent fs).tryDirectory path
      | _, _ => fs.tryDirectory path

/-- Makes the directory that a path leads to, with all that are missing around it, as far as that
can be done. The empty path asks for nothing. -/
def createDirectories (fs : FileSystem) (path : Path) : FileSystem :=
  makeDirectories (path.text.length + 1) path fs

/-- Stores a file where a path leads, in place of the file that may be there. -/
def writeFile (fs : FileSystem) (path : Path) (file : File) : Except Trouble FileSystem :=
  match unusable? path with
  | some trouble => .error trouble
  | none =>
    match fs.destination (partsOf path) (fs.start path) with
    | .error trouble => .error trouble
    | .ok (name, parent) =>
      if h : fs.nodeAt parent = some .directory ∧ fs.nodeAt (name :: parent) ≠ some .directory then
        if fs.refuses (name :: parent) (some (.file file)) then .error .refused
        else .ok (fs.put name parent (.file file) h.1 h.2)
      else .error .isDirectory

/-- Moves a file to where a path leads, in place of the file that may be there. -/
def moveFile (fs : FileSystem) (source target : Path) : Except Trouble FileSystem :=
  match fs.locate source with
  | .error trouble => .error trouble
  | .ok location =>
    match fs.nodeAt location with
    | none => .error .missing
    | some .directory => .error .isDirectory
    | some (.file file) =>
      if fs.refuses location none then .error .refused
      else (fs.erase location).writeFile target file

/-- Removes the file that a path leads to. -/
def removeFile (fs : FileSystem) (path : Path) : Except Trouble FileSystem :=
  match fs.locate path with
  | .error trouble => .error trouble
  | .ok location =>
    match fs.nodeAt location with
    | none => .error .missing
    | some .directory => .error .isDirectory
    | some (.file _) =>
      if fs.refuses location none then .error .refused else .ok (fs.erase location)

/-- The file system with a file removed, or as it is when that cannot be done. -/
def tryRemove (fs : FileSystem) (path : Path) : FileSystem :=
  match fs.removeFile path with
  | .ok rest => rest
  | .error _ => fs

/-- Removes files in order. The first that cannot be removed is reported, and the others stay. -/
def removeFiles (fs : FileSystem) : List Path → Except Path Unit × FileSystem
  | [] => (.ok (), fs)
  | path :: paths =>
    match fs.removeFile path with
    | .error _ => (.error path, fs)
    | .ok rest => rest.removeFiles paths

/-- The name that a temporary file gets at an attempt. -/
def temporaryName (attempt : Nat) : String := ".tmp" ++ toString attempt

/-- How many names for a temporary file are tried. -/
def temporaryAttempts : Nat := 0x10000

/-- The first path in a directory, from an attempt on, where a temporary file can be made. -/
def vacantPath? (fs : FileSystem) (directory : Path) : (attempts first : Nat) → Option Path
  | 0, _ => none
  | attempts + 1, first =>
    let path := directory.child (temporaryName first)
    if fs.isVacant path then some path else vacantPath? fs directory attempts (first + 1)

/-- A path in a directory where a temporary file can be made. -/
def temporaryPath? (fs : FileSystem) (directory : Path) : Option Path :=
  fs.vacantPath? directory temporaryAttempts 0

/-- Stores a file by making a temporary one, filling it and moving it to where a path leads. The
temporary file is removed if it cannot be filled or moved. -/
def writeThrough (fs : FileSystem) (temporary target : Path) (bytes : ByteArray) :
    Except Trouble Unit × FileSystem :=
  match fs.writeFile temporary ByteArray.empty with
  | .error trouble => (.error trouble, fs)
  | .ok made =>
    match made.writeFile temporary bytes with
    | .error trouble => (.error trouble, made.tryRemove temporary)
    | .ok filled =>
      match filled.moveFile temporary target with
      | .error trouble => (.error trouble, filled.tryRemove temporary)
      | .ok moved => (.ok (), moved)

/-- Removes what a path leads to, with all that lies below it. -/
def removeTree (fs : FileSystem) (path : Path) : FileSystem :=
  match fs.locate path with
  | .error _ => fs
  | .ok location => fs.erase location

end LayeredConfig.FileSystem

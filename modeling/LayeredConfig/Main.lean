import LayeredConfig.CommandLine.Reach

/-!
# The program

Reads the files that a run may look at, runs it on them, carries out what changed, and prints. A
change may turn out to be refused; the run is then made again with that in mind.
-/

namespace LayeredConfig.Main

open CommandLine FileSystem

/-- What a file really holds. One that cannot be read is kept as such. -/
def readFile (path : String) : IO File := do
  try
    let bytes ← IO.FS.readBinFile path
    return bytes
  catch _ => return { bytes := .empty, readable := false }

/-- Adds what really lies at a place. -/
def observe (fs : FileSystem) (location : Location) : IO FileSystem := do
  let path := pathOf location
  let here := (← IO.currentDir) / path.text
  if ← here.isDir then return fs.createDirectories path
  else if ← here.pathExists then
    match fs.writeFile path (← readFile path.text) with
    | .ok next => return next
    | .error _ => return fs
  else return fs

/-- Adds what really lies along a path. -/
def observePath (fs : FileSystem) (path : Path) : IO FileSystem :=
  (passed (partsOf path) (fs.start path)).foldlM observe fs

/-- Adds what really lies along a path and in the directory at its end. -/
def observeDirectory (fs : FileSystem) (path : Path) : IO FileSystem := do
  let path : Path := if path.text = "" then ⟨"."⟩ else path
  let fs ← observePath fs path
  match fs.locate path with
  | .error _ => return fs
  | .ok location =>
    let here := (← IO.currentDir) / (pathOf location).text
    if ← here.isDir then
      (← here.readDir).foldlM (fun fs entry ↦ observe fs (entry.fileName :: location)) fs
    else return fs

/-- The files that a run with these arguments may look at. -/
def observeFor (environment : Environment) (arguments : List String) (fs : FileSystem) :
    IO FileSystem := do
  match parse environment arguments with
  | .error _ => return fs
  | .ok invocation =>
    let fs ← observePath fs (invocation.settingsPath fs)
    match invocation.settings fs with
    | .error _ => return fs
    | .ok settings =>
      let fs ← (invocation.command.documents settings).foldlM observePath fs
      match invocation.command.directory? settings with
      | none => return fs
      | some directory => observeDirectory fs directory

/-- Removes a file, unless it is gone already. -/
def remove (path : String) : IO Unit := do
  if ← ((← IO.currentDir) / path).pathExists then IO.FS.removeFile path

/-- Makes a directory, or replaces a file as a whole. A draft that cannot take the place of the file
is removed. -/
def store (path : String) : Node → IO Unit
  | .directory => IO.FS.createDirAll path
  | .file file => do
    let draft := path ++ ".tmp"
    try
      IO.FS.writeBinFile draft file.bytes
      IO.FS.rename draft path
    catch failure =>
      remove draft
      throw failure

/-- Carries out a change at a place, and tells whether that could be done. -/
def carryOut (location : Location) (change : Option Node) : IO Bool := do
  let path := (pathOf location).text
  try
    match change with
    | none => remove path
    | some node => store path node
    return true
  catch _ => return false

/-- How many changes may be refused in one run. -/
def refusalLimit : Nat := 0x100

/-- Runs the program and carries out the changes. At the first that is refused, the run is made
again on files that refuse it. -/
def settle (environment : Environment) (arguments : List String) :
    (attempts : Nat) → FileSystem → IO Outcome
  | 0, before => return run environment arguments before
  | attempts + 1, before => do
    let outcome := run environment arguments before
    let refused ← (changes before outcome.files).findM? fun (location, change) ↦
      return !(← carryOut location change)
    match refused with
    | none => return outcome
    | some (location, change) =>
      settle environment arguments attempts (before.refusing location change)

/-- The environment variables that flags may be taken from. -/
def readEnvironment : IO Environment :=
  [Flag.root, Flag.cacheDirectory].foldlM (fun environment flag ↦ do
    match flag.environmentName? with
    | none => return environment
    | some name =>
      match ← IO.getEnv name with
      | none => return environment
      | some value => return (name, value) :: environment) []

/-- Prints a report with its cause. -/
def printReport (report : Report) : IO Unit := do
  IO.eprintln ("Error: " ++ report.message)
  if let some cause := report.cause? then
    IO.eprintln ("\nCaused by:\n    " ++ cause)

/-- Runs the program on real files. -/
def runOnFiles (arguments : List String) : IO UInt32 := do
  let environment ← readEnvironment
  let here := (partsOf ⟨(← IO.currentDir).toString⟩).filter (· != "")
  let start := (empty.createDirectories (pathOf here.reverse)).movedTo here.reverse
  let before ← observeFor environment arguments start
  let outcome ← settle environment arguments refusalLimit before
  IO.print outcome.output
  if let some report := outcome.report then printReport report
  return UInt32.ofNat outcome.exitCode

end LayeredConfig.Main

/-- Runs the program with its arguments. -/
def main (arguments : List String) : IO UInt32 := LayeredConfig.Main.runOnFiles arguments

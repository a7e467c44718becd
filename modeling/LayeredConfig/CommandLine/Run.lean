import LayeredConfig.CommandLine.Arguments
import LayeredConfig.Compiler
import LayeredConfig.SettingsFile

/-!
# Running a command

A run starts from arguments, environment variables and files, and ends with an exit code, a text
for standard output, perhaps a report of what went wrong, and the files afterwards. Settings are
read before the command starts.
-/

namespace LayeredConfig.CommandLine

/-- What went wrong in a run. -/
inductive Report where
  /-- The arguments are refused. -/
  | misuse (misuse : Misuse)
  /-- The settings cannot be used. -/
  | settings (fault : Settings.Fault)
  /-- Documents cannot be read. -/
  | reading (identifiers : List String) (failure : Failure)
  /-- Documents cannot be compiled. -/
  | compiling (identifiers : List String) (failure : Failure)
  /-- A word is not the name of an artifact. -/
  | badHandle (word : String)
  /-- The store of artifacts cannot be used. -/
  | store (failure : Failure)
deriving DecidableEq, Repr

namespace Report

/-- The outermost wording of a report. -/
def message : Report → String
  | misuse m => m.message
  | settings fault => fault.message
  | reading identifiers _ => "Failed to read " ++ String.intercalate ", " identifiers
  | compiling identifiers _ => "Failed to compile " ++ String.intercalate ", " identifiers
  | badHandle word => "'" ++ word ++ "' is not an artifact handle"
  | store failure => failure.message

/-- The cause behind the outermost wording, if it is not the whole of it. -/
def cause? : Report → Option String
  | reading _ failure => some failure.message
  | compiling _ failure => some failure.message
  | _ => none

end Report

/-- What a run ends with. -/
structure Outcome where
  exitCode : Nat
  output : String
  report : Option Report
  files : FileSystem

namespace Outcome

/-- A run that went well. -/
def success (output : String) (files : FileSystem) : Outcome :=
  { exitCode := 0, output := output, report := none, files := files }

/-- A run that failed. -/
def failed (report : Report) (files : FileSystem) : Outcome :=
  { exitCode := 1, output := "", report := some report, files := files }

end Outcome

/-- How the program is used. -/
def usage : String :=
  "Usage: layeredconfig [-v] [-d] [-c FILE] COMMAND\n\nCommands:\n"
    ++ "  read FILES... [--root DIR]\n"
    ++ "  compile FILES... [-m MODE] [-s SEGMENT] [--ignore-key KEY]... [--no-main-key]\n"
    ++ "          [--cache-dir DIR] [--root DIR] [--content-signature]\n"
    ++ "  show HANDLE [--cache-dir DIR]\n"
    ++ "  clear [--cache-dir DIR]\n"

/-- The settings of an invocation: those of the file that is named, or those of the working
directory. -/
def Invocation.settings (invocation : Invocation) (fs : FileSystem) :
    Except Settings.Fault Settings :=
  match invocation.settingsFile with
  | some path => Settings.load fs path
  | none => Settings.discover fs fs.workingPath

/-- The settings with another document root, if one is given. -/
def withRoot (root : Option Path) (settings : Settings) : Settings :=
  { settings with root := root.getD settings.root }

/-- The settings with the content basis, if it is asked for. -/
def withContent (signContent : Bool) (settings : Settings) : Settings :=
  { settings with basis := if signContent then .content else settings.basis }

/-- The store of a command that names a directory or not. -/
def storeAt (settings : Settings) (directory : Option Path) : Store :=
  settings.storeFor { cacheDirectory := directory }

/-- Carries out a command under settings. -/
def Command.run (settings : Settings) (fs : FileSystem) : Command → Outcome
  | .read identifiers root =>
    match ((withRoot root settings).read fs identifiers).result with
    | .error fault => .failed (.reading identifiers (.document fault)) fs
    | .ok merged => .success ((merged.toJson settings.sigil).pretty ++ "\n") fs
  | .compile identifiers options root signContent =>
    let settings := withContent signContent (withRoot root settings)
    let compilation := settings.compile options identifiers fs
    match compilation.result with
    | .error failure => .failed (.compiling identifiers failure) compilation.files
    | .ok signature => .success (signature.name ++ "\n") compilation.files
  | .display handle directory =>
    match Signature.parse? handle with
    | none => .failed (.badHandle handle) fs
    | some signature =>
      match (storeAt settings directory).load fs signature with
      | .error failure => .failed (.store failure) fs
      | .ok text => .success text fs
  | .clear directory =>
    let store := storeAt settings directory
    match store.clear fs with
    | (.error failure, files) => .failed (.store failure) files
    | (.ok count, files) =>
      .success
        ("Removed " ++ toString count ++ " artifact(s) from " ++ store.directory.text ++ "\n") files

/-- Runs the program. -/
def run (environment : Environment) (arguments : List String) (fs : FileSystem) : Outcome :=
  match parse environment arguments with
  | .error .help => .success usage fs
  | .error (.misuse m) => { exitCode := 2, output := "", report := some (.misuse m), files := fs }
  | .ok invocation =>
    match invocation.settings fs with
    | .error fault => .failed (.settings fault) fs
    | .ok settings => invocation.command.run settings fs

end LayeredConfig.CommandLine

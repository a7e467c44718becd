import LayeredConfig.CommandLine.Flag
import LayeredConfig.Options

/-!
# Arguments

Arguments are read from left to right: shared flags, a command, and the flags and words of the
command in any order. A flag takes its value from the same argument or from the next one, which may
not look like a flag. Behind two dashes everything is a word. The first argument that does not fit
ends the reading, and so does a call for help.
-/

namespace LayeredConfig.CommandLine

/-- What arguments ask for. -/
inductive Command where
  /-- Print what documents give together. -/
  | read (identifiers : List String) (root : Option Path)
  /-- Compile documents and print the name of the artifact. -/
  | compile (identifiers : List String) (options : Options) (root : Option Path)
    (signContent : Bool)
  /-- Print an artifact. -/
  | display (handle : String) (directory : Option Path)
  /-- Remove every artifact. -/
  | clear (directory : Option Path)
deriving DecidableEq, Repr

/-- A command with the settings file that was named for it. -/
structure Invocation where
  settingsFile : Option Path
  command : Command
deriving DecidableEq, Repr

/-- Why arguments are refused. -/
inductive Misuse where
  | missingCommand
  | unknownCommand (word : String)
  | unknownFlag (argument : String)
  | missingValue (flag : Flag)
  | unwantedValue (flag : Flag)
  | badValue (flag : Flag) (value : String)
  | repeated (flag : Flag)
  | unexpectedWord (word : String)
  | missingWord (verb : Verb)
deriving DecidableEq, Repr

/-- The wording of a misuse. -/
def Misuse.message : Misuse → String
  | missingCommand => "a command is required"
  | unknownCommand word => "there is no command '" ++ word ++ "'"
  | unknownFlag argument => "unexpected argument '" ++ argument ++ "'"
  | missingValue flag => "--" ++ flag.long ++ " needs a value"
  | unwantedValue flag => "--" ++ flag.long ++ " takes no value"
  | badValue flag value => "'" ++ value ++ "' is no value for --" ++ flag.long
  | repeated flag => "--" ++ flag.long ++ " is given more than once"
  | unexpectedWord word => "unexpected argument '" ++ word ++ "'"
  | missingWord verb => verb.name ++ " needs an argument"

/-- Why reading the arguments ends early. -/
inductive Stop where
  | help
  | misuse (misuse : Misuse)
deriving DecidableEq, Repr

/-- What one argument says about a flag. -/
inductive Mention where
  | plain (flag : Flag)
  | valued (flag : Flag) (value : String)
  | awaiting (flag : Flag)
  | unwanted (flag : Flag)
  | unknown
deriving DecidableEq, Repr

/-- One argument. -/
inductive Token where
  | terminator
  | mentions (list : List Mention)
  | word (text : String)
deriving DecidableEq, Repr

/-- What a cluster of letters behind one dash says. The first letter of a flag that takes a value
makes the rest the value, with or without an equals sign. -/
def ofLetters (known : List Flag) : List Char → List Mention
  | [] => []
  | c :: rest =>
    match known.find? fun flag ↦ flag.letter? = some c with
    | none => [.unknown]
    | some flag =>
      if !flag.takesValue then .plain flag :: ofLetters known rest
      else match rest with
        | [] => [.awaiting flag]
        | '=' :: value => [.valued flag (String.ofList value)]
        | value => [.valued flag (String.ofList value)]

/-- What a long name says, with the value behind an equals sign. -/
def ofLongName (known : List Flag) (text : List Char) : Mention :=
  let name := text.takeWhile (· != '=')
  match known.find? fun flag ↦ flag.long.toList = name, text.drop name.length with
  | none, _ => .unknown
  | some flag, [] => if flag.takesValue then .awaiting flag else .plain flag
  | some flag, _ :: value =>
    if flag.takesValue then .valued flag (String.ofList value) else .unwanted flag

/-- Reads one argument; a single dash is a word. -/
def Token.ofArgument (known : List Flag) (argument : String) : Token :=
  match argument.toList with
  | ['-', '-'] => .terminator
  | '-' :: '-' :: text => .mentions [ofLongName known text]
  | '-' :: c :: rest => .mentions (ofLetters known (c :: rest))
  | _ => .word argument

/-- The flags with their values and the words that were read. A flag without a value has the empty
text. -/
structure Given where
  values : List (Flag × String) := []
  words : List String := []
deriving DecidableEq, Repr

namespace Given

/-- The value of a flag, if it was given. -/
def value? (given : Given) (flag : Flag) : Option String := given.values.lookup flag

/-- Every value of a flag in order. -/
def valuesOf (given : Given) (flag : Flag) : List String :=
  given.values.filterMap fun entry ↦ if entry.1 = flag then some entry.2 else none

/-- Whether a flag was given. -/
def has (given : Given) (flag : Flag) : Bool := (given.value? flag).isSome

/-- The path that is the value of a flag. -/
def path? (given : Given) (flag : Flag) : Option Path := (given.value? flag).map Path.mk

/-- Adds a flag with its value. -/
def add (given : Given) (flag : Flag) (value : String) : Except Stop Given :=
  if given.has flag && !flag.repeats then .error (.misuse (.repeated flag))
  else if !flag.accepts value then .error (.misuse (.badValue flag value))
  else .ok { given with values := given.values ++ [(flag, value)] }

/-- Adds a word. -/
def addWord (given : Given) (word : String) : Given :=
  { given with words := given.words ++ [word] }

/-- Adds what an argument mentions; the flag that awaits a value is given back. -/
def addMentions (argument : String) (given : Given) :
    List Mention → Except Stop (Given × Option Flag)
  | [] => .ok (given, none)
  | .plain flag :: rest =>
    if flag = .help then .error .help
    else
      match given.add flag "" with
      | .error stop => .error stop
      | .ok next => addMentions argument next rest
  | .valued flag value :: _ => (given.add flag value).map fun next ↦ (next, none)
  | .awaiting flag :: _ => .ok (given, some flag)
  | .unwanted flag :: _ => .error (.misuse (.unwantedValue flag))
  | .unknown :: _ => .error (.misuse (.unknownFlag argument))

end Given

/-- Reads the shared flags before a command, and gives the word behind them with what follows it. -/
def readLead (given : Given) : (awaiting : Option Flag) → List String →
    Except Stop (Given × String × List String)
  | some flag, [] => .error (.misuse (.missingValue flag))
  | none, [] => .error (.misuse .missingCommand)
  | some flag, argument :: rest =>
    match Token.ofArgument sharedFlags argument with
    | .word value =>
      match given.add flag value with
      | .error stop => .error stop
      | .ok next => readLead next none rest
    | _ => .error (.misuse (.missingValue flag))
  | none, argument :: rest =>
    match Token.ofArgument sharedFlags argument with
    | .word word => .ok (given, word, rest)
    | .terminator => .error (.misuse (rest.head?.elim .missingCommand .unexpectedWord))
    | .mentions list =>
      match given.addMentions argument list with
      | .error stop => .error stop
      | .ok (next, awaiting) => readLead next awaiting rest

/-- Adds words to those of a command, as many as it takes. -/
def addWords (verb : Verb) (given : Given) : List String → Except Stop Given
  | [] => .ok given
  | word :: rest =>
    if verb.takesWord given.words.length then addWords verb (given.addWord word) rest
    else .error (.misuse (.unexpectedWord word))

/-- Reads the flags and words behind a command. -/
def readRest (verb : Verb) (given : Given) : (awaiting : Option Flag) → List String →
    Except Stop Given
  | some flag, [] => .error (.misuse (.missingValue flag))
  | none, [] => .ok given
  | some flag, argument :: rest =>
    match Token.ofArgument verb.flags argument with
    | .word value =>
      match given.add flag value with
      | .error stop => .error stop
      | .ok next => readRest verb next none rest
    | _ => .error (.misuse (.missingValue flag))
  | none, argument :: rest =>
    match Token.ofArgument verb.flags argument with
    | .word word =>
      match addWords verb given [word] with
      | .error stop => .error stop
      | .ok next => readRest verb next none rest
    | .terminator => addWords verb given rest
    | .mentions list =>
      match given.addMentions argument list with
      | .error stop => .error stop
      | .ok (next, awaiting) => readRest verb next awaiting rest

/-- The environment variables by name. -/
abbrev Environment := List (String × String)

/-- Takes the value of a flag that was not given from its environment variable. -/
def addVariable (environment : Environment) (given : Given) (flag : Flag) : Except Stop Given :=
  match flag.environmentName?.bind fun name ↦ List.lookup name environment with
  | none => .ok given
  | some value => if given.has flag then .ok given else given.add flag value

/-- Takes the values of flags that were not given from their environment variables. -/
def addVariables (environment : Environment) (given : Given) : List Flag → Except Stop Given
  | [] => .ok given
  | flag :: rest =>
    match addVariable environment given flag with
    | .error stop => .error stop
    | .ok next => addVariables environment next rest

/-- The options of a compilation. -/
def Given.options (given : Given) : Options :=
  { mode := ((given.value? .mode).bind fun text ↦ (Code.Mode.parse text).toOption).getD .structured
    segment := given.value? .segment
    ignoredKeys := given.valuesOf .ignoredKey
    keepMainKey := !given.has .withoutMainKey
    cacheDirectory := given.path? .cacheDirectory }

/-- The command that a verb makes of what was given. -/
def Verb.command (verb : Verb) (given : Given) : Except Stop Command :=
  match verb, given.words with
  | .clear, _ => .ok (.clear (given.path? .cacheDirectory))
  | verb, [] => .error (.misuse (.missingWord verb))
  | .read, words => .ok (.read words (given.path? .root))
  | .compile, words =>
    .ok (.compile words given.options (given.path? .root) (given.has .contentSignature))
  | .display, word :: _ => .ok (.display word (given.path? .cacheDirectory))

/-- Reads what follows a verb. A settings file that is named behind it wins over one before it. -/
def Verb.invocation (verb : Verb) (environment : Environment) (lead : Given)
    (arguments : List String) : Except Stop Invocation :=
  match readRest verb {} none arguments with
  | .error stop => .error stop
  | .ok given =>
    match addVariables environment given verb.flags with
    | .error stop => .error stop
    | .ok given =>
      (verb.command given).map fun command ↦
        { settingsFile := (given.path? .settingsFile).or (lead.path? .settingsFile)
          command := command }

/-- What stops the reading when help is asked for by word, for all commands or for one. -/
def helpFor : List String → Stop
  | [] => .help
  | [word] =>
    if word = "help" ∨ (Verb.ofName? word).isSome then .help else .misuse (.unknownCommand word)
  | _ :: word :: _ => .misuse (.unexpectedWord word)

/-- Reads arguments. -/
def parse (environment : Environment) (arguments : List String) : Except Stop Invocation :=
  match readLead {} none arguments with
  | .error stop => .error stop
  | .ok (lead, word, rest) =>
    match Verb.ofName? word with
    | some verb => verb.invocation environment lead rest
    | none =>
      .error (if word = "help" then helpFor rest else .misuse (.unknownCommand word))

end LayeredConfig.CommandLine

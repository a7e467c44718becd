import LayeredConfig.Code.Generator

/-!
# Flags

A flag is written by its long name or, if it has one, by its letter. Some flags take a value, and
all but one may be given only once.
-/

namespace LayeredConfig.CommandLine

/-- What can be asked for by name on the command line. -/
inductive Flag where
  | help
  | verbose
  | debug
  | settingsFile
  | root
  | mode
  | segment
  | ignoredKey
  | withoutMainKey
  | cacheDirectory
  | contentSignature
deriving DecidableEq, Repr

namespace Flag

/-- The long name, which is written behind two dashes. -/
def long : Flag → String
  | help => "help"
  | verbose => "verbose"
  | debug => "debug"
  | settingsFile => "config"
  | root => "root"
  | mode => "mode"
  | segment => "segment"
  | ignoredKey => "ignore-key"
  | withoutMainKey => "no-main-key"
  | cacheDirectory => "cache-dir"
  | contentSignature => "content-signature"

/-- The letter, which is written behind one dash. -/
def letter? : Flag → Option Char
  | help => some 'h'
  | verbose => some 'v'
  | debug => some 'd'
  | settingsFile => some 'c'
  | mode => some 'm'
  | segment => some 's'
  | _ => none

/-- Whether a value belongs to the flag. -/
def takesValue : Flag → Bool
  | settingsFile | root | mode | segment | ignoredKey | cacheDirectory => true
  | _ => false

/-- Whether the flag may be given more than once. -/
def repeats (flag : Flag) : Bool := flag = ignoredKey

/-- Whether a text can be the value of the flag: no path is empty, and a mode must exist. -/
def accepts (flag : Flag) (value : String) : Bool :=
  match flag with
  | settingsFile | root | cacheDirectory => value != ""
  | mode => (Code.Mode.parse value).isOk
  | _ => true

/-- The environment variable that stands in for the flag when it is not given. -/
def environmentName? : Flag → Option String
  | root => some "CONFCACHE_ROOT"
  | cacheDirectory => some "CONFCACHE_CACHE_DIR"
  | _ => none

end Flag

/-- The flags that may stand before a command and behind it. -/
def sharedFlags : List Flag := [.help, .verbose, .debug, .settingsFile]

/-- The name of a command. -/
inductive Verb where
  | read
  | compile
  | display
  | clear
deriving DecidableEq, Repr

namespace Verb

/-- How a command is written. -/
def name : Verb → String
  | read => "read"
  | compile => "compile"
  | display => "show"
  | clear => "clear"

/-- Every command. -/
def all : List Verb := [read, compile, display, clear]

/-- The command that is written so. -/
def ofName? (name : String) : Option Verb := all.find? fun verb ↦ verb.name = name

/-- The flags that a command knows. -/
def flags : Verb → List Flag
  | read => sharedFlags ++ [.root]
  | compile =>
    sharedFlags ++ [.mode, .segment, .ignoredKey, .withoutMainKey, .cacheDirectory, .root,
      .contentSignature]
  | display => sharedFlags ++ [.cacheDirectory]
  | clear => sharedFlags ++ [.cacheDirectory]

/-- Whether a command takes one more word when it has `count` already. -/
def takesWord (count : Nat) : Verb → Bool
  | read | compile => true
  | display => count = 0
  | clear => false

end Verb

end LayeredConfig.CommandLine

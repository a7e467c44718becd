import LayeredConfig.Code.Generator
import LayeredConfig.Path

/-!
# Options of one compilation

Options travel with each call, so a compilation never inherits them from an earlier one. Setting an
option replaces what it was before.
-/

namespace LayeredConfig

/-- What one compilation asks for. -/
structure Options where
  /-- Which kind of code is generated. -/
  mode : Code.Mode := .structured
  /-- The expression that flat code assigns into. -/
  segment : Option String := none
  /-- The top-level keys that are dropped before generation. -/
  ignoredKeys : List String := []
  /-- Whether generation starts above the first top-level key. -/
  keepMainKey : Bool := true
  /-- Where the artifact goes, when not to the directory of the settings. -/
  cacheDirectory : Option Path := none
deriving DecidableEq, Repr, Inhabited

namespace Options

/-- The options with another mode. -/
def withMode (mode : Code.Mode) (options : Options) : Options := { options with mode := mode }

/-- The options with a segment. -/
def withSegment (segment : String) (options : Options) : Options :=
  { options with segment := some segment }

/-- The options with other ignored keys. -/
def withIgnoredKeys (keys : List String) (options : Options) : Options :=
  { options with ignoredKeys := keys }

/-- The options with or without the main key. -/
def withMainKey (keep : Bool) (options : Options) : Options := { options with keepMainKey := keep }

/-- The options with a directory for the artifact. -/
def withCacheDirectory (directory : Path) (options : Options) : Options :=
  { options with cacheDirectory := some directory }

end Options

end LayeredConfig

import LayeredConfig.Code.Flat

/-!
# Generators

A mode is chosen by name, without regard to ASCII case. A generator is a mode with what it assigns
into; the flat one cannot be made without a segment, and the structured one ignores it.
-/

namespace LayeredConfig.Code

/-- Which kind of code is generated. -/
inductive Mode where
  | structured
  | flatten
deriving DecidableEq, Repr, Inhabited

namespace Mode

/-- The name of a mode. -/
def name : Mode → String
  | structured => "structured"
  | flatten => "flatten"

/-- Reads a mode; the error repeats the name in lower case. -/
def parse (text : String) : Except GenerationError Mode :=
  let lower := String.ofList (text.toList.map Char.toLower)
  if lower = "structured" then .ok structured
  else if lower = "flatten" ∨ lower = "flat" then .ok flatten
  else .error (.unknownMode lower)

end Mode

/-- A mode with what its code assigns into. -/
inductive Generator where
  | structured (container : String)
  | flat (segment : Segment)
deriving DecidableEq, Repr

namespace Generator

/-- The generator of a mode. Flat code needs a segment that is not blank. -/
def build (mode : Mode) (segment : Option String) (container : String) :
    Except GenerationError Generator :=
  match mode, segment with
  | .structured, _ => .ok (structured container)
  | .flatten, none => .error .segmentRequired
  | .flatten, some text => (Segment.parse text).map flat

/-- The code of a tree. -/
def generate : Generator → Tree → Except GenerationError String
  | structured container, tree => Code.structured container tree
  | flat segment, tree => Code.flat segment tree

end Generator

end LayeredConfig.Code

import LayeredConfig.Binary64.Layout
import LayeredConfig.Code.Quoting
import LayeredConfig.Value.Basic

/-!
# Assignments

Generated code is a list of assignments, one on each line, of leaf values to targets. A leaf that
is not a finite number has no code, and the error names the target it would have been assigned to.
-/

namespace LayeredConfig.Code

/-- Why no code can be generated. -/
inductive GenerationError where
  /-- Flat code was asked for without a segment, or with a blank one. -/
  | segmentRequired
  /-- No mode has this name. -/
  | unknownMode (name : String)
  /-- A leaf is infinite or not a number. -/
  | nonFinite (target : String) (x : Binary64)
deriving DecidableEq, Repr

namespace GenerationError

/-- The wording of an error. -/
def message : GenerationError → String
  | segmentRequired => "Invalid argument: flatten mode requires a segment name"
  | unknownMode name => "Invalid argument: unknown generator mode '" ++ name ++ "'"
  | nonFinite target x =>
    "Unsupported value at " ++ target ++ ": non-finite float " ++ x.nonFiniteWord

end GenerationError

/-- One assignment: the code of its two sides. -/
structure Assignment where
  target : String
  value : String
deriving DecidableEq, Repr

/-- The code of a leaf; `target` is what the error names. -/
def ofScalar (target : String) : Scalar → Except GenerationError String
  | .null => .ok "null"
  | .bool b => .ok (if b then "true" else "false")
  | .integer n => .ok (toString n.toInt)
  | .unsigned n => .ok (toString n.toNat)
  | .float x =>
    if x.isFinite then .ok (String.ofList (Binary64.Layout.code.write x))
    else .error (.nonFinite target x)
  | .text t => .ok (ofText singleQuoted t)

/-- The code of an assignment, terminated by a semicolon. -/
def Assignment.render (a : Assignment) : String := a.target ++ " = " ++ a.value ++ ";"

/-- The code of a list of assignments, one on each line and no line feed at the end. -/
def renderLines (assignments : List Assignment) : String :=
  String.intercalate "\n" (assignments.map Assignment.render)

end LayeredConfig.Code

import LayeredConfig.Code.Assignment
import LayeredConfig.Document.Parse
import LayeredConfig.Tree.Filter

/-!
# Failures

Every way in which reading or compiling documents, or using the store of artifacts, can fail.
-/

namespace LayeredConfig

/-- Why documents cannot be compiled or an artifact cannot be used. -/
inductive Failure where
  /-- A document has a fault. -/
  | document (fault : Document.Fault)
  /-- A document cannot be read for the signature. -/
  | unsignable (path : Path)
  /-- Nothing is left to generate from. -/
  | empty (cause : EmptyCause)
  /-- No code can be generated. -/
  | generation (error : Code.GenerationError)
  /-- An artifact cannot be written. -/
  | unwritable (path : Path)
  /-- An artifact, or the directory of artifacts, cannot be read. -/
  | unreadable (path : Path)
deriving DecidableEq, Repr

/-- The wording of a failure. -/
def Failure.message : Failure → String
  | document fault => fault.message
  | unsignable path => "Failed to read " ++ path.quoted ++ " for signature: cannot be read"
  | empty cause => "Empty configuration: " ++ cause.message
  | generation error => error.message
  | unwritable path => "Failed to write artifact " ++ path.quoted ++ ": cannot be written"
  | unreadable path => "Failed to read artifact " ++ path.quoted ++ ": cannot be read"

end LayeredConfig

/-!
# Artifact text

An artifact opens with a comment that names its source documents and goes on with the generated
code. A path cannot end the comment: every comment terminator in it is broken by a backslash.
-/

namespace LayeredConfig.Code

/-- Breaks every comment terminator of a text. -/
def breakTerminators : List Char → List Char
  | [] => []
  | [c] => [c]
  | c :: d :: rest =>
    if c = '*' ∧ d = '/' then '*' :: '\\' :: '/' :: breakTerminators rest
    else c :: breakTerminators (d :: rest)

/-- The line of the header that names a source. -/
def sourceLine (source : String) : List Char :=
  " *   - ".toList ++ breakTerminators source.toList ++ ['\n']

/-- The header of an artifact, up to the line feed behind its end. -/
def header (sources : List String) : List Char :=
  "/*\n * This file is compiled from the following ".toList ++ Nat.toDigits 10 sources.length
    ++ " source document(s):\n".toList ++ sources.flatMap sourceLine ++ " */\n".toList

/-- The artifact text: header, body and a final line feed; an empty body adds nothing. -/
def renderArtifact (sources : List String) (body : String) : String :=
  String.ofList (header sources ++ if body = "" then [] else body.toList ++ ['\n'])

end LayeredConfig.Code

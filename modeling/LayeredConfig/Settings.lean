import LayeredConfig.Characters.Blank
import LayeredConfig.Code.Structured
import LayeredConfig.Signature
import LayeredConfig.Toml.Document

/-!
# Settings

Settings are what every compilation of one run shares. A settings document is TOML with a table
`compiler`; what it does not say keeps its default, and what it says beyond the known fields is
ignored. The known fields may also be given as a list, in the order of `Settings.Field.all`.
-/

namespace LayeredConfig

/-- The shared settings of a run. -/
structure Settings where
  /-- Where relative identifiers of documents start. -/
  root : Path := ⟨"."⟩
  /-- Where artifacts go unless a compilation says otherwise. -/
  cacheDirectory : Path := ⟨"cache"⟩
  /-- The extension of artifact files, without a dot. -/
  extension : String := "php"
  /-- The variable that structured code assigns into. -/
  container : String := Code.defaultContainer
  /-- The mark of literal texts. -/
  sigil : Char := Text.defaultSigil
  /-- What signatures are made from. -/
  basis : SignatureBasis := .paths
deriving DecidableEq, Repr, Inhabited

namespace Settings

/-- Why settings cannot be used. -/
inductive Fault where
  /-- The text is not TOML, or a field has a value of the wrong form. -/
  | malformed (fault : Toml.Fault)
  /-- The extension is empty or would leave the directory of artifacts. -/
  | badExtension (extension : String)
  /-- The container is blank. -/
  | blankContainer
  /-- The settings file cannot be read, or is not UTF-8 text. -/
  | unreadable (path : Path)
  /-- A settings file has a fault. -/
  | inFile (path : Path) (fault : Fault)
deriving DecidableEq, Repr

/-- The wording of a fault. -/
def Fault.message : Fault → String
  | malformed fault => "Invalid settings: " ++ fault.message
  | badExtension extension =>
    "Invalid settings: compiler.extension must be a plain file extension, got '" ++ extension ++ "'"
  | blankContainer => "Invalid settings: compiler.container must not be empty"
  | unreadable path =>
    "Invalid settings: failed to read " ++ path.text ++ ": cannot be read as text"
  | inFile path fault => "Invalid settings: " ++ path.text ++ ": " ++ fault.message

/-- The fields of a settings document. -/
inductive Field where
  | root
  | cacheDirectory
  | extension
  | container
  | sigil
  | signature
deriving DecidableEq, Repr

namespace Field

/-- The key of a field. -/
def key : Field → String
  | root => "root"
  | cacheDirectory => "cache_dir"
  | extension => "extension"
  | container => "container"
  | sigil => "sigil"
  | signature => "signature"

/-- The fields in the order in which a list gives them. -/
def all : List Field := [root, cacheDirectory, extension, container, sigil, signature]

end Field

private def stringOf : Toml.Value → Except Toml.Fault String
  | .string s => .ok s
  | _ => .error .wrongForm

private def characterOf : Toml.Value → Except Toml.Fault Char
  | .string s =>
    match s.toList with
    | [c] => .ok c
    | _ => .error .wrongForm
  | _ => .error .wrongForm

/-- The basis of a name. -/
def basisOfName? (name : String) : Option SignatureBasis :=
  if name = SignatureBasis.name .paths then some .paths
  else if name = SignatureBasis.name .content then some .content
  else none

private def isHollow : Toml.Value → Bool
  | .array items => items.isEmpty
  | .table _ entries => entries.isEmpty
  | _ => false

-- The basis that a value names: a string, or the key of a table whose only value is hollow.
private def basisOf : Toml.Value → Except Toml.Fault SignatureBasis
  | .string s => (basisOfName? s).elim (.error .wrongForm) .ok
  | .table _ [(name, inner)] =>
    if isHollow inner then (basisOfName? name).elim (.error .wrongForm) .ok else .error .wrongForm
  | _ => .error .wrongForm

/-- Gives a field its value. -/
def assign (settings : Settings) (field : Field) (value : Toml.Value) :
    Except Toml.Fault Settings :=
  match field with
  | .root => (stringOf value).map fun s ↦ { settings with root := ⟨s⟩ }
  | .cacheDirectory => (stringOf value).map fun s ↦ { settings with cacheDirectory := ⟨s⟩ }
  | .extension => (stringOf value).map fun s ↦ { settings with extension := s }
  | .container => (stringOf value).map fun s ↦ { settings with container := s }
  | .sigil => (characterOf value).map fun c ↦ { settings with sigil := c }
  | .signature => (basisOf value).map fun b ↦ { settings with basis := b }

/-- Gives fields their values in order. -/
def assignAll (settings : Settings) : List (Field × Toml.Value) → Except Toml.Fault Settings
  | [] => .ok settings
  | (field, value) :: rest =>
    match settings.assign field value with
    | .error fault => .error fault
    | .ok next => assignAll next rest

/-- The settings that the value of `compiler` describes. A date is as good as an empty table. -/
def ofValue : Toml.Value → Except Toml.Fault Settings
  | .table _ entries =>
    assignAll {} (Field.all.filterMap fun field ↦
      (Toml.Table.find? field.key entries).map fun value ↦ (field, value))
  | .array items => assignAll {} (Field.all.zip items)
  | .tables elements => assignAll {} (Field.all.zip (elements.map (Toml.Value.table .header)))
  | .moment => .ok {}
  | _ => .error .wrongForm

/-- Whether a text can be the extension of a file: it is not empty and holds no separator. -/
def isPlainExtension (extension : String) : Bool :=
  extension != "" && !extension.toList.any fun c ↦ c = '/' || c = '\\'

/-- Refuses settings that cannot name artifacts or code. -/
def validate (settings : Settings) : Except Fault Settings :=
  if !isPlainExtension settings.extension then .error (.badExtension settings.extension)
  else if Characters.trim settings.container.toList = [] then .error .blankContainer
  else .ok settings

/-- Reads the text of a settings document. -/
def parse (text : String) : Except Fault Settings :=
  match Toml.parse text with
  | .error fault => .error (.malformed fault)
  | .ok table =>
    match Toml.Table.find? "compiler" table with
    | none => validate {}
    | some value =>
      match ofValue value with
      | .error fault => .error (.malformed fault)
      | .ok settings => validate settings

end Settings

end LayeredConfig

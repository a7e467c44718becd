import LayeredConfig.CommandLine.Run

/-!
# What a run may look at

A run depends on few files: its settings file, the documents it names with the default documents
beside them, and the directory of artifacts. Whoever runs the program on real files has to supply
these, and to carry out what changed.
-/

namespace LayeredConfig.CommandLine

/-- The settings file of an invocation. -/
def Invocation.settingsPath (invocation : Invocation) (fs : FileSystem) : Path :=
  invocation.settingsFile.getD (fs.workingPath.child Settings.fileName)

/-- The paths at which documents are looked for. -/
def candidates (root : Path) (identifiers : List String) : List Path :=
  identifiers.flatMap fun identifier ↦
    match Document.Reference.primary? root ⟨identifier⟩ with
    | none => []
    | some primary => [primary.path, primary.fallback.path]

/-- The documents that a command may read. -/
def Command.documents (settings : Settings) : Command → List Path
  | .read identifiers root => candidates (root.getD settings.root) identifiers
  | .compile identifiers _ root _ => candidates (root.getD settings.root) identifiers
  | _ => []

/-- The directory of artifacts that a command may use. -/
def Command.directory? (settings : Settings) : Command → Option Path
  | .read _ _ => none
  | .compile _ options _ _ => some (settings.storeFor options).directory
  | .display _ directory => some (storeAt settings directory).directory
  | .clear directory => some (storeAt settings directory).directory

/-- The places that a path passes, without regard to what lies there. -/
def passed : List String → Location → List Location
  | [], location => [location]
  | part :: rest, location =>
    location :: passed rest
      (if part = "" ∨ part = "." then location
       else if part = ".." then location.tail
       else part :: location)

/-- The nodes of one file system that another lacks or has otherwise, outermost first. -/
def changed (before after : FileSystem) : List (Location × Node) :=
  (after.nodes.filter fun entry ↦ before.nodeAt entry.1 != some entry.2).mergeSort
    fun a b ↦ a.1.length ≤ b.1.length

/-- The places that lie in one file system and no longer in the other, innermost first. -/
def removed (before after : FileSystem) : List Location :=
  ((before.nodes.map Prod.fst).filter fun location ↦ (after.nodeAt location).isNone).mergeSort
    fun a b ↦ b.length ≤ a.length

/-- What has to be done to get from one file system to another: first what is taken away from
places, then what is put there. -/
def changes (before after : FileSystem) : List (Location × Option Node) :=
  (removed before after).map (·, none)
    ++ (changed before after).map fun (location, node) ↦ (location, some node)

end LayeredConfig.CommandLine

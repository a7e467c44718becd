/-!
# Files and directories

A file system is a finite set of places with a file or a directory at each; every place but those
below the root lies in a directory of the set. Places are changed one at a time, and `nodeAt` sees
exactly that change.

Not every file can be read, and not every change is carried out: permissions may be missing, a disk
may be full, a device may fail. A file says whether it can be read, and a file system which changes
it refuses. Both are data, so that what is proved holds whatever goes wrong.
-/

namespace LayeredConfig

/-- A place: a name, the name of the directory around it, and so on outwards. The root is the empty
list. -/
abbrev Location := List String

/-- The bytes of a file, and whether they can be read. -/
structure File where
  bytes : ByteArray
  readable : Bool

/-- Bytes alone stand for a file that can be read. -/
instance : Coe ByteArray File := ⟨fun bytes ↦ ⟨bytes, true⟩⟩

instance : DecidableEq File := fun first second ↦
  decidable_of_iff (first.bytes.data = second.bytes.data ∧ first.readable = second.readable) <| by
    obtain ⟨⟨_⟩, _⟩ := first
    obtain ⟨⟨_⟩, _⟩ := second
    simp

/-- What lies at a place. -/
inductive Node where
  | file (file : File)
  | directory
deriving DecidableEq

/-- Every change is carried out. -/
def refusesNothing (_ : Location) (_ : Option Node) : Bool := false

/-- Where every change is carried out, so is the one that undoes it. -/
theorem reversible_refusesNothing (place : Location) (node : Node) :
    refusesNothing place none = true → refusesNothing place (some node) = true := nofun

/-- Files and directories, the directory where relative paths start, and the changes that are
refused: to put a node at a place, or to take away what is there. What could be put somewhere can be
taken away again. -/
@[ext]
structure FileSystem where
  nodes : List (Location × Node)
  workingDirectory : Location
  refuses : Location → Option Node → Bool := refusesNothing
  distinct : (nodes.map Prod.fst).Nodup
  enclosed : ∀ entry ∈ nodes, ∃ name parent, entry.1 = name :: parent ∧
    (parent = [] ∨ (parent, Node.directory) ∈ nodes)
  reversible : ∀ place node, refuses place none = true → refuses place (some node) = true := by
    exact reversible_refusesNothing

namespace FileSystem

/-- The node that a list of places gives for one of them. -/
def find? (location : Location) : List (Location × Node) → Option Node
  | [] => none
  | (l, node) :: rest => if l = location then some node else find? location rest

/-- What lies at a place. The root is always a directory. -/
def nodeAt (fs : FileSystem) : Location → Option Node
  | [] => some .directory
  | name :: parent => find? (name :: parent) fs.nodes

/-- A file system without any files. -/
def empty : FileSystem :=
  { nodes := []
    workingDirectory := []
    distinct := List.nodup_nil
    enclosed := fun _ h ↦ absurd h List.not_mem_nil }

/-- What is found is listed. -/
theorem mem_of_find? {location : Location} {node : Node} {nodes : List (Location × Node)}
    (h : find? location nodes = some node) : (location, node) ∈ nodes := by
  induction nodes with
  | nil => simp [find?] at h
  | cons entry rest ih =>
    obtain ⟨l, n⟩ := entry
    by_cases hl : l = location
    · simp only [find?, hl, if_true, Option.some.injEq] at h
      simp [hl, h]
    · simp only [find?, hl, if_false] at h
      exact List.mem_cons_of_mem _ (ih h)

/-- When places are distinct, what is listed is found. -/
theorem find?_of_mem {location : Location} {node : Node} {nodes : List (Location × Node)}
    (hd : (nodes.map Prod.fst).Nodup) (h : (location, node) ∈ nodes) :
    find? location nodes = some node := by
  induction nodes with
  | nil => simp at h
  | cons entry rest ih =>
    obtain ⟨l, n⟩ := entry
    rw [List.map_cons, List.nodup_cons] at hd
    rcases List.mem_cons.1 h with he | hr
    · cases he
      simp [find?]
    · have hne : l ≠ location := by
        rintro rfl
        exact hd.1 (List.mem_map.2 ⟨_, hr, rfl⟩)
      simp only [find?, hne, if_false]
      exact ih hd.2 hr

/-- Leaving places out does not change the others. -/
theorem find?_filter (keep : Location → Bool) {location : Location} (h : keep location = true)
    (nodes : List (Location × Node)) :
    find? location (nodes.filter fun entry ↦ keep entry.1) = find? location nodes := by
  induction nodes with
  | nil => rfl
  | cons entry rest ih =>
    obtain ⟨l, n⟩ := entry
    by_cases hl : l = location
    · subst hl
      simp [find?, h]
    · by_cases hk : keep l = true
      · simp [find?, hk, hl, ih]
      · simp [find?, hk, hl, ih]

private theorem find?_filter_eq_none (keep : Location → Bool) {location : Location}
    (h : keep location = false) (nodes : List (Location × Node)) :
    find? location (nodes.filter fun entry ↦ keep entry.1) = none := by
  induction nodes with
  | nil => rfl
  | cons entry rest ih =>
    obtain ⟨l, n⟩ := entry
    by_cases hk : keep l = true
    · have hl : l ≠ location := by
        rintro rfl
        rw [h] at hk
        exact Bool.noConfusion hk
      simp [find?, hk, hl, ih]
    · simp [hk, ih]

/-- Leaving places out keeps the others distinct. -/
theorem nodup_filter (keep : Location → Bool) {nodes : List (Location × Node)}
    (h : (nodes.map Prod.fst).Nodup) :
    ((nodes.filter fun entry ↦ keep entry.1).map Prod.fst).Nodup :=
  h.sublist (List.filter_sublist.map Prod.fst)

/-- A directory of the file system other than the root is listed. -/
theorem mem_of_nodeAt {fs : FileSystem} {parent : Location}
    (h : fs.nodeAt parent = some .directory) :
    parent = [] ∨ (parent, Node.directory) ∈ fs.nodes := by
  cases parent with
  | nil => exact .inl rfl
  | cons name rest => exact .inr (mem_of_find? h)

/-- A listed directory is found. -/
theorem nodeAt_of_mem {fs : FileSystem} {location : Location}
    (h : (location, Node.directory) ∈ fs.nodes) : fs.nodeAt location = some .directory := by
  cases location with
  | nil => rfl
  | cons name parent => exact find?_of_mem fs.distinct h

/-- Whatever exists lies in a directory. -/
theorem nodeAt_parent {fs : FileSystem} {name : String} {parent : Location} {node : Node}
    (h : fs.nodeAt (name :: parent) = some node) : fs.nodeAt parent = some .directory := by
  obtain ⟨n, p, he, hp⟩ := fs.enclosed _ (mem_of_find? h)
  cases he
  rcases hp with rfl | hp
  · rfl
  · exact nodeAt_of_mem hp

/-- Puts a node at a place in a directory; what is there may not be a directory. -/
def put (fs : FileSystem) (name : String) (parent : Location) (node : Node)
    (hp : fs.nodeAt parent = some .directory)
    (hn : fs.nodeAt (name :: parent) ≠ some .directory) : FileSystem :=
  { fs with
    nodes := (name :: parent, node) :: fs.nodes.filter fun entry ↦ entry.1 != name :: parent
    distinct := by
      rw [List.map_cons, List.nodup_cons]
      refine ⟨?_, nodup_filter (fun l ↦ l != name :: parent) fs.distinct⟩
      intro hm
      obtain ⟨entry, he, hl⟩ := List.mem_map.1 hm
      have := (List.mem_filter.1 he).2
      simp [hl] at this
    enclosed := by
      have keep (l : Location) (hl : l = [] ∨ (l, Node.directory) ∈ fs.nodes) :
          l = [] ∨ (l, Node.directory) ∈
            (name :: parent, node) :: fs.nodes.filter fun entry ↦ entry.1 != name :: parent := by
        rcases hl with hl | hl
        · exact .inl hl
        · refine .inr (List.mem_cons_of_mem _ (List.mem_filter.2 ⟨hl, ?_⟩))
          have hne : l ≠ name :: parent := by
            rintro rfl
            exact hn (nodeAt_of_mem hl)
          simpa using hne
      intro entry he
      rcases List.mem_cons.1 he with rfl | hr
      · exact ⟨name, parent, rfl, keep parent (mem_of_nodeAt hp)⟩
      · obtain ⟨n, p, hep, hin⟩ := fs.enclosed entry (List.mem_filter.1 hr).1
        exact ⟨n, p, hep, keep p hin⟩ }

/-- The place that was written holds the node. -/
theorem nodeAt_put_self (fs : FileSystem) (name : String) (parent : Location) (node : Node)
    (hp : fs.nodeAt parent = some .directory) (hn : fs.nodeAt (name :: parent) ≠ some .directory) :
    (fs.put name parent node hp hn).nodeAt (name :: parent) = some node := by
  simp [nodeAt, put, find?]

/-- Every other place is as it was. -/
theorem nodeAt_put_of_ne (fs : FileSystem) {name : String} {parent : Location} (node : Node)
    (hp : fs.nodeAt parent = some .directory) (hn : fs.nodeAt (name :: parent) ≠ some .directory)
    {location : Location} (h : location ≠ name :: parent) :
    (fs.put name parent node hp hn).nodeAt location = fs.nodeAt location := by
  cases location with
  | nil => rfl
  | cons n p =>
    have hk : ((n :: p) != name :: parent) = true := by simpa using h
    simp only [nodeAt, put, find?, Ne.symm h, if_false]
    exact find?_filter (fun l ↦ l != name :: parent) hk fs.nodes

/-- Takes away a place and all that lies below it. -/
def erase (fs : FileSystem) (location : Location) : FileSystem :=
  { fs with
    nodes := fs.nodes.filter fun entry ↦ !location.isSuffixOf entry.1
    distinct := nodup_filter (fun l ↦ !location.isSuffixOf l) fs.distinct
    enclosed := by
      intro entry he
      obtain ⟨hm, hk⟩ := List.mem_filter.1 he
      obtain ⟨n, p, hep, hin⟩ := fs.enclosed entry hm
      refine ⟨n, p, hep, hin.imp_right fun hin ↦ List.mem_filter.2 ⟨hin, ?_⟩⟩
      rw [hep, Bool.not_eq_true', Bool.eq_false_iff, ne_eq, List.isSuffixOf_iff_suffix] at hk
      rw [Bool.not_eq_true', Bool.eq_false_iff, ne_eq, List.isSuffixOf_iff_suffix]
      exact fun hs ↦ hk (hs.trans (List.suffix_cons n p)) }

/-- What lies below an erased place is gone. -/
theorem nodeAt_erase_of_suffix (fs : FileSystem) {location inner : Location}
    (h : location <:+ inner) (hne : inner ≠ []) : (fs.erase location).nodeAt inner = none := by
  cases inner with
  | nil => exact absurd rfl hne
  | cons n p => exact find?_filter_eq_none (fun l ↦ !location.isSuffixOf l) (by simpa using h) _

/-- What does not lie below an erased place is as it was. -/
theorem nodeAt_erase_of_not_suffix (fs : FileSystem) {location other : Location}
    (h : ¬ location <:+ other) : (fs.erase location).nodeAt other = fs.nodeAt other := by
  cases other with
  | nil => rfl
  | cons n p =>
    have hk : (!location.isSuffixOf (n :: p)) = true := by
      rw [Bool.not_eq_true', Bool.eq_false_iff, ne_eq, List.isSuffixOf_iff_suffix]
      exact h
    exact find?_filter (fun l ↦ !location.isSuffixOf l) hk _

/-- The same files seen from another directory. -/
def movedTo (fs : FileSystem) (directory : Location) : FileSystem :=
  { fs with workingDirectory := directory }

/-- The same files, where one more change is refused. If nothing can be taken away from a place,
nothing can be put there. -/
def refusing (fs : FileSystem) (location : Location) (change : Option Node) : FileSystem :=
  { fs with
    refuses := fun place node ↦
      fs.refuses place node || (place == location && (change.isNone || node == change))
    reversible := by
      intro place node h
      rw [Bool.or_eq_true, Bool.and_eq_true] at h ⊢
      rcases h with h | ⟨hplace, h⟩
      · exact .inl (fs.reversible place node h)
      · refine .inr ⟨hplace, ?_⟩
        cases change with
        | none => rfl
        | some made => simp at h }

/-- The names in a directory. -/
def childNames (fs : FileSystem) (directory : Location) : List String :=
  fs.nodes.filterMap fun entry ↦
    match entry.1 with
    | [] => none
    | name :: parent => if parent = directory then some name else none

/-- A name is listed in a directory exactly when something lies there. -/
theorem mem_childNames_iff {fs : FileSystem} {directory : Location} {name : String} :
    name ∈ fs.childNames directory ↔ (fs.nodeAt (name :: directory)).isSome := by
  rw [childNames, List.mem_filterMap]
  constructor
  · rintro ⟨⟨l, node⟩, hm, h⟩
    match l, h with
    | n :: p, h =>
      by_cases hp : p = directory
      · subst hp
        have hname : n = name := by simpa using h
        subst hname
        simp [nodeAt, find?_of_mem fs.distinct hm]
      · simp [hp] at h
  · intro h
    obtain ⟨node, hn⟩ := Option.isSome_iff_exists.1 h
    exact ⟨_, mem_of_find? hn, by simp⟩

end FileSystem

end LayeredConfig

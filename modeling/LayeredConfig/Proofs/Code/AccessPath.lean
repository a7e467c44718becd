import LayeredConfig.Proofs.Code.Statement

/-!
# Reading access paths

An access path is a container followed by keys in brackets, each a double-quoted literal. Keys are
read as long as there are brackets, so an access path is read up to what follows its last key.
-/

namespace LayeredConfig.Code

open Characters (dropPrefix? dropPrefix?_eq_some_iff)

/-- Reads a key in brackets that is written as a literal of one kind. -/
def readBracketed (form : LiteralForm) : Reader Text := fun text ↦ do
  let behind ← dropPrefix? ['[', form.quote] text
  let (key, closing) ← form.read behind
  let left ← dropPrefix? [']'] closing
  return (.quoted (String.ofList key), left)

/-- A literal in brackets is read back, whatever follows it. -/
theorem readBracketed_escape (form : LiteralForm) (s rest : List Char) :
    readBracketed form
        ('[' :: form.quote :: (escape form.isEscapable s ++ form.quote :: ']' :: rest))
      = some (.quoted (String.ofList s), rest) := by
  have hread := form.read_escape s (']' :: rest)
  simp [readBracketed, dropPrefix?, hread]

private theorem length_of_readBracketed {form : LiteralForm} {text left : List Char} {key : Text}
    (h : readBracketed form text = some (key, left)) : left.length < text.length := by
  obtain ⟨behind, hopen, h⟩ := Option.bind_eq_some_iff.mp h
  obtain ⟨⟨s, closing⟩, hread, h⟩ := Option.bind_eq_some_iff.mp h
  obtain ⟨left', hclose, h⟩ := Option.bind_eq_some_iff.mp h
  obtain ⟨-, rfl⟩ := Prod.mk.inj (Option.some.inj h)
  have hlength := LiteralForm.length_of_read hread
  rw [dropPrefix?_eq_some_iff.mp hclose] at hlength
  rw [dropPrefix?_eq_some_iff.mp hopen]
  simp only [List.length_append, List.length_cons] at hlength ⊢
  omega

/-- Reads a key in brackets, as it stands in an access path. -/
def readKey : Reader Text := readBracketed .double

/-- Reads keys in brackets as long as there are any. -/
def readKeys (text : List Char) : List Text × List Char :=
  match _h : readKey text with
  | none => ([], text)
  | some (key, left) => (key :: (readKeys left).1, (readKeys left).2)
termination_by text.length
decreasing_by all_goals exact length_of_readBracketed _h

private theorem readKeys_of_none {text : List Char} (h : readKey text = none) :
    readKeys text = ([], text) := by
  rw [readKeys]
  split
  · rfl
  · next hkey => exact absurd (h.symm.trans hkey) nofun

private theorem readKeys_of_some {text left : List Char} {key : Text}
    (h : readKey text = some (key, left)) :
    readKeys text = (key :: (readKeys left).1, (readKeys left).2) := by
  rw [readKeys]
  split
  · next hkey => exact absurd (hkey.symm.trans h) nofun
  · next key' left' hkey =>
    obtain ⟨rfl, rfl⟩ := Prod.mk.inj (Option.some.inj (hkey.symm.trans h))
    rfl

/-- Reads an access path that starts at a container. -/
def readAccess (container : String) : Reader (List Text) := fun text ↦
  (dropPrefix? container.toList text).map readKeys

/-- A key as it stands in an access path. -/
def keyCode (key : Text) : List Char := '[' :: (ofText doubleQuoted key).toList ++ [']']

/-- The target of a path of keys below a container. -/
def accessTarget (container : String) (path : List Text) : String :=
  path.foldl accessPath container

private theorem toList_accessTarget (container : String) (path : List Text) :
    (accessTarget container path).toList = container.toList ++ path.flatMap keyCode := by
  induction path generalizing container with
  | nil => simp [accessTarget]
  | cons key path ih =>
    have hkey : (accessPath container key).toList = container.toList ++ keyCode key := by
      simp [accessPath, keyCode, String.toList_append]
    rw [accessTarget, List.foldl_cons, ← accessTarget, ih, hkey, List.flatMap_cons,
      List.append_assoc]

private theorem readKey_keyCode {key : Text} (h : key.isLiteral = false) (rest : List Char) :
    readKey (keyCode key ++ rest) = some (key, rest) := by
  cases key with
  | literal code => exact absurd h (by simp [Text.isLiteral])
  | quoted s =>
    have htext : keyCode (.quoted s) ++ rest
        = '[' :: '"' :: (escape isDoubleSpecial s.toList ++ '"' :: ']' :: rest) := by
      simp [keyCode, ofText, doubleQuoted]
    have hread := readBracketed_escape .double s.toList rest
    rw [String.ofList_toList] at hread
    rw [htext]
    exact hread

private theorem readKeys_flatMap {path : List Text} (h : ∀ key ∈ path, key.isLiteral = false)
    {rest : List Char} (hrest : readKey rest = none) :
    readKeys (path.flatMap keyCode ++ rest) = (path, rest) := by
  induction path with
  | nil => exact readKeys_of_none hrest
  | cons key path ih =>
    obtain ⟨hkey, hpath⟩ := List.forall_mem_cons.mp h
    rw [List.flatMap_cons, List.append_assoc, readKeys_of_some (readKey_keyCode hkey _),
      ih hpath]

/-- An access path with quoted keys is read back in front of an equals sign. -/
theorem readsBack_accessTarget (container : String) {path : List Text}
    (h : ∀ key ∈ path, key.isLiteral = false) :
    ReadsBack (readAccess container) (accessTarget container path) path := by
  intro rest
  have hopen : dropPrefix? container.toList
      (container.toList ++ (path.flatMap keyCode ++ ' ' :: rest))
        = some (path.flatMap keyCode ++ ' ' :: rest) := dropPrefix?_eq_some_iff.mpr rfl
  rw [toList_accessTarget, List.append_assoc, readAccess, hopen, Option.map_some,
    readKeys_flatMap h rfl]

end LayeredConfig.Code

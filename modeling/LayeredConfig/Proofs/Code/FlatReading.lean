import LayeredConfig.Proofs.Code.Stripping

/-!
# Reading flat code back

A target of flat code is the segment's expression with a single-quoted key in brackets behind it. A
reader that knows the expression reads the target up to its closing bracket, whatever the key holds,
and so it reads flat code back as the assigned entries.
-/

namespace LayeredConfig.Code

open Characters (dropPrefix? dropPrefix?_eq_some_iff)
open LayeredConfig.Tree (flatten)

/-- Reads the key that is assigned into a segment with the given expression. -/
def readEntryKey (expression : String) : Reader Text := fun text ↦
  (dropPrefix? expression.toList text).bind (readBracketed .single)

private theorem readsBack_keyTarget (expression : String) {key : Text} (h : key.isLiteral = false) :
    ReadsBack (readEntryKey expression) (keyTarget expression key) key := by
  intro rest
  cases key with
  | literal code => exact absurd h nofun
  | quoted s =>
    have htext : (keyTarget expression (.quoted s)).toList ++ ' ' :: rest
        = expression.toList
          ++ '[' :: '\'' :: (escape isSingleSpecial s.toList ++ '\'' :: ']' :: ' ' :: rest) := by
      simp [keyTarget, ofText, singleQuoted, String.toList_append]
    have hread := readBracketed_escape .single s.toList (' ' :: rest)
    rw [String.ofList_toList] at hread
    rw [readEntryKey, dropPrefix?_eq_some_iff.mpr htext]
    exact hread

/-- An entry that can be told from its assignment: a quoted key holds a plain scalar. -/
structure PlainEntry (entry : Text × Value) : Prop where
  quoted : entry.1.isLiteral = false
  plain : IsPlain entry.2
  scalar : ∃ s, entry.2 = .scalar s

private theorem readStatements_keyAssignments (expression : String) {entries : List (Text × Value)}
    (h : ∀ entry ∈ entries, PlainEntry entry) :
    readStatements (readEntryKey expression)
      (renderLines (entries.map (keyAssignment expression))).toList = some entries := by
  apply readStatements_renderLines
  intro entry he rest
  have hentry := h entry he
  exact readStatement_render (readsBack_keyTarget expression hentry.quoted) hentry.plain
    (.inl hentry.scalar) rest

/-- A tree of which flat code can be read back: its root keys are quoted and its leaves plain. -/
structure FlatPlain (tree : Tree) : Prop where
  quoted : ∀ key ∈ Entries.keys tree, key.isLiteral = false
  plain : Tree.Everywhere (fun t ↦ ∀ entry ∈ t, IsPlain entry.2) tree

private theorem FlatPlain.plainEntry {tree : Tree} (h : FlatPlain tree) (segment : Segment)
    {entry : Text × Value} (he : entry ∈ assigned segment tree) : PlainEntry entry := by
  obtain ⟨held, hheld, rfl⟩ := List.mem_map.mp he
  obtain ⟨leaf, hleaf, rfl⟩ := Tree.exists_leaf_of_mem_flatten hheld
  obtain ⟨head, hhead, path, hpath⟩ := Tree.exists_head_of_mem_leaves hleaf
  constructor
  · rw [Segment.isLiteral_strip, hpath, Tree.dottedKey, Text.isLiteral_tagged]
    simpa using h.quoted head hhead
  · exact Tree.value_of_everywhere h.plain (Tree.mem_tips_of_mem_leaves hleaf)
  · exact Tree.exists_scalar_of_mem_leaves hleaf

/-- **Flat code is read back.** Every tree with quoted root keys and plain leaves has flat code for
every segment. A reader that knows the expression of the segment reads it as the entries of the flat
form in order, each key without the stem, and no other list of plain entries has the same code. -/
theorem flat_read_back {tree : Tree} (h : FlatPlain tree) (segment : Segment) :
    ∃ text, (Generator.flat segment).generate tree = .ok text ∧
      readStatements (readEntryKey segment.expression) text.toList
        = some ((flatten tree).map fun entry ↦ (segment.strip entry.1, entry.2)) ∧
      ∀ entries : List (Text × Value), (∀ entry ∈ entries, PlainEntry entry) →
        renderLines (entries.map (keyAssignment segment.expression)) = text →
        entries = (flatten tree).map fun entry ↦ (segment.strip entry.1, entry.2) := by
  have hplain : ∀ entry ∈ assigned segment tree, PlainEntry entry :=
    fun _ he ↦ h.plainEntry segment he
  have hread := readStatements_keyAssignments segment.expression hplain
  refine ⟨_, ?_, hread, ?_⟩
  · rw [Generator.generate, flat_eq_mapM_assigned]
    refine congrArg (Except.map renderLines) (mapM_eq_ok fun entry he ↦ ?_)
    rw [valueCode_of_isPlain _ (hplain entry he).plain]
    rfl
  · intro entries hentries hsame
    have hagain := readStatements_keyAssignments segment.expression hentries
    rw [hsame] at hagain
    exact Option.some.inj (hagain.symm.trans hread)

/-- A tree whose keys and texts look like flat code, with literal keys below the root, a dotted key
that a later leaf takes over, and integers at both ends of their ranges. -/
def flatCodeLike : Tree :=
  [(.quoted "app", .tree
      [(.quoted "it's']\n = 1;", .scalar (.text (.quoted "\\';\n$cfg['app']['a'] = 'b';"))),
        (.literal "low", .scalar (.integer (-9223372036854775808))), (.quoted "none", .tree []),
        (.quoted "", .scalar (.bool false))]),
    (.quoted "app.low", .scalar (.unsigned 18446744073709551615))]

/-- Texts that look like flat code are read back. -/
theorem flat_read_back_flatCodeLike :
    FlatPlain flatCodeLike ∧ Segment.parse " $cfg['app'] " = .ok ⟨"$cfg['app']", "app"⟩ ∧
      ∃ text, (Generator.flat ⟨"$cfg['app']", "app"⟩).generate flatCodeLike = .ok text ∧
        readStatements (readEntryKey "$cfg['app']") text.toList
          = some [(.quoted "it's']\n = 1;",
              .scalar (.text (.quoted "\\';\n$cfg['app']['a'] = 'b';"))),
            (.quoted "low", .scalar (.unsigned 18446744073709551615)),
            (.quoted "app.", .scalar (.bool false))] := by
  have h : FlatPlain flatCodeLike := ⟨by decide, by decide⟩
  obtain ⟨text, hcode, hread, -⟩ := flat_read_back h ⟨"$cfg['app']", "app"⟩
  exact ⟨h, by decide, text, hcode, hread.trans (congrArg some (by decide))⟩

end LayeredConfig.Code

import LayeredConfig.Code.Generator
import LayeredConfig.Proofs.Code.AccessPath
import LayeredConfig.Proofs.Results
import LayeredConfig.Proofs.Tree.Replay

/-!
# Reading structured code back

Structured code is one assignment for each tip of a tree, in the order of the tips, and it fails at
the first tip that has no code. Where keys are quoted and leaves are plain, the tips are read back
from the code, and replaying them builds the tree again.
-/

namespace LayeredConfig.Code

open LayeredConfig.Tree (Tip tips valueTips)

/-- The assignment of a tip to a target that its path gives. -/
def assign (target : List Text → String) (tip : Tip) : Except GenerationError Assignment :=
  (valueCode (target tip.1) tip.2).map (⟨target tip.1, ·⟩)

private theorem assign_below (container : String) (key : Text) (tip : Tip) :
    assign (accessTarget container) (tip.below key)
      = assign (accessTarget (accessPath container key)) tip := rfl

private theorem structuredEntries_cons (container : String) (key : Text) (value : Value)
    (rest : Tree) :
    structuredEntries container ((key, value) :: rest) = (do
      let first ← structuredValue (accessPath container key) value
      let more ← structuredEntries container rest
      return first ++ more) := by
  rw [structuredEntries]
  cases structuredValue (accessPath container key) value with
  | error e => rfl
  | ok first =>
    cases structuredEntries container rest with
    | error e => rfl
    | ok more => rfl

mutual

private theorem structuredValue_eq_mapM (path : String) : ∀ value : Value,
    structuredValue path value = (valueTips value).mapM (assign (accessTarget path))
  | .scalar s => by
    simp only [structuredValue, valueTips, List.mapM_cons, List.mapM_nil, assign, accessTarget,
      List.foldl_nil, valueCode]
    cases ofScalar path s with
    | error e => rfl
    | ok code => rfl
  | .tree [] => rfl
  | .tree (entry :: rest) => structuredEntries_eq_mapM path (entry :: rest)

/-- The assignments of a tree are those of its tips, in order. -/
theorem structuredEntries_eq_mapM (container : String) : ∀ tree : List (Text × Value),
    structuredEntries container tree = (tips tree).mapM (assign (accessTarget container))
  | [] => rfl
  | (key, value) :: rest => by
    have hbelow : assign (accessTarget container) ∘ Tip.below key
        = assign (accessTarget (accessPath container key)) :=
      funext (assign_below container key)
    rw [structuredEntries_cons, structuredValue_eq_mapM, structuredEntries_eq_mapM container rest,
      tips, List.mapM_append, List.mapM_map, hbelow]

end

/-- The code of a list of tips. -/
def tipsCode (container : String) (list : List Tip) : Except GenerationError String :=
  (list.mapM (assign (accessTarget container))).map renderLines

/-- Structured code is the code of the tips of a tree. -/
theorem structured_eq_tipsCode (container : String) (tree : Tree) :
    structured container tree = tipsCode container (tips tree) := by
  rw [structured, tipsCode, structuredEntries_eq_mapM]

/-! ### Reading tips back -/

/-- A tip that can be told from its assignment: quoted keys lead to a plain leaf or to an empty
tree. -/
structure PlainTip (tip : Tip) : Prop where
  quoted : ∀ key ∈ tip.1, key.isLiteral = false
  plain : IsPlain tip.2
  ending : (∃ s, tip.2 = .scalar s) ∨ tip.2 = .tree []

/-- The assignment of a plain tip. -/
def plainAssignment (container : String) (tip : Tip) : Assignment :=
  ⟨accessTarget container tip.1, plainCode tip.2⟩

/-- Plain tips have code, one assignment each. -/
theorem tipsCode_of_plain (container : String) {list : List Tip} (h : ∀ tip ∈ list, PlainTip tip) :
    tipsCode container list = .ok (renderLines (list.map (plainAssignment container))) := by
  have hmap : list.mapM (assign (accessTarget container))
      = .ok (list.map (plainAssignment container)) := by
    refine mapM_eq_ok fun tip ht ↦ ?_
    rw [assign, valueCode_of_isPlain _ (h tip ht).plain]
    rfl
  rw [tipsCode, hmap]
  rfl

private theorem readStatements_of_tipsCode {container text : String} {list : List Tip}
    (h : ∀ tip ∈ list, PlainTip tip) (htext : tipsCode container list = .ok text) :
    readStatements (readAccess container) text.toList = some list := by
  rw [tipsCode_of_plain container h] at htext
  rw [← Except.ok.inj htext]
  apply readStatements_renderLines
  intro tip ht rest
  have htip := h tip ht
  exact readStatement_render (readsBack_accessTarget container htip.quoted) htip.plain
    htip.ending rest

/-! ### Building the tree again -/

/-- A tree with distinct quoted keys and plain leaves. -/
structure Plain (tree : Tree) : Prop where
  wellKeyed : Tree.WellKeyed tree
  quoted : Tree.Everywhere (fun t ↦ ∀ key ∈ Entries.keys t, key.isLiteral = false) tree
  plain : Tree.Everywhere (fun t ↦ ∀ entry ∈ t, IsPlain entry.2) tree

private theorem Plain.plainTip {tree : Tree} (h : Plain tree) {tip : Tip} (ht : tip ∈ tips tree) :
    PlainTip tip where
  quoted := Tree.forall_mem_path_of_everywhere h.quoted ht
  plain := Tree.value_of_everywhere h.plain ht
  ending := Tree.value_of_mem_tips ht

/-- Every plain tree has structured code. The code is read back as the tips of the tree, no other
plain tips have it, and replaying them on nothing builds the tree again in its order; so no other
plain tree has the same code. -/
theorem structured_read_back {tree : Tree} (h : Plain tree) (container : String) :
    ∃ text, (Generator.structured container).generate tree = .ok text ∧
      readStatements (readAccess container) text.toList = some (tips tree) ∧
      (∀ list : List Tip, (∀ tip ∈ list, PlainTip tip) → tipsCode container list = .ok text →
        list = tips tree) ∧
      Tree.replay (tips tree) [] = some tree ∧
      ∀ other : Tree, Plain other → (Generator.structured container).generate other = .ok text →
        other = tree := by
  have hplain : ∀ tip ∈ tips tree, PlainTip tip := fun _ ht ↦ h.plainTip ht
  have hcode := tipsCode_of_plain container hplain
  have hread := readStatements_of_tipsCode hplain hcode
  have hreplay := Tree.replay_tips h.wellKeyed
  have hunique : ∀ list : List Tip, (∀ tip ∈ list, PlainTip tip) →
      tipsCode container list = .ok (renderLines ((tips tree).map (plainAssignment container))) →
      list = tips tree := by
    intro list hlist hsame
    exact Option.some.inj ((readStatements_of_tipsCode hlist hsame).symm.trans hread)
  refine ⟨_, (structured_eq_tipsCode container tree).trans hcode, hread, hunique, hreplay, ?_⟩
  intro other hother hsame
  have htips := hunique (tips other) (fun _ ht ↦ hother.plainTip ht)
    ((structured_eq_tipsCode container other).symm.trans hsame)
  have hagain := Tree.replay_tips hother.wellKeyed
  rw [htips] at hagain
  exact Option.some.inj (hagain.symm.trans hreplay)

/-- A tree whose keys and texts look like code, with an empty branch and integers at both ends of
their ranges. -/
def codeLike : Tree :=
  [(.quoted "it's \"$x\" \\];\n = ", .tree
      [(.quoted "", .scalar (.text (.quoted "\\';\n$config[\"a\"] = 'b';\n"))),
        (.quoted "empty", .tree [])]),
    (.quoted "low", .scalar (.integer (-9223372036854775808))),
    (.quoted "high", .scalar (.unsigned 18446744073709551615)),
    (.quoted "null", .scalar .null)]

/-- Texts that look like code are read back, and the order of keys shows in the code. -/
theorem structured_read_back_codeLike :
    Plain codeLike ∧ Plain codeLike.reverse ∧
      ∃ text, (Generator.structured defaultContainer).generate codeLike = .ok text ∧
        readStatements (readAccess defaultContainer) text.toList = some (tips codeLike) ∧
        Tree.replay (tips codeLike) [] = some codeLike ∧
        (Generator.structured defaultContainer).generate codeLike.reverse ≠ .ok text := by
  have h : Plain codeLike := ⟨by decide, by decide, by decide⟩
  have hreverse : Plain codeLike.reverse := ⟨by decide, by decide, by decide⟩
  obtain ⟨text, hcode, hread, -, hreplay, hunique⟩ := structured_read_back h defaultContainer
  refine ⟨h, hreverse, text, hcode, hread, hreplay, ?_⟩
  intro hsame
  exact absurd (hunique _ hreverse hsame) (by decide)

end LayeredConfig.Code

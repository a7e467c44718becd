import LayeredConfig.CommandLine.Run
import LayeredConfig.Proofs.Document.Merging
import LayeredConfig.Proofs.Document.Spelling

/-!
# The choice of the sigil

The sigil decides which texts of a document are literal, so that one document gives different trees
under different sigils. They are spelled alike: each step of a conversion, and each document that is
merged, takes trees that are spelled alike to trees that are. So what is read is written the same
under any two sigils that no number or truth value begins with.
-/

namespace LayeredConfig

namespace Document

variable {first second : Char}

/-! ### Conversion -/

private theorem convertKey_spelled (first second : Char) : ∀ key : Yaml.Value,
    (convertKey first key).map (Text.spelled first)
      = (convertKey second key).map (Text.spelled second)
  | .string s => by simp [convertKey, Except.map]
  | .number n => rfl
  | .bool b => rfl
  | .null => rfl
  | .tagged _ value => by
    rw [convertKey, convertKey]
    exact convertKey_spelled first second value
  | .sequence _ => rfl
  | .mapping _ => rfl

private theorem map_tree_spelled {ε : Type} (sigil : Char) (result : Except ε Tree) :
    (result.map Value.tree).map (Value.spelled sigil)
      = (result.map (Tree.spelled sigil)).map Value.tree := by
  cases result <;> rfl

mutual

/-- A value is spelled the same under any two sigils that no number or truth value begins with. -/
theorem convert_spelled (hfirst : ¬ Lead first) (hsecond : ¬ Lead second) : ∀ value : Yaml.Value,
    (convert first value).map (Value.spelled first)
      = (convert second value).map (Value.spelled second)
  | .null => rfl
  | .bool _ => rfl
  | .number n => by simp [convert, Except.map, Value.spelled]
  | .string s => by simp [convert, Except.map, Value.spelled, Scalar.spelled]
  | .sequence items => by
    rw [convert, convert, map_tree_spelled, map_tree_spelled,
      convertItems_spelled hfirst hsecond items 0 Tree.settled_nil Tree.settled_nil rfl]
  | .mapping pairs => by
    rw [convert, convert, map_tree_spelled, map_tree_spelled,
      convertPairs_spelled hfirst hsecond pairs Tree.settled_nil Tree.settled_nil rfl]
  | .tagged _ value => by
    rw [convert, convert]
    exact convert_spelled hfirst hsecond value

/-- The items of a sequence are added alike to trees that are spelled alike. -/
theorem convertItems_spelled (hfirst : ¬ Lead first) (hsecond : ¬ Lead second) :
    ∀ (items : List Yaml.Value) {tree tree' : Tree} (index : Nat), tree.Settled first →
      tree'.Settled second → Tree.spelled first tree = Tree.spelled second tree' →
      (convertItems first tree index items).map (Tree.spelled first)
        = (convertItems second tree' index items).map (Tree.spelled second)
  | [], _, _, _, _, _, htree => congrArg Except.ok htree
  | item :: rest, tree, tree', index, hsettled, hsettled', htree => by
    rw [convertItems, convertItems]
    rcases map_eq_map_iff.mp (convert_spelled hfirst hsecond item) with
      ⟨fault, h, h'⟩ | ⟨value, value', h, h', hvalue⟩
    · rw [h, h']
      rfl
    · have hindex := settled_itemNumber hfirst index
      have hindex' := settled_itemNumber hsecond index
      rw [h, h']
      refine convertItems_spelled hfirst hsecond rest (index + 1)
        (hsettled.alter hindex (settled_convert hfirst h))
        (hsettled'.alter hindex' (settled_convert hsecond h')) ?_
      rw [Tree.spelled_insert hsettled.2 hindex, Tree.spelled_insert hsettled'.2 hindex', htree,
        hvalue]
      rfl

/-- The pairs of a mapping are added alike to trees that are spelled alike. -/
theorem convertPairs_spelled (hfirst : ¬ Lead first) (hsecond : ¬ Lead second) :
    ∀ (pairs : List (Yaml.Value × Yaml.Value)) {tree tree' : Tree}, tree.Settled first →
      tree'.Settled second → Tree.spelled first tree = Tree.spelled second tree' →
      (convertPairs first tree pairs).map (Tree.spelled first)
        = (convertPairs second tree' pairs).map (Tree.spelled second)
  | [], _, _, _, _, htree => congrArg Except.ok htree
  | (key, item) :: rest, tree, tree', hsettled, hsettled', htree => by
    rw [convertPairs, convertPairs]
    rcases map_eq_map_iff.mp (convertKey_spelled first second key) with
      ⟨fault, hk, hk'⟩ | ⟨text, text', hk, hk', htext⟩
    · rw [hk, hk']
      rfl
    rcases map_eq_map_iff.mp (convert_spelled hfirst hsecond item) with
      ⟨fault, h, h'⟩ | ⟨value, value', h, h', hvalue⟩
    · rw [hk, hk', h, h']
      rfl
    · have hkey := settled_convertKey hfirst hk
      have hkey' := settled_convertKey hsecond hk'
      rw [hk, hk', h, h']
      refine convertPairs_spelled hfirst hsecond rest
        (hsettled.alter hkey (settled_convert hfirst h))
        (hsettled'.alter hkey' (settled_convert hsecond h')) ?_
      rw [Tree.spelled_insert hsettled.2 hkey, Tree.spelled_insert hsettled'.2 hkey', htree,
        htext, hvalue]

end

/-! ### Loading -/

private theorem settled_rootTree {sigil : Char} (hsigil : ¬ Lead sigil) {origin : Path}
    {value : Yaml.Value} {tree : Tree} (h : rootTree sigil origin value = .ok tree) :
    tree.Settled sigil := by
  cases value with
  | null =>
    cases h
    exact Tree.settled_nil
  | sequence items => exact settled_convertItems hsigil Tree.settled_nil (mapError_eq_ok_iff.mp h)
  | mapping pairs => exact settled_convertPairs hsigil Tree.settled_nil (mapError_eq_ok_iff.mp h)
  | _ => cases h

private theorem rootTree_spelled (hfirst : ¬ Lead first) (hsecond : ¬ Lead second) (origin : Path)
    (value : Yaml.Value) :
    (rootTree first origin value).map (Tree.spelled first)
      = (rootTree second origin value).map (Tree.spelled second) := by
  cases value with
  | sequence items =>
    rw [rootTree, rootTree, map_mapError, map_mapError,
      convertItems_spelled hfirst hsecond items 0 Tree.settled_nil Tree.settled_nil rfl]
  | mapping pairs =>
    rw [rootTree, rootTree, map_mapError, map_mapError,
      convertPairs_spelled hfirst hsecond pairs Tree.settled_nil Tree.settled_nil rfl]
  | _ => rfl

private theorem settled_read {sigil : Char} (hsigil : ¬ Lead sigil) {fs : FileSystem} {path : Path}
    {tree : Tree} (h : read fs sigil path = .ok tree) : tree.Settled sigil := by
  obtain ⟨value, hroot⟩ := exists_rootTree_of_read h
  exact settled_rootTree hsigil hroot

private theorem read_spelled (hfirst : ¬ Lead first) (hsecond : ¬ Lead second) (fs : FileSystem)
    (path : Path) :
    (read fs first path).map (Tree.spelled first)
      = (read fs second path).map (Tree.spelled second) := by
  rw [read, read]
  cases fs.readText path with
  | error trouble => rfl
  | ok text =>
    simp only [parse]
    split
    · rfl
    · cases Yaml.read text with
      | error fault => rfl
      | ok value => exact rootTree_spelled hfirst hsecond path value

private theorem mergeInto_spelled (hfirst : ¬ Lead first) (hsecond : ¬ Lead second)
    (fs : FileSystem)
    (paths : List Path) {base base' : Tree} (hsettled : base.Settled first)
    (hsettled' : base'.Settled second)
    (hbase : Tree.spelled first base = Tree.spelled second base') :
    (mergeInto fs first base paths).opened = (mergeInto fs second base' paths).opened ∧
      (mergeInto fs first base paths).result.map (Tree.spelled first)
        = (mergeInto fs second base' paths).result.map (Tree.spelled second) := by
  induction paths generalizing base base' with
  | nil => exact ⟨rfl, congrArg Except.ok hbase⟩
  | cons path rest ih =>
    rw [mergeInto, mergeInto]
    rcases map_eq_map_iff.mp (read_spelled hfirst hsecond fs path) with
      ⟨fault, h, h'⟩ | ⟨tree, tree', h, h', hspelled⟩
    · rw [h, h']
      exact ⟨rfl, rfl⟩
    · have htree := settled_read hfirst h
      have htree' := settled_read hsecond h'
      rw [h, h']
      obtain ⟨hopened, hresult⟩ := ih (hsettled.merge htree.2) (hsettled'.merge htree'.2) (by
        rw [Tree.spelled_merge hsettled htree.2, Tree.spelled_merge hsettled' htree'.2, hbase,
          hspelled])
      exact ⟨congrArg (path :: ·) hopened, hresult⟩

private theorem load_toJson (hfirst : ¬ Lead first) (hsecond : ¬ Lead second) (fs : FileSystem)
    (sources : List Reference) :
    (load fs first sources).opened = (load fs second sources).opened ∧
      (load fs first sources).result.map (Merged.toJson first)
        = (load fs second sources).result.map (Merged.toJson second) := by
  obtain ⟨hopened, hresult⟩ := mergeInto_spelled hfirst hsecond fs (sources.map Reference.path)
    Tree.settled_nil Tree.settled_nil rfl
  refine ⟨hopened, ?_⟩
  rw [load, load]
  rcases map_eq_map_iff.mp hresult with ⟨fault, h, h'⟩ | ⟨tree, tree', h, h', hspelled⟩
  · rw [h, h']
    rfl
  · have hmembers := Tree.toMembers_of_spelled hspelled
    rw [h, h']
    simp only [Except.map, Merged.toJson, Tree.toJson, hmembers]

end Document

open Document CommandLine

/-- **The choice of the sigil never shows in what is read.** Under any two sigils that no number or
truth value begins with, converting values and merging them in order fails alike or gives the same
written data, and reading documents ends alike: with the same report, or with the same output. -/
theorem Document.toJson_eq_of_not_lead {first second : Char} (hfirst : ¬ Lead first)
    (hsecond : ¬ Lead second) :
    (∀ values : List Yaml.Value,
      (values.mapM (convert first)).map
          (fun converted ↦ (Value.mergeAll .empty converted).toJson first)
        = (values.mapM (convert second)).map
          fun converted ↦ (Value.mergeAll .empty converted).toJson second) ∧
      ∀ (settings : Settings) (fs : FileSystem) (identifiers : List String) (root : Option Path),
        Command.run { settings with sigil := first } fs (.read identifiers root)
          = Command.run { settings with sigil := second } fs (.read identifiers root) := by
  have hempty (sigil : Char) : Value.empty.Settled sigil := Tree.settled_nil
  constructor
  · intro values
    rcases map_eq_map_iff.mp (mapM_map_congr (convert_spelled hfirst hsecond) values) with
      ⟨fault, h, h'⟩ | ⟨converted, converted', h, h', hspelled⟩
    · rw [h, h']
      rfl
    · rw [h, h']
      refine congrArg Except.ok (Value.toJson_of_spelled ?_)
      have hsettled := forall_mem_of_mapM_eq_ok (fun _ _ ↦ settled_convert hfirst) h
      have hsettled' := forall_mem_of_mapM_eq_ok (fun _ _ ↦ settled_convert hsecond) h'
      rw [Value.spelled_mergeAll (hempty first) hsettled,
        Value.spelled_mergeAll (hempty second) hsettled', hspelled]
      rfl
  · intro settings fs identifiers root
    simp only [Command.run, withRoot, Settings.read]
    cases Reference.resolveAll fs (root.getD settings.root) identifiers with
    | error fault => rfl
    | ok sources =>
      have hresult := (load_toJson hfirst hsecond fs sources).2
      rcases map_eq_map_iff.mp hresult with ⟨fault, h, h'⟩ | ⟨merged, merged', h, h', hjson⟩
      · simp only [h, h']
      · simp only [h, h', hjson]

/-- Two documents with keys and texts that begin with one of two sigils, or with none. -/
def markedEitherWay : List Yaml.Value :=
  [.mapping [(.string "≈k", .string "$v"), (.string "k", .number (.unsigned 1)),
      (.string "$k", .string "≈")],
    .mapping [(.string "k", .sequence [.string "$x"]), (.string "≈k", .null)]]

/-- A file system with a document of such keys. -/
def markedDocument : FileSystem :=
  { nodes := [(["app.yaml"], .file "≈k: $v\nk: 1\n$k: ≈\n".toUTF8)]
    workingDirectory := []
    distinct := by decide
    enclosed := by simp }

/-- Under either sigil two of the three keys stay apart from the one that is marked. -/
theorem Document.toJson_eq_of_not_lead_markedEitherWay :
    (markedEitherWay.mapM (convert '$')).map
        (fun converted ↦ (Value.mergeAll .empty converted).toJson '$')
      = .ok (.object [("≈k", .null), ("k", .object [("0", .string "$x")]),
          ("$k", .string "≈")]) ∧
      (Command.run { sigil := '$' } markedDocument (.read ["app"] none)).output
        = (Command.run { sigil := '≈' } markedDocument (.read ["app"] none)).output ∧
      (Command.run { sigil := '$' } markedDocument (.read ["app"] none)).exitCode = 0 := by
  have hdollar : ¬ Lead '$' := by simp [Lead, Yaml.Number.Lead]
  have hdefault : ¬ Lead '≈' := by simp [Lead, Yaml.Number.Lead]
  obtain ⟨hwritten, hrun⟩ := toJson_eq_of_not_lead hdollar hdefault
  have hsame := hrun {} markedDocument ["app"] none
  refine ⟨(hwritten markedEitherWay).trans rfl, congrArg Outcome.output hsame, ?_⟩
  exact (congrArg Outcome.exitCode hsame).trans (by decide +kernel)

end LayeredConfig

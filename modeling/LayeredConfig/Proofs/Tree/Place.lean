import LayeredConfig.Proofs.Tree.Tips
import LayeredConfig.Tree.Flatten

/-!
# Values at paths

A value is put at a path of keys below a slot of a tree, and looked up there. Looking up the path
gives the value back; a path that is no prefix of it nor extends it is left alone, and two such
paths can be written in either order once one of them is occupied.
-/

namespace LayeredConfig.Tree

/-- The entries below a key that holds a tree. -/
@[simp] theorem branchOf_tree (tree : Tree) : branchOf (some (.tree tree)) = tree := rfl

/-- A leaf has no entries below it. -/
@[simp] theorem branchOf_scalar (s : Scalar) : branchOf (some (.scalar s)) = [] := rfl

/-- A missing key has no entries below it. -/
@[simp] theorem branchOf_none : branchOf none = [] := rfl

/-- The value of a slot after another value is put at a path below it. -/
def put (value : Value) : List Text → Option Value → Value
  | [], _ => value
  | key :: path, old => .tree (Entries.alter key (put value path) (branchOf old))

/-- What lies at a path below a slot. -/
def get : List Text → Option Value → Option Value
  | [], slot => slot
  | key :: path, slot => get path (Entries.find? key (branchOf slot))

/-- A tree after a value is put at a path of at least one key. -/
def place (value : Value) : List Text → Tree → Tree
  | [], tree => tree
  | key :: path, tree => Entries.alter key (put value path) tree

/-- Storing at the segments of a dot path is putting at a path of keys. -/
theorem insertPath_eq_place (head : Text) (rest : List String) (value : Value) (tree : Tree) :
    insertPath head rest value tree = place value (head :: rest.map .quoted) tree := by
  induction rest generalizing head tree with
  | nil => simp [insertPath, place, Entries.insert, put]
  | cons next tail ih =>
    simp only [insertPath, place, List.map_cons]
    congr 1
    funext old
    rw [ih]
    rfl

/-- Whether neither of two paths is a prefix of the other. -/
def Apart (path other : List Text) : Prop := ¬ path <+: other ∧ ¬ other <+: path

/-- Being apart does not depend on the order. -/
theorem Apart.symm {path other : List Text} (h : Apart path other) : Apart other path := ⟨h.2, h.1⟩

/-- Paths over the same key are apart when they are apart behind it. -/
theorem apart_cons_cons (key other : Text) (path path' : List Text) :
    Apart (key :: path) (other :: path') ↔ (key = other → Apart path path') := by
  simp only [Apart, List.cons_prefix_cons]
  by_cases h : key = other
  · simp [h]
  · simp [h, Ne.symm h]

/-- No path is apart from the empty one. -/
theorem not_apart_nil (path : List Text) : ¬ Apart [] path := by simp [Apart]

/-- A path that is apart from another one has a key. -/
theorem Apart.ne_nil {path other : List Text} (h : Apart path other) : path ≠ [] := by
  rintro rfl
  exact not_apart_nil other h

/-- Nothing lies below an empty slot. -/
theorem get_none (path : List Text) : get path none = none := by
  induction path with
  | nil => rfl
  | cons key path ih => simpa [get, Entries.find?] using ih

private theorem isSome_of_isSome_get {path : List Text} {slot : Option Value}
    (h : (get path slot).isSome) : slot.isSome := by
  cases slot with
  | none => simp [get_none] at h
  | some value => rfl

/-- Nothing lies below a leaf. -/
theorem get_cons_scalar (key : Text) (path : List Text) (s : Scalar) :
    get (key :: path) (some (.scalar s)) = none := by
  simp [get, Entries.find?, get_none]

/-- Nothing lies below an empty tree. -/
theorem get_cons_empty (key : Text) (path : List Text) :
    get (key :: path) (some (.tree [])) = none := by
  simp [get, Entries.find?, get_none]

/-- Looking up a longer path goes on from where the shorter one leads. -/
theorem get_append (path more : List Text) (slot : Option Value) :
    get (path ++ more) slot = get more (get path slot) := by
  induction path generalizing slot with
  | nil => rfl
  | cons key path ih => exact ih _

/-- On the way to where a value was put, what lies there has the value put below it. -/
theorem get_put_append (value : Value) (path more : List Text) (old : Option Value) :
    get path (some (put value (path ++ more) old)) = some (put value more (get path old)) := by
  induction path generalizing old with
  | nil => rfl
  | cons key path ih => simp [get, put, Entries.find?_alter_self, ih]

/-- A value that was put at a path lies there. -/
theorem get_put_self (value : Value) (path : List Text) (old : Option Value) :
    get path (some (put value path old)) = some value := by
  have h := get_put_append value path [] old
  rwa [List.append_nil] at h

/-- Putting a value leaves every path apart from it alone. -/
theorem get_put_of_apart (value : Value) {path other : List Text} (old : Option Value)
    (h : Apart path other) : get other (some (put value path old)) = get other old := by
  induction path generalizing other old with
  | nil => exact absurd h (not_apart_nil other)
  | cons key path ih =>
    cases other with
    | nil => exact absurd h.symm (not_apart_nil _)
    | cons key' other =>
      simp only [get, put, branchOf_tree]
      by_cases hk : key' = key
      · subst hk
        rw [Entries.find?_alter_self, ih _ ((apart_cons_cons _ _ _ _).mp h rfl)]
      · rw [Entries.find?_alter_of_ne _ _ hk]

private theorem put_put_self (first second : Value) (path : List Text) (old : Option Value) :
    put second path (some (put first path old)) = put second path old := by
  induction path generalizing old with
  | nil => rfl
  | cons key path ih => simp [put, Entries.alter_alter, ih]

private theorem put_comm (value value' : Value) {path other : List Text} (old : Option Value)
    (h : Apart path other) (hold : (get path old).isSome) :
    put value path (some (put value' other old))
      = put value' other (some (put value path old)) := by
  induction path generalizing other old with
  | nil => exact absurd h (not_apart_nil other)
  | cons key path ih =>
    cases other with
    | nil => exact absurd h.symm (not_apart_nil _)
    | cons key' other =>
      simp only [get] at hold
      simp only [put, branchOf_tree, Value.tree.injEq]
      by_cases hk : key' = key
      · subst hk
        rw [Entries.alter_alter, Entries.alter_alter]
        exact Entries.alter_congr _ _ (ih _ ((apart_cons_cons _ _ _ _).mp h rfl) hold)
      · have hmem : key ∈ Entries.keys (branchOf old) :=
          (Entries.isSome_find?_iff _ _).mp (isSome_of_isSome_get hold)
        exact Entries.alter_comm _ _ _ hk hmem

/-- Placing in a tree is putting below the slot that holds it. -/
theorem put_tree (value : Value) {path : List Text} (tree : Tree) (h : path ≠ []) :
    put value path (some (.tree tree)) = .tree (place value path tree) := by
  cases path with
  | nil => exact absurd rfl h
  | cons key path => rfl

/-- The later of two values placed at one path stays. -/
theorem place_place_self (first second : Value) (path : List Text) (tree : Tree) :
    place second path (place first path tree) = place second path tree := by
  cases path with
  | nil => rfl
  | cons key path =>
    simp only [place, Entries.alter_alter, put_put_self]

/-- Whether something lies at a path in a tree. -/
def Occupied (path : List Text) (tree : Tree) : Prop := (get path (some (.tree tree))).isSome

/-- The path at which a value is placed is occupied. -/
theorem occupied_place_self (value : Value) {path : List Text} (tree : Tree) (h : path ≠ []) :
    Occupied path (place value path tree) := by
  rw [Occupied, ← put_tree value tree h, get_put_self]
  rfl

/-- Placing a value keeps the paths apart from it occupied. -/
theorem occupied_place_of_apart (value : Value) {path other : List Text} {tree : Tree}
    (h : Apart path other) (hold : Occupied other tree) :
    Occupied other (place value path tree) := by
  rw [Occupied, ← put_tree value tree h.ne_nil, get_put_of_apart value _ h]
  exact hold

/-- Values can be placed at paths apart in either order when one of the paths is occupied. -/
theorem place_comm (value value' : Value) {path other : List Text} {tree : Tree}
    (h : Apart path other) (hold : Occupied path tree) :
    place value path (place value' other tree) = place value' other (place value path tree) := by
  have hpath := h.ne_nil
  have hother := h.symm.ne_nil
  have hput := put_comm value value' (some (.tree tree)) h hold
  rw [put_tree _ _ hother, put_tree _ _ hpath, put_tree _ _ hpath, put_tree _ _ hother] at hput
  exact Value.tree.inj hput

end LayeredConfig.Tree

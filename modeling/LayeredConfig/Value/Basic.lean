import LayeredConfig.Binary64.Basic
import LayeredConfig.Entries

/-!
# Configuration values

A value is a scalar leaf or a tree, and a tree is a list of keyed values in insertion order. The
same key text may occur twice in one tree, once quoted and once literal. `Value.same` is the
comparison of configurations: it ignores the order of keys and compares numbers numerically.
-/

namespace LayeredConfig

/-- A leaf of a configuration. `unsigned` holds the integers beyond the signed range. -/
inductive Scalar where
  | null
  | bool (b : Bool)
  | integer (n : Int64)
  | unsigned (n : UInt64)
  | float (x : Binary64)
  | text (t : Text)
deriving DecidableEq, Repr, Inhabited

/-- A node of a configuration: a leaf, or keyed values in insertion order. -/
inductive Value where
  | scalar (s : Scalar)
  | tree (entries : List (Text × Value))
deriving Repr, Inhabited

/-- The keyed values of a mapping in insertion order. -/
abbrev Tree := List (Text × Value)

namespace Scalar

/-- The scalar of an unsigned integer: `integer` when it fits the signed range. -/
def ofUnsigned (n : UInt64) : Scalar :=
  if n.toNat < 0x8000000000000000 then integer n.toInt64 else unsigned n

/-- Equality of leaves: numbers compare numerically, and kinds are never mixed. -/
def same : Scalar → Scalar → Bool
  | float x, float y => x.same y
  | s, t => s = t

end Scalar

namespace Value

/-- The empty tree, from which merging starts. -/
def empty : Value := tree []

/-- Whether the value is a tree. -/
def isTree : Value → Bool
  | scalar _ => false
  | tree _ => true

/-- The entries of a tree; `none` for a leaf. -/
def tree? : Value → Option Tree
  | scalar _ => none
  | tree entries => some entries

/-- A quoted string leaf. -/
def ofString (s : String) : Value := scalar (.text (.quoted s))

/-- A literal leaf, emitted verbatim. -/
def ofLiteral (code : String) : Value := scalar (.text (.literal code))

end Value

namespace Tree

/-- The first entry whose key has the given bare text, whatever its mark. -/
def lookup (bare : String) : Tree → Option Value
  | [] => none
  | (key, value) :: rest => if key.bare = bare then some value else lookup bare rest

mutual

/-- The number of leaves of a value. -/
def valueLeafCount : Value → Nat
  | .scalar _ => 1
  | .tree entries => leafCount entries

/-- The number of leaves anywhere in a tree. -/
def leafCount : List (Text × Value) → Nat
  | [] => 0
  | (_, value) :: rest => valueLeafCount value + leafCount rest

end

end Tree

namespace Value

/-- A direct child by the bare text of its key. -/
def get? (bare : String) (value : Value) : Option Value := value.tree?.bind (Tree.lookup bare)

mutual

/-- Equality of configurations: key order is ignored, marks count, numbers compare numerically. -/
def same : Value → Value → Bool
  | .scalar s, .scalar t => s.same t
  | .tree a, .tree b => a.length == b.length && within a b
  | _, _ => false

/-- Whether every entry of the first tree has its equal in the second. -/
def within : List (Text × Value) → Tree → Bool
  | [], _ => true
  | (key, value) :: rest, other =>
    (match Entries.find? key other with
      | some held => same value held
      | none => false) && within rest other

end

mutual

/-- Decides whether two values are identical, the order of keys included. -/
def decEq : (a b : Value) → Decidable (a = b)
  | .scalar s, .scalar t =>
    if h : s = t then isTrue (congrArg Value.scalar h)
    else isFalse fun e ↦ h (Value.scalar.inj e)
  | .tree a, .tree b =>
    match decEqEntries a b with
    | isTrue h => isTrue (congrArg Value.tree h)
    | isFalse h => isFalse fun e ↦ h (Value.tree.inj e)
  | .scalar _, .tree _ => isFalse nofun
  | .tree _, .scalar _ => isFalse nofun

/-- Decides whether two trees are identical, the order of keys included. -/
def decEqEntries : (a b : List (Text × Value)) → Decidable (a = b)
  | [], [] => isTrue rfl
  | [], _ :: _ => isFalse nofun
  | _ :: _, [] => isFalse nofun
  | (j, v) :: a, (k, w) :: b =>
    if hk : j = k then
      match decEq v w, decEqEntries a b with
      | isTrue hv, isTrue hr => isTrue (by rw [hk, hv, hr])
      | isFalse hv, _ => isFalse fun e ↦ hv (Prod.mk.inj (List.cons.inj e).1).2
      | _, isFalse hr => isFalse fun e ↦ hr (List.cons.inj e).2
    else isFalse fun e ↦ hk (Prod.mk.inj (List.cons.inj e).1).1

end

instance : DecidableEq Value := decEq

end Value

end LayeredConfig

import LayeredConfig.Binary64.Layout
import LayeredConfig.Yaml.Fault

/-!
# YAML values

A value is a scalar, a sequence, a mapping whose keys are values, or a value under a local tag.
Keys of one mapping are different under `sameKey`, which ignores the order of mappings and an
exclamation mark that begins a tag, and holds every not-a-number for one key.
-/

namespace LayeredConfig.Yaml

/-- A number: not negative, negative, or with a fraction. -/
inductive Number where
  | unsigned (n : UInt64)
  | negative (n : Int64)
  | float (x : Binary64)
deriving DecidableEq, Repr, Inhabited

namespace Number

/-- The number of an integer, when it fits sixty-four bits. -/
def ofInt? (n : Int) : Option Number :=
  if 0 ≤ n then
    if n < 0x10000000000000000 then some (unsigned (UInt64.ofNat n.toNat)) else none
  else if -0x8000000000000000 ≤ n then some (negative (Int64.ofInt n)) else none

/-- Equality of numbers as keys. -/
def sameKey : Number → Number → Bool
  | float x, float y => x.sameKey y
  | m, n => m = n

/-- The text of a number as it stands in a key. -/
def text : Number → String
  | unsigned n => toString n.toNat
  | negative n => toString n.toInt
  | float x =>
    if x.isNaN then ".nan"
    else if !x.isFinite then if x.isNegative then "-.inf" else ".inf"
    else String.ofList (Binary64.Layout.key.write x)

end Number

/-- A YAML value. -/
inductive Value where
  | null
  | bool (b : Bool)
  | number (n : Number)
  | string (s : String)
  | sequence (items : List Value)
  | mapping (pairs : List (Value × Value))
  | tagged (tag : String) (value : Value)
deriving Repr, Inhabited

/-- The text of a tag without the exclamation mark that begins it, unless that is all there is. -/
def bareTag (tag : String) : String :=
  match tag.toList with
  | '!' :: c :: rest => String.ofList (c :: rest)
  | _ => tag

namespace Value

mutual

/-- Equality of keys. -/
def sameKey : Value → Value → Bool
  | null, null => true
  | bool a, bool b => a == b
  | number m, number n => m.sameKey n
  | string s, string t => s == t
  | sequence items, sequence others => sameItems items others
  | mapping pairs, mapping others => pairs.length == others.length && samePairs pairs others
  | tagged t v, tagged u w => bareTag t == bareTag u && sameKey v w
  | _, _ => false

/-- Equality of the items of two sequences, place by place. -/
def sameItems : List Value → List Value → Bool
  | [], [] => true
  | v :: items, w :: others => sameKey v w && sameItems items others
  | _, _ => false

/-- Whether every pair of one mapping has its equal in another. -/
def samePairs : List (Value × Value) → List (Value × Value) → Bool
  | [], _ => true
  | (key, value) :: rest, others =>
    others.any (fun (k, v) ↦ sameKey key k && sameKey value v) && samePairs rest others

end

end Value

end LayeredConfig.Yaml

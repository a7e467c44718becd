import LayeredConfig.Binary64.Basic

/-!
# TOML values

A document is a table. A table remembers how it came to be, because that decides which later lines
may still add to it.
-/

namespace LayeredConfig.Toml

/-- Why a text is not a usable TOML document. -/
inductive Fault where
  /-- The text does not follow the grammar. -/
  | malformed
  /-- A number or a date that does not exist. -/
  | outOfRange
  /-- A key or table that is defined already. -/
  | duplicate
  /-- Values nested too deeply, or a key of too many parts. -/
  | nestingTooDeep
  /-- A value that has not the form that was asked for. -/
  | wrongForm
deriving DecidableEq, Repr

/-- The wording of a fault. -/
def Fault.message : Fault → String
  | .malformed => "TOML parse error"
  | .outOfRange => "value is out of range"
  | .duplicate => "duplicate key"
  | .nestingTooDeep => "recursion limit exceeded"
  | .wrongForm => "invalid type or value"

/-- How a table came to be. -/
inductive Origin where
  /-- A header names it. -/
  | header
  /-- A header below it implies it. -/
  | implied
  /-- A dotted key implies it. -/
  | dotted
  /-- It was written between braces, and nothing can be added. -/
  | inline
deriving DecidableEq, Repr

/-- A TOML value. `moment` is a date, a time or both; `tables` are the tables of an array header. -/
inductive Value where
  | string (s : String)
  | integer (n : Int)
  | float (x : Binary64)
  | bool (b : Bool)
  | moment
  | array (items : List Value)
  | table (origin : Origin) (entries : List (String × Value))
  | tables (elements : List (List (String × Value)))
deriving Repr, Inhabited

/-- The keyed values of a table. -/
abbrev Table := List (String × Value)

/-- The value under a key. -/
def Table.find? (key : String) (table : Table) : Option Value :=
  (List.find? (fun entry ↦ entry.1 == key) table).map Prod.snd

/-- Replaces the value under a key, or adds it at the end. -/
def Table.set (key : String) (value : Value) : Table → Table
  | [] => [(key, value)]
  | (k, v) :: rest => if k = key then (k, value) :: rest else (k, v) :: Table.set key value rest

end LayeredConfig.Toml

/-!
# Tables

Values under keys, in the order in which the keys were first set.
-/

namespace Concatenative

/-- Keys with their values, in the order in which the keys were first set. -/
structure Table (κ ν : Type) where
  bindings : List (κ × ν)

namespace Table

variable {κ ν : Type} [DecidableEq κ]

/-- No keys. -/
def empty : Table κ ν where
  bindings := []

/-- The keys of a table. -/
def keys (table : Table κ ν) : List κ :=
  table.bindings.map Prod.fst

/-- The values of a table, in the order of their keys. -/
def values (table : Table κ ν) : List ν :=
  table.bindings.map Prod.snd

/-- The value under a key, if there is one. -/
def get? (table : Table κ ν) (key : κ) : Option ν :=
  table.bindings.lookup key

/-- Whether there is a value under a key. -/
def contains (table : Table κ ν) (key : κ) : Bool :=
  (table.get? key).isSome

/-- Changes the value under a key, if there is one. -/
def modify (table : Table κ ν) (key : κ) (change : ν → ν) : Table κ ν where
  bindings := table.bindings.map fun (present, value) =>
    (present, if present = key then change value else value)

/-- Puts a value under a key: behind all others, or in place of one that is there. -/
def set (table : Table κ ν) (key : κ) (value : ν) : Table κ ν :=
  if table.contains key then table.modify key fun _ => value
  else ⟨table.bindings ++ [(key, value)]⟩

end Table
end Concatenative

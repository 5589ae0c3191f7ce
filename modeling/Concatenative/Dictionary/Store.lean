import Concatenative.Dictionary.Table
import Concatenative.Value.Basic

/-!
# The store

The declared variables with their contents.
-/

namespace Concatenative

/-- The contents of variables under their names, in order of declaration. -/
abbrev Store := Table String Value

namespace Store

/-- Declares a variable; one that is declared already keeps its content. -/
def declare (store : Store) (name : String) : Store :=
  if store.contains name then store else ⟨store.bindings ++ [(name, .nil)]⟩

/-- Gives a declared variable a content. -/
def set (store : Store) (name : String) (content : Value) : Store :=
  store.modify name fun _ => content

/-- Forgets a variable. -/
def erase (store : Store) (name : String) : Store :=
  ⟨store.bindings.filter fun (declared, _) => declared != name⟩

/-- The variables in increasing order of their names. -/
def sorted (store : Store) : List (String × Value) :=
  store.bindings.mergeSort fun left right => left.1 ≤ right.1

end Store
end Concatenative

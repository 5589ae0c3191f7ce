import Concatenative.Proofs.Assignment
import Concatenative.Proofs.History
import Concatenative.Proofs.Listing
import Concatenative.Proofs.Recursion

/-!
# The catalogues of words and variables

The words are counted by their numbers, listed by their names and shown by their newest
layers, and a well-formed dictionary makes one of the three.  The variables are sorted as
pairs of a name and a content, and contents have no order; no two bindings have one name, so
none is needed.  Each listing thus holds every name once, in increasing order.
-/

namespace Concatenative

/-! ## Sorting by name -/

namespace Sorting

variable {α : Type}

variable {name : α → String} {items : List α}

end Sorting

/-! ## Distinct variables -/

namespace Store

variable {store : Store} {name : String}

/-- No two bindings have the same name. -/
def IsDistinct (store : Store) : Prop :=
  (store.bindings.map Prod.fst).Nodup

theorem IsDistinct.declare (distinct : store.IsDistinct) : (store.declare name).IsDistinct := by
  unfold Store.declare
  split
  · exact distinct
  · rename_i free
    rw [contains_iff] at free
    rw [IsDistinct, List.map_append, List.nodup_append]
    refine ⟨distinct, List.nodup_singleton _, fun declared present other single => ?_⟩
    obtain rfl := List.mem_singleton.mp single
    rintro rfl
    exact free present

theorem IsDistinct.erase (distinct : store.IsDistinct) : (store.erase name).IsDistinct :=
  distinct.sublist (List.filter_sublist.map _)

theorem map_fst_set (name : String) (content : Value) :
    (store.set name content).bindings.map Prod.fst = store.bindings.map Prod.fst := by
  rw [Store.set, Table.modify, List.map_map]
  rfl

theorem IsDistinct.setAll
    (distinct : store.IsDistinct)
    (assignments : List (String × Value)) :
    (store.setAll assignments).IsDistinct := by
  induction assignments generalizing store with
  | nil => exact distinct
  | cons assignment later inductionHypothesis =>
      apply inductionHypothesis
      rw [IsDistinct, map_fst_set]
      exact distinct

end Store

namespace Session

variable {session : Session}

end Session

/-! ## Words with their newest layers -/

namespace Word

variable {word : Word}

end Word

namespace Dictionary

variable {dictionary : Dictionary} {name text : String}

/-- No integer in the bodies of the words or in the variables is over the limit on numerals. -/
structure IsShort (dictionary : Dictionary) : Prop where
  bodies : ∀ word ∈ dictionary.words, ∀ body, some body ∈ word.layers →
    ∀ value ∈ body, value.IsShort
  contents : ∀ binding ∈ dictionary.store.bindings, binding.2.IsShort

instance : Decidable dictionary.IsShort :=
  decidable_of_iff
    ((∀ word ∈ dictionary.words, ∀ layer ∈ word.layers, ∀ body ∈ layer, ∀ value ∈ body,
        value.IsShort) ∧
      ∀ binding ∈ dictionary.store.bindings, binding.2.IsShort)
    ⟨fun short => ⟨fun word inWords body inLayers => short.1 word inWords _ inLayers body rfl,
        short.2⟩,
      fun short => ⟨fun word inWords _ inLayers body layer_eq =>
        short.bodies word inWords body (layer_eq ▸ inLayers), short.contents⟩⟩

/-! ## The names of the entries -/

end Dictionary

/-! ## What is printed -/

/-- A text with lines printed after it. -/
def printed (output : String) (lines : List String) : String :=
  lines.foldl (fun output line => output ++ line ++ "\n") output

namespace Primitive

variable {workspace : Workspace}

end Primitive

namespace Session

variable {session : Session}

end Session
end Concatenative

import Concatenative.Primitive.Basic
import Concatenative.Value.Display

/-!
# Entries of the dictionary

A compiled word has definition layers, stacked from the oldest to the newest.  A layer
without a body is pending: it is reserved, and the next definition of the word fills
it.  References are bound to layers, so a redefinition adds a layer and leaves the
older ones in place.
-/

namespace Concatenative

/-- A compiled word with its layers, oldest first. -/
structure Word where
  name : String
  layers : List (Option Body)

namespace Word

/-- The newest layer is reserved and has no body yet. -/
def isPending (word : Word) : Bool :=
  word.layers.getLast? matches some none

/-- The number of the newest layer. -/
def current (word : Word) : Nat :=
  word.layers.length - 1

/-- The body of a layer, if the layer exists and has one. -/
def body? (word : Word) : Int → Option Body
  | .ofNat layer => word.layers[layer]?.join
  | .negSucc _ => none

/-- The body of the newest layer, if it has one. -/
def latest? (word : Word) : Option Body :=
  word.layers.getLast?.join

/-- Fills the pending layer, or adds a layer if none is pending. -/
def define (word : Word) (body : Body) : Word :=
  if word.isPending then { word with layers := word.layers.dropLast ++ [some body] }
  else { word with layers := word.layers ++ [some body] }

/-- Adds a pending layer unless there is one. -/
def reserve (word : Word) : Word :=
  if word.isPending then word else { word with layers := word.layers ++ [none] }

end Word

/-- What can be done to a word. -/
inductive Revision where
  | define (body : Body)
  | reserve

/-- The word after a revision. -/
def Revision.apply : Revision → Word → Word
  | define body, word => word.define body
  | reserve, word => word.reserve

/-- What a name or a number stands for in the dictionary. -/
inductive Entry where
  | primitive (builtin : Primitive)
  | compiled (id : Nat) (word : Word)

namespace Entry

/-- The number of an entry. -/
def id : Entry → Int
  | primitive builtin => builtin.id
  | compiled id _ => id

/-- The name of an entry. -/
def name : Entry → String
  | primitive builtin => builtin.name
  | compiled _ word => word.name

/-- Whether an entry is a primitive. -/
def isPrimitive : Entry → Bool
  | primitive _ => true
  | compiled _ _ => false

/-- The layers of an entry; a primitive has none. -/
def layers : Entry → List (Option Body)
  | primitive _ => []
  | compiled _ word => word.layers

/-- Whether the newest layer of an entry is pending. -/
def isPending : Entry → Bool
  | primitive _ => false
  | compiled _ word => word.isPending

/-- The number of the newest layer of an entry. -/
def current : Entry → Nat
  | primitive _ => 0
  | compiled _ word => word.current

/-- The body of a layer of an entry. -/
def body? : Entry → Int → Option Body
  | primitive _, _ => none
  | compiled _ word, layer => word.body? layer

/-- The word of an entry that is compiled. -/
def word? : Entry → Option Word
  | primitive _ => none
  | compiled _ word => some word

/-- Changes the word of an entry that is compiled. -/
def mapWord (change : Word → Word) : Entry → Entry
  | primitive builtin => primitive builtin
  | compiled id word => compiled id (change word)

/-- An entry as listings show it, with its texts painted in the given way. -/
def describeWith (paint : Text.Painting) : Entry → String
  | primitive builtin => builtin.card.describeWith paint
  | compiled _ word =>
      match word.latest? with
      | none => "deferred"
      | some body => String.intercalate " " (body.map (Value.displayWith paint))

/-- An entry as listings show it. -/
def describe : Entry → String :=
  describeWith Text.Color.paint

/-- Whether every numeral in the description is within the limit. -/
def isDisplayable : Entry → Bool
  | primitive _ => true
  | compiled _ word => (word.latest?.map Value.allDisplayable).getD true

end Entry
end Concatenative

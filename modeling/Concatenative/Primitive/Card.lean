import Concatenative.Text.Color

/-!
# Cards of primitives

What the dictionary tells about a primitive word.
-/

namespace Concatenative
namespace Primitive

/-- The description of a primitive word. -/
structure Card where
  name : String
  /-- The fixed number of the word. -/
  id : Int
  /-- The effect on the stack, or what the word does. -/
  comment : Option String
  /-- The name of the implementation. -/
  label : String
  /-- The numbers of primitives are kept apart from those of compiled words. -/
  id_neg : id < 0

namespace Card

/-- The card of a primitive that has no implementation, if the number is a proper one. -/
def unimplemented? (name : String) (id : Int) (comment : Option String) : Option Card :=
  if negative : id < 0 then some ⟨name, id, comment, "Intrinsic", negative⟩ else none

/-- What is said about a number that no primitive may have. -/
def badNumberMessage (name : String) : String :=
  "intrinsic " ++ name ++ " must have a negative id"

/-- A primitive as it is displayed, with its texts painted in the given way. -/
def displayWith (paint : Text.Painting) (card : Card) : String :=
  paint .gray ("primitive<" ++ card.label ++ ">")

/-- A primitive as it is displayed. -/
def display : Card → String :=
  displayWith Text.Color.paint

/-- The comment of a primitive and the primitive itself, painted in the given way. -/
def describeWith (paint : Text.Painting) (card : Card) : String :=
  match card.comment.filter fun comment => !comment.isEmpty with
  | some comment => "( " ++ comment ++ " ) " ++ card.displayWith paint
  | none => card.displayWith paint

/-- The comment of a primitive and the primitive itself, as listings show them. -/
def describe : Card → String :=
  describeWith Text.Color.paint

end Card

end Primitive
end Concatenative

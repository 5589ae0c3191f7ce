/-!
# Sets of characters given by ranges of code points

A character class of a standard is data: a sorted list of ranges of code points.
This module says what such a list means.
-/

namespace Concatenative
namespace Text

/-- A set of characters, as ranges of code points with both ends included. -/
structure CodeRanges where
  /-- The ranges, in increasing order. -/
  ranges : List (Nat × Nat)

namespace CodeRanges

/-- A character belongs to the set when its code point lies in one of the ranges. -/
def contains (set : CodeRanges) (character : Char) : Bool :=
  set.ranges.any fun (first, last) =>
    first ≤ character.toNat && character.toNat ≤ last

end CodeRanges

end Text
end Concatenative

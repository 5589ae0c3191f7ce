import Concatenative.Text.Numeral

/-!
# Limits on the depth of calls
-/

namespace Concatenative

/-- The largest number of frames. -/
structure DepthLimit where
  value : Nat
  positive : 0 < value

namespace DepthLimit

/-- The limit of machines that are given none. -/
def standard : DepthLimit :=
  ⟨10000, by decide⟩

/-- The limit with a positive value. -/
def ofInt? (value : Int) : Option DepthLimit :=
  if positive : 0 < value.toNat then some ⟨value.toNat, positive⟩ else none

/-- What is said about a value that is no limit. -/
def badValueMessage (value : Int) : String :=
  "max_depth must be positive, got " ++ Numeral.write value

end DepthLimit

end Concatenative

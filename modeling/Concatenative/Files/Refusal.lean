/-!
# Why a file cannot be opened
-/

namespace Concatenative
namespace Files

/-- The reasons for which a path cannot be opened for reading. -/
inductive Refusal where
  | missing
  | isDirectory
  | notDirectory
  | nameTooLong
  deriving DecidableEq

/-- The wording of a refusal. -/
def Refusal.message : Refusal → String
  | .missing => "No such file or directory"
  | .isDirectory => "Is a directory"
  | .notDirectory => "Not a directory"
  | .nameTooLong => "File name too long"

end Files
end Concatenative

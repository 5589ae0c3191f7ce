import Concatenative.Error.Cause
import Concatenative.Error.Report

/-!
# Failures

A failure is a cause that has come up in a source.  It arises without knowing the
source; whoever loads the source puts the name in, and a name once there stays.
-/

namespace Concatenative
namespace Error

/-- A cause, with the name of the source being processed once that is known. -/
structure Failure where
  cause : Cause
  source : Option String := none

namespace Failure

/-- What is told about a failure. -/
def report (failure : Failure) : Report where
  kind := failure.cause.kind
  explanation := failure.cause.message
  source := failure.source

/-- The failure with a source, unless it already has one. -/
def within (failure : Failure) (source : String) : Failure :=
  { failure with source := failure.source.or (some source) }

end Failure

end Error
end Concatenative

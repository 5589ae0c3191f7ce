import Concatenative.Error.Kind
import Concatenative.Files.Refusal
import Concatenative.Token.Basic
import Concatenative.Value.Display
import Concatenative.Value.Kind

/-!
# Causes of errors

What went wrong, as data.  The kind and the wording of each cause are settled here and
nowhere else.
-/

namespace Concatenative
namespace Error

/-- What went wrong. -/
inductive Cause where
  /-- No name follows the marker of a definition. -/
  | missingName
  /-- A marker is followed neither by a blank nor by a keyword. -/
  | strayMarker
  /-- A string literal runs to the end of the text. -/
  | unclosedString
  /-- The definition of the word has no terminator. -/
  | unclosedDefinition (word : String)
  /-- A quotation meets the end of the tokens or of the definition. -/
  | unclosedQuotation
  /-- A token stands where a value is expected. -/
  | misplaced (token : Token)
  /-- A token that no definition may hold stands in the definition of the word. -/
  | forbidden (token : Token) (word : String)
  | unknownDirective (keyword : String)
  /-- A text is no literal, no word and no variable. -/
  | unresolved (text : String)
  /-- A reference has a number that no word has. -/
  | unknownWord (name : String)
  /-- A directive lacks an argument of the described sort. -/
  | badArgument (keyword : String) (expected : String)
  /-- A name to be defined reads as a literal. -/
  | literalName (name : String)
  /-- A name to be defined belongs to a primitive. -/
  | primitiveName (name : String)
  /-- A variable would take the name of a word. -/
  | wordName (name : String)
  /-- A primitive has no effect of its own. -/
  | notImplemented (name : String)
  /-- The user interrupted the session. -/
  | interrupted
  /-- The stack holds fewer values than needed. -/
  | underflow (needed : Nat) (held : Nat)
  /-- A value does not meet the specification of an operand. -/
  | mismatch (expected : Value.Spec) (found : Value)
  /-- Operands that have to be of one kind are not; the top of the stack comes first. -/
  | mixedKinds (operands : List Value)
  | undefinedVariable (name : String)
  /-- A layer of the word was reserved and never filled. -/
  | neverDefined (name : String)
  | negativeIndex (index : Int)
  | zeroDivisor (dividend : Int)
  | depthExceeded (limit : Nat)
  | unreadable (path : String) (refusal : Files.Refusal)
  /-- A file holds no well-formed text. -/
  | undecodable (path : String)
  /-- A file includes itself, directly or through others. -/
  | circular (path : String)

namespace Cause

/-- The kind of error that a cause leads to. -/
def kind : Cause → Kind
  | missingName | strayMarker => .malformedMarker
  | unclosedString => .unterminatedString
  | unclosedDefinition _ => .unterminatedDefinition
  | unclosedQuotation => .unterminatedQuotation
  | misplaced _ | forbidden _ _ => .unexpectedToken
  | unknownDirective _ | unresolved _ | unknownWord _ => .unresolvedToken
  | badArgument _ _ => .malformedDirective
  | literalName _ | primitiveName _ | wordName _ => .reservedWord
  | notImplemented _ | interrupted => .execution
  | underflow _ _ => .stackUnderflow
  | mismatch _ _ | mixedKinds _ => .typeMismatch
  | undefinedVariable _ => .undefinedVariable
  | neverDefined _ => .unresolvedDeferredWord
  | negativeIndex _ => .invalidArgument
  | zeroDivisor _ => .divisionByZero
  | depthExceeded _ => .callDepthExceeded
  | unreadable _ _ | undecodable _ | circular _ => .fileAccess

/-- A text between single quotation marks, as it stands. -/
def cite (text : String) : String :=
  "\x27" ++ text ++ "\x27"

/-- The explanation of a cause. -/
def message : Cause → String
  | missingName => "missing word name after \x27:\x27"
  | strayMarker =>
      "\x27:\x27 must be followed by whitespace and a word name, or by a directive"
  | unclosedString => "string literal was not closed"
  | unclosedDefinition word =>
      "word definition terminator (\x27;\x27) expected at end of word " ++ cite word
  | unclosedQuotation => "unexpected end of quotation without closing marker \x27]\x27"
  | misplaced token => "unexpected " ++ cite token.text ++ " (" ++ token.kind.label ++ ")"
  | forbidden token word =>
      cite token.text ++ " is not allowed inside the definition of " ++ cite word
  | unknownDirective keyword => cite keyword ++ " is not a known directive"
  | unresolved text => cite text ++ " is not a defined word or valid data type"
  | unknownWord name => "unknown word " ++ cite name
  | badArgument keyword expected => "directive " ++ keyword ++ " expects " ++ expected
  | literalName name => "word name " ++ cite name ++ " is a literal"
  | primitiveName name => "cannot redefine intrinsic " ++ cite name
  | wordName name => cite name ++ " is already a word, cannot be used as a variable"
  | notImplemented name => "intrinsic " ++ name ++ " is not implemented"
  | interrupted => "execution interupted by user"
  | underflow needed held =>
      if needed > 1 then
        Numeral.write needed ++ " arguments needed, stack holds " ++ Numeral.write held
      else "one argument needed (empty stack)"
  | mismatch expected found => "expected " ++ expected.label ++ ", got " ++ found.inspect
  | mixedKinds operands =>
      "unexpected mismatch of types on stack : "
        ++ String.intercalate " <> " (operands.map Value.inspect)
  | undefinedVariable name =>
      "variable " ++ (Value.variableRef name).display ++ " not defined"
  | neverDefined name => "deferred word " ++ cite name ++ " was never defined"
  | negativeIndex index => "pick expects a non-negative index, got " ++ Numeral.write index
  | zeroDivisor dividend => "division of " ++ Numeral.write dividend ++ " by zero"
  | depthExceeded limit => "call depth limit (" ++ Numeral.write limit ++ ") exceeded"
  | unreadable path refusal => "cannot read " ++ path ++ " (" ++ refusal.message ++ ")"
  | undecodable path => "cannot decode " ++ path ++ " as utf-8"
  | circular path => "circular include of " ++ path

/-- Whether every numeral in the explanation is within the limit. -/
def isWritable : Cause → Bool
  | underflow needed _ => Numeral.isWritable needed
  | mismatch _ found => found.isInspectable
  | mixedKinds operands => Value.allInspectable operands
  | negativeIndex index => Numeral.isWritable index
  | zeroDivisor dividend => Numeral.isWritable dividend
  | depthExceeded limit => Numeral.isWritable limit
  | _ => true

end Cause

end Error
end Concatenative

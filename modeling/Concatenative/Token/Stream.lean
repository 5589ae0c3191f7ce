import Concatenative.Token.Basic

/-!
# Token streams

A sequence of tokens read by position, which can be reset for another pass.
-/

namespace Concatenative
namespace Token

/-- A sequence of tokens and a position in it. -/
structure Stream where
  tokens : List Token
  position : Nat

namespace Stream

/-- The stream at the start of a sequence. -/
def ofList (tokens : List Token) : Stream where
  tokens := tokens
  position := 0

/-- The number of tokens, read or not. -/
def size (stream : Stream) : Nat :=
  stream.tokens.length

/-- Whether a token is left to read. -/
def hasNext (stream : Stream) : Bool :=
  stream.position < stream.size

/-- The next token, and the stream behind it. -/
def next (stream : Stream) : Option Token × Stream :=
  match stream.tokens[stream.position]? with
  | none => (none, stream)
  | some token => (some token, { stream with position := stream.position + 1 })

/-- The stream at its start again. -/
def reset (stream : Stream) : Stream :=
  { stream with position := 0 }

end Stream

end Token
end Concatenative

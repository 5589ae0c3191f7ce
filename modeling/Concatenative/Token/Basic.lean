import Concatenative.Text.Color

/-!
# Tokens

The lexical units of a program.
-/

namespace Concatenative

/-- A lexical unit. -/
inductive Token where
  /-- A keyword that directs the loader, with its colon. -/
  | directive (keyword : String)
  /-- The start of a definition, with the name being defined. -/
  | header (name : String)
  /-- The end of a definition. -/
  | terminator
  /-- A word, a number or a truth value. -/
  | word (characters : String)
  /-- A string literal, without its quotes. -/
  | literal (characters : String)
  | openQuotation
  | closeQuotation
  deriving DecidableEq

namespace Token

/-- The kinds of tokens. -/
inductive Kind where
  | directive
  | header
  | terminator
  | word
  | literal
  | openQuotation
  | closeQuotation
  deriving DecidableEq

/-- The name of a kind in messages and listings. -/
def Kind.label : Kind → String
  | .directive => "directive"
  | .header => "definition"
  | .terminator => "terminator"
  | .word => "word"
  | .literal => "string"
  | .openQuotation => "open"
  | .closeQuotation => "close"

/-- The kind of a token. -/
def kind : Token → Kind
  | directive _ => .directive
  | header _ => .header
  | terminator => .terminator
  | word _ => .word
  | literal _ => .literal
  | openQuotation => .openQuotation
  | closeQuotation => .closeQuotation

/-- The characters of a token: the name for a header, the content for a literal. -/
def text : Token → String
  | directive keyword => keyword
  | header name => name
  | terminator => ";"
  | word characters => characters
  | literal characters => characters
  | openQuotation => "["
  | closeQuotation => "]"

/-- A token as it is displayed. -/
def display (token : Token) : String :=
  Text.Color.magenta.paint ("<" ++ token.text ++ ">")

end Token
end Concatenative

import Concatenative.Dictionary.Basic
import Concatenative.Outcome

/-!
# Reading values

Tokens become values.  A word is resolved when it is read: truth values and numerals
first, then the words of the dictionary, which are bound to their newest layer, and
last the variables.

Readers return what they read together with the tokens that follow it, of which there
are never more than they were given.
-/

namespace Concatenative
namespace Reader

/-- The truth value that a text spells. -/
def truth? (text : String) : Option Bool :=
  if text = "true" then some true else if text = "false" then some false else none

/-- Whether a text reads as a literal, so that nothing can have it as a name. -/
def isLiteral (text : String) : Bool :=
  (truth? text).isSome || Numeral.isNumeral text

/-- Asks for a name that does not read as a literal. -/
def checkName (name : String) : Except Stop Unit :=
  if isLiteral name then .error (.ofCause (.literalName name)) else .ok ()

/-- The value that a text stands for. -/
def resolve (dictionary : Dictionary) (text : String) : Except Stop Value :=
  match truth? text with
  | some truth => .ok (.bool truth)
  | none =>
      if Numeral.isNumeral text then
        match Numeral.read text with
        | .ok number => .ok (.int number)
        | .error excess => .error (.overlong excess)
      else
        match dictionary.reference? text with
        | some reference => .ok (.wordRef reference)
        | none =>
            if dictionary.store.contains text then .ok (.variableRef text)
            else .error (.ofCause (.unresolved text))

/--
The quotation whose opening bracket is behind.  `content` holds the values read so far,
newest first, and `outer` those of the enclosing quotations.
-/
def readQuotation (dictionary : Dictionary) (content : List Value) (outer : List (List Value)) :
    List Token → Except Stop (Value × List Token)
  | [] | .terminator :: _ => .error (.ofCause .unclosedQuotation)
  | .openQuotation :: rest => readQuotation dictionary [] (content :: outer) rest
  | .closeQuotation :: rest =>
      let quotation := Value.quotation content.reverse
      match outer with
      | [] => .ok (quotation, rest)
      | enclosing :: outer => readQuotation dictionary (quotation :: enclosing) outer rest
  | .literal characters :: rest =>
      readQuotation dictionary (.text characters :: content) outer rest
  | .word characters :: rest =>
      match resolve dictionary characters with
      | .error stop => .error stop
      | .ok value => readQuotation dictionary (value :: content) outer rest
  | token :: _ => .error (.ofCause (.misplaced token))

/-- The value that a token starts. -/
def readValue (dictionary : Dictionary) (token : Token) (rest : List Token) :
    Except Stop (Value × List Token) :=
  match token with
  | .literal characters => .ok (.text characters, rest)
  | .openQuotation => readQuotation dictionary [] [] rest
  | .word characters => (resolve dictionary characters).map fun value => (value, rest)
  | token => .error (.ofCause (.misplaced token))

theorem length_readQuotation_lt
    {dictionary : Dictionary} {content : List Value} {outer : List (List Value)}
    {tokens rest : List Token} {value : Value}
    (read_eq : readQuotation dictionary content outer tokens = .ok (value, rest)) :
    rest.length < tokens.length := by
  induction tokens generalizing content outer with
  | nil => simp [readQuotation] at read_eq
  | cons token tokens inductionHypothesis =>
      have shorter : ∀ {content : List Value} {outer : List (List Value)},
          readQuotation dictionary content outer tokens = .ok (value, rest) →
            rest.length < (token :: tokens).length := fun later_eq =>
        Nat.lt_succ_of_lt (inductionHypothesis later_eq)
      cases token with
      | directive _ | header _ | terminator => simp [readQuotation] at read_eq
      | openQuotation =>
          simp only [readQuotation] at read_eq
          exact shorter read_eq
      | closeQuotation =>
          simp only [readQuotation] at read_eq
          split at read_eq
          · simp only [Except.ok.injEq, Prod.mk.injEq] at read_eq
            simp [read_eq.2]
          · exact shorter read_eq
      | literal _ =>
          simp only [readQuotation] at read_eq
          exact shorter read_eq
      | word _ =>
          simp only [readQuotation] at read_eq
          split at read_eq
          · simp at read_eq
          · exact shorter read_eq

theorem length_readValue_le
    {dictionary : Dictionary} {token : Token} {tokens rest : List Token} {value : Value}
    (read_eq : readValue dictionary token tokens = .ok (value, rest)) :
    rest.length ≤ tokens.length := by
  unfold readValue at read_eq
  split at read_eq
  · simp_all
  · exact Nat.le_of_lt (length_readQuotation_lt read_eq)
  · rename_i characters
    cases resolved : resolve dictionary characters <;>
      simp_all [Except.map]
  · simp at read_eq

/--
The body of the definition of a word, whose header is behind.  `body` holds the values
read so far, newest first.
-/
def readBody (dictionary : Dictionary) (name : String) (body : List Value) :
    List Token → Except Stop (Body × List Token)
  | [] => .error (.ofCause (.unclosedDefinition name))
  | .terminator :: rest => .ok (body.reverse, rest)
  | .header word :: _ => .error (.ofCause (.forbidden (.header word) name))
  | .directive keyword :: _ => .error (.ofCause (.forbidden (.directive keyword) name))
  | token :: rest =>
      match _ : readValue dictionary token rest with
      | .error stop => .error stop
      | .ok (value, rest) => readBody dictionary name (value :: body) rest
termination_by tokens => tokens.length
decreasing_by
  have := length_readValue_le ‹_›
  simp only [List.length_cons]
  omega

theorem length_readBody_lt
    {dictionary : Dictionary} {name : String} {body : List Value}
    {tokens rest : List Token} {result : Body}
    (read_eq : readBody dictionary name body tokens = .ok (result, rest)) :
    rest.length < tokens.length := by
  fun_induction readBody dictionary name body tokens with
  | case1 => simp at read_eq
  | case2 => simp_all
  | case3 => simp at read_eq
  | case4 => simp at read_eq
  | case5 => simp at read_eq
  | case6 body token tokens _ _ _ value remaining value_eq inductionHypothesis =>
      have := inductionHypothesis read_eq
      have := length_readValue_le value_eq
      simp only [List.length_cons]
      omega

/-- The body of the definition of a word that may have its name. -/
def readDefinition (dictionary : Dictionary) (name : String) (tokens : List Token) :
    Except Stop (Body × List Token) :=
  match checkName name with
  | .error stop => .error stop
  | .ok () => readBody dictionary name [] tokens

theorem length_readDefinition_lt
    {dictionary : Dictionary} {name : String} {tokens rest : List Token} {body : Body}
    (read_eq : readDefinition dictionary name tokens = .ok (body, rest)) :
    rest.length < tokens.length := by
  unfold readDefinition at read_eq
  split at read_eq
  · simp at read_eq
  · exact length_readBody_lt read_eq

end Reader
end Concatenative

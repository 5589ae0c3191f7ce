import Concatenative.Directive
import Concatenative.Files.Tree
import Concatenative.Reader
import Concatenative.Session.Basic
import Concatenative.Token.Lexer

/-!
# Loading programs

A program is loaded token by token: definitions are compiled into the dictionary,
directives are applied, and every other value is run at once, before the next token is
read.  While a source is loaded the session knows its name, and a failure that has no
source yet takes that name on the way out.

Files may include files.  A file that is being loaded is not loaded again under the same
address, and a file has two of them at most, so includes nest at most twice as deep as there
are files.
-/

namespace Concatenative
namespace Session

open Error (Cause)

/-- What a session loads from and how long its runs may be. -/
structure Environment where
  files : Files.Tree
  /-- The number of steps allowed to each value that is run. -/
  fuel : Nat

/-- How the inclusion of a path is carried out. -/
abbrev Inclusion := String → Session → Outcome Session Unit

/-- Replaces the dictionary by the result of an operation on it. -/
def changeDictionary (session : Session) (result : Except Cause Dictionary) :
    Outcome Session Unit :=
  match result with
  | .error cause => .failed session cause
  | .ok dictionary => .done (session.withDictionary dictionary) ()

/-- Defines a word and takes a note of it. -/
def define (session : Session) (name : String) (body : Body) : Outcome Session Unit :=
  (session.changeDictionary (session.dictionary.define name body)).andThen fun session _ =>
    match session.dictionary.lookup name with
    | none => .done session ()
    | some entry => .done (session.note (.defined name entry.id entry.current)) ()

/-- Applies a directive to the text of its argument. -/
def applyDirective (session : Session) (inclusion : Inclusion) (directive : Directive)
    (argument : String) : Outcome Session Unit :=
  match directive with
  | .includeFile => inclusion argument session
  | .declareVariable =>
      match Reader.checkName argument with
      | .error stop => .stopped session stop
      | .ok () => session.changeDictionary (session.dictionary.declareVariable argument)
  | .deferWord =>
      match Reader.checkName argument with
      | .error stop => .stopped session stop
      | .ok () => session.changeDictionary (session.dictionary.defer argument)

/-- The directive with a keyword, if the token that follows is an argument for it. -/
def checkDirective (keyword : String) (argument : Option Token) :
    Except Cause (Directive × String) :=
  match Directive.ofKeyword? keyword with
  | none => .error (.unknownDirective keyword)
  | some directive =>
      match argument with
      | none => .error (.badArgument keyword directive.argument)
      | some token =>
          if token.kind ∈ directive.accepts then .ok (directive, token.text)
          else .error (.badArgument keyword directive.argument)

/-- Loads tokens, from the first to the last. -/
def loadTokens (session : Session) (fuel : Nat) (inclusion : Inclusion) :
    List Token → Outcome Session Unit
  | [] => .done session ()
  | .header name :: rest =>
      match _ : Reader.readDefinition session.dictionary name rest with
      | .error stop => .stopped session stop
      | .ok (body, rest) =>
          (session.define name body).andThen fun session _ =>
            session.loadTokens fuel inclusion rest
  | .directive keyword :: rest =>
      match checkDirective keyword rest.head? with
      | .error cause => .failed session cause
      | .ok (directive, argument) =>
          let session := session.note (.directive keyword argument)
          (session.applyDirective inclusion directive argument).andThen fun session _ =>
            session.loadTokens fuel inclusion rest.tail
  | token :: rest =>
      match _ : Reader.readValue session.dictionary token rest with
      | .error stop => .stopped session stop
      | .ok (value, rest) =>
          (session.onMachine fun machine => machine.dispatch fuel value).andThen
            fun session _ => session.loadTokens fuel inclusion rest
termination_by tokens => tokens.length
decreasing_by
  · have := Reader.length_readDefinition_lt ‹_›
    simp only [List.length_cons]
    omega
  · simp only [List.length_tail, List.length_cons]
    omega
  · have := Reader.length_readValue_le ‹_›
    simp only [List.length_cons]
    omega

/-- Loads the tokens of a named source. -/
def loadSource (session : Session) (fuel : Nat) (inclusion : Inclusion) (name : String)
    (tokens : List Token) : Outcome Session Unit :=
  let inside := { session with source := some name }.note (.loading name tokens.length)
  let outcome := inside.loadTokens fuel inclusion tokens
  (outcome.mapStop (Stop.within name)).mapState fun after =>
    { after with source := session.source }

/--
The path to open for an included one: below the directory of the file being loaded if
a file is there, and as it is otherwise.
-/
def locateIncluded (files : Files.Tree) (source : Option String) (path : String) : String :=
  match source with
  | none => path
  | some current =>
      let candidate := Files.Path.join (Files.Path.directory current) path
      if !Files.Path.isAbsolute path && files.isFile current && files.isFile candidate then
        candidate
      else path

/-- The tokens of a file. -/
def readFile (files : Files.Tree) (path : String) : Except Stop (List Token) :=
  match files.read path with
  | .error stop => .error stop
  | .ok text => (Lexer.tokenize path text).mapError .failure

/-- Carries inclusions out by loading the file that is meant. -/
def includeBy (files : Files.Tree) (load : Inclusion) : Inclusion := fun included session =>
  let path := locateIncluded files session.source included
  load path (session.note (.including path))

/-- Loads a file, in which includes nest less deep than the given number. -/
def loadNested (environment : Environment) : (nesting : Nat) → Inclusion
  | 0, _, session => .stopped session .exhausted
  | nesting + 1, path, session =>
      let address := Files.Path.address environment.files.home path
      if address ∈ session.loading then
        .stopped session (.failure ⟨.circular path, session.source⟩)
      else
        match readFile environment.files path with
        | .error stop => .stopped session stop
        | .ok tokens =>
            let inclusion := includeBy environment.files (loadNested environment nesting)
            let inside := { session with loading := address :: session.loading }
            (inside.loadSource environment.fuel inclusion path tokens).mapState fun after =>
              { after with loading := after.loading.tail }

/-- A number that nested includes do not reach. -/
def Environment.nesting (environment : Environment) : Nat :=
  2 * environment.files.nodes.length + 1

/-- Loads the file at a path. -/
def loadPath (session : Session) (environment : Environment) (path : String) :
    Outcome Session Unit :=
  loadNested environment environment.nesting path session

/-- Loads a text under a name. -/
def execute (session : Session) (environment : Environment) (name text : String) :
    Outcome Session Unit :=
  match Lexer.tokenize name text with
  | .error failure => .stopped session (.failure failure)
  | .ok tokens =>
      let load : Inclusion := fun path session => session.loadPath environment path
      session.loadSource environment.fuel (includeBy environment.files load) name tokens

end Session
end Concatenative

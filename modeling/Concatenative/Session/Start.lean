import Concatenative.Session.Loader

/-!
# Starting a session

A session may start with the prelude, a few words defined in the language itself, and
then load an init file.
-/

namespace Concatenative
namespace Session

/-- The definitions of the prelude, a line each. -/
def preludeLines : List String :=
  [ ": dup ( a -- a a ) 0 pick ;",
    ": over ( a b -- a b a ) 1 pick ;",
    ": nip ( a b -- b ) swap drop ;",
    ": tuck ( a b -- b a b ) swap 1 pick ;",
    ": 2dup ( a b -- a b a b ) 1 pick 1 pick ;",
    ": 2drop ( a b -- ) drop drop ;",
    ": neg ( a -- -a ) 0 swap - ;" ]

/-- The name of the init file that is loaded when none is given. -/
def initFile : String :=
  "init.qf"

/-- A new session, with or without the prelude. -/
def start (environment : Environment) (withPrelude : Bool) (limit : DepthLimit) : Session :=
  let lines := if withPrelude then preludeLines else []
  lines.foldl (fun session line => (session.execute environment "<prelude>" line).state)
    (.initial limit)

/-- Loads the file at a path and takes a note of it. -/
def loadFile (session : Session) (environment : Environment) (path : String) :
    Outcome Session Unit :=
  (session.note (.loadingFile path)).loadPath environment path

/--
Loads an init file, and tells whether there was one.  A file that is asked for by its
path has to be there.
-/
def loadInit (session : Session) (environment : Environment) (path : Option String) :
    Outcome Session Bool :=
  if path.isNone && !environment.files.isFile initFile then .done session false
  else
    (session.loadFile environment (path.getD initFile)).andThen fun session _ =>
      .done session true

end Session
end Concatenative

import Concatenative.Proofs.Operation
import Concatenative.Proofs.Passage

/-!
# What surrounds a program

A session knows the source and the files that are being loaded, and its machine has the
frames of the bodies that are being run.  Loading and running change all of them on the
way, through files that include files and words that call words, and restore all of them
in the end, whether the program ends, fails, ends the session or meets a numeral over the
limit.

On the way the frames are within the limit, and wherever a value is to be taken there is
one.
-/

namespace Concatenative
namespace Session

/-- What surrounds the program that is loaded or run. -/
structure Ambience where
  /-- The name of the source being loaded. -/
  source : Option String
  /-- The files being loaded, innermost first. -/
  loading : List Files.Address
  /-- The bodies being run, with what is taken and what is left of each. -/
  calls : CallStack
  limit : DepthLimit

/-- What surrounds a program that is loaded into a session or run in it. -/
def ambience (session : Session) : Ambience where
  source := session.source
  loading := session.loading
  calls := session.machine.calls
  limit := session.machine.limit

/-! ## What loading restores -/

section Restoring

variable {session : Session} {inclusion : Inclusion}

/-- A run restores the frames that were there. -/
theorem ambience_run (session : Session) (fuel : Nat) (body : Body) :
    (session.onMachine fun machine => machine.run fuel body).state.ambience =
      session.ambience := by
  simp [ambience, onMachine, Outcome.mapState]

theorem isAmbient_ambience : IsAmbient ambience where
  noted _ _ := rfl
  changed _ _ := rfl
  dispatched session fuel value := session.ambience_run fuel [value]

/-- Loading a source restores the name of the one before. -/
theorem ambience_loadSource
    (leaves : Leaves ambience inclusion)
    (fuel : Nat)
    (name : String)
    (tokens : List Token) :
    (session.loadSource fuel inclusion name tokens).state.ambience = session.ambience := by
  let inside := { session with source := some name }.note (.loading name tokens.length)
  have loaded : (inside.loadTokens fuel inclusion tokens).state.ambience = inside.ambience :=
    isAmbient_ambience.loadTokens leaves tokens
  exact congrArg (fun around : Ambience => { around with source := session.source }) loaded

/-- Loading a file restores the list of the files being loaded. -/
theorem leaves_loadNested (environment : Environment) (nesting : Nat) :
    Leaves ambience (loadNested environment nesting) := by
  induction nesting with
  | zero => exact fun path session => rfl
  | succ nesting inductionHypothesis =>
      intro path session
      have leaves := isAmbient_ambience.includeBy environment.files inductionHypothesis
      simp only [loadNested]
      split
      · rfl
      · split
        · rfl
        · rename_i tokens read_eq
          let address := Files.Path.address environment.files.home path
          let inside := { session with loading := address :: session.loading }
          have loaded : (inside.loadSource environment.fuel _ path tokens).state.ambience =
              inside.ambience :=
            ambience_loadSource leaves environment.fuel path tokens
          exact congrArg
            (fun around : Ambience => { around with loading := around.loading.tail }) loaded

theorem ambience_execute (environment : Environment) (name text : String) :
    (session.execute environment name text).state.ambience = session.ambience := by
  have leaves := isAmbient_ambience.includeBy environment.files
    (leaves_loadNested environment environment.nesting)
  unfold execute
  split
  · rfl
  · exact ambience_loadSource leaves environment.fuel name _

theorem ambience_loadFile (environment : Environment) (path : String) :
    (session.loadFile environment path).state.ambience = session.ambience :=
  leaves_loadNested environment environment.nesting path (session.note (.loadingFile path))

end Restoring

/-! ## Calls -/

/-- What a session is asked to load or to run. -/
inductive Call where
  | execute (environment : Environment) (name text : String)
  | loadFile (environment : Environment) (path : String)
  | run (fuel : Nat) (body : Body)
  | dispatch (fuel : Nat) (value : Value)

/-- Loads or runs what is asked for. -/
def carryOut (session : Session) : Call → Outcome Session Unit
  | .execute environment name text => session.execute environment name text
  | .loadFile environment path => session.loadFile environment path
  | .run fuel body => session.onMachine fun machine => machine.run fuel body
  | .dispatch fuel value => session.onMachine fun machine => machine.dispatch fuel value

/-- Whatever is loaded or run, what surrounds it is restored. -/
theorem ambience_carryOut (session : Session) (call : Call) :
    (session.carryOut call).state.ambience = session.ambience := by
  cases call with
  | execute environment name text => exact ambience_execute environment name text
  | loadFile environment path => exact ambience_loadFile environment path
  | run fuel body => exact session.ambience_run fuel body
  | dispatch fuel value => exact session.ambience_run fuel [value]

/--
The sessions that are built from outside: by loading and by changing the dictionary, and on
the machine itself, where frames may be opened that no run closes.
-/
inductive IsBuilt : Session → Prop
  | started (environment : Environment) (withPrelude : Bool) (limit : DepthLimit) :
      IsBuilt (start environment withPrelude limit)
  | performed {session : Session} (operation : Operation) :
      IsBuilt session →
      IsBuilt (session.perform operation).state
  | carriedOut {session : Session} (call : Call) :
      IsBuilt session →
      IsBuilt (session.carryOut call).state
  /-- A frame is opened and left there. -/
  | entered {session : Session} (body : Body) :
      IsBuilt session →
      IsBuilt (session.onMachine fun machine => machine.enter body).state
  /-- A value is executed, and the frame of the body it calls is left there. -/
  | invoked {session : Session} (value : Value) :
      IsBuilt session →
      IsBuilt (session.onMachine fun machine => machine.execute value).state
  /-- Values are pushed or popped. -/
  | restacked {session : Session} (stack : List Value) :
      IsBuilt session →
      IsBuilt { session with machine := { session.machine with stack } }

/-! ## The machines that loading passes through -/

/-- The session in which the tokens of a file are loaded. -/
def opened (session : Session) (environment : Environment) (path : String)
    (tokens : List Token) : Session :=
  { session with
    source := some path
    loading := Files.Path.address environment.files.home path :: session.loading }.note
      (.loading path tokens.length)

/-- A file that is not being loaded and can be read has the given tokens. -/
def Opens (session : Session) (environment : Environment) (path : String)
    (tokens : List Token) : Prop :=
  Files.Path.address environment.files.home path ∉ session.loading ∧
    readFile environment.files path = .ok tokens

/--
The machines that loading tokens passes through, where includes nest less deep than the
given number.
-/
inductive PassesLoading (environment : Environment) :
    (nesting : Nat) → Session → List Token → Machine → Prop
  | here {nesting : Nat} {session : Session} {tokens : List Token} :
      PassesLoading environment nesting session tokens session.machine
  /-- A value is run. -/
  | dispatched {nesting : Nat} {session : Session} {token : Token} {rest later : List Token}
      {value : Value} {visited : Machine} :
      Reader.readValue session.dictionary token rest = .ok (value, later) →
      session.machine.Passes [value] visited →
      PassesLoading environment nesting session (token :: rest) visited
  /-- A file is loaded. -/
  | included {nesting : Nat} {session : Session} {keyword argument path : String}
      {rest tokens : List Token} {visited : Machine} :
      checkDirective keyword rest.head? = .ok (.includeFile, argument) →
      locateIncluded environment.files session.source argument = path →
      session.Opens environment path tokens →
      PassesLoading environment nesting
        (((session.note (.directive keyword argument)).note (.including path)).opened
          environment path tokens)
        tokens visited →
      PassesLoading environment (nesting + 1) session (.directive keyword :: rest) visited
  /-- A form leaves a machine behind however it ends. -/
  | left {nesting : Nat} {session : Session} {token : Token} {rest : List Token} :
      PassesLoading environment nesting session (token :: rest)
        (session.loadForm environment.fuel
          (includeBy environment.files (loadNested environment nesting)) token rest).state.machine
  | later {nesting : Nat} {session after : Session} {token : Token} {rest remaining : List Token}
      {visited : Machine} :
      session.loadForm environment.fuel
        (includeBy environment.files (loadNested environment nesting)) token rest =
          .done after remaining →
      PassesLoading environment nesting after remaining visited →
      PassesLoading environment nesting session (token :: rest) visited

/-- The machines that carrying out a call passes through. -/
inductive PassesDuring (session : Session) : Call → Machine → Prop
  | start {call : Call} : PassesDuring session call session.machine
  | executed {environment : Environment} {name text : String} {tokens : List Token}
      {visited : Machine} :
      Lexer.tokenize name text = .ok tokens →
      PassesLoading environment environment.nesting
        ({ session with source := some name }.note (.loading name tokens.length))
        tokens visited →
      PassesDuring session (.execute environment name text) visited
  | loaded {environment : Environment} {path : String} {tokens : List Token}
      {visited : Machine} :
      session.Opens environment path tokens →
      PassesLoading environment environment.files.nodes.length
        ((session.note (.loadingFile path)).opened environment path tokens) tokens visited →
      PassesDuring session (.loadFile environment path) visited
  | ran {fuel : Nat} {body : Body} {visited : Machine} :
      session.machine.Passes body visited →
      PassesDuring session (.run fuel body) visited
  | dispatched {fuel : Nat} {value : Value} {visited : Machine} :
      session.machine.Passes [value] visited →
      PassesDuring session (.dispatch fuel value) visited

/-! ## Sound frames on the way -/

section Soundness

variable {session : Session}

/-- Where what surrounds a program is the same, the frames are as sound. -/
theorem isSound_of_ambience_eq
    {after : Session}
    (sound : session.machine.IsSound)
    (same : after.ambience = session.ambience) :
    after.machine.IsSound :=
  sound.of_eq (congrArg Ambience.calls same) (congrArg Ambience.limit same)

theorem PassesLoading.isSound
    {environment : Environment}
    {nesting : Nat}
    {tokens : List Token}
    {visited : Machine}
    (passes : PassesLoading environment nesting session tokens visited)
    (sound : session.machine.IsSound) :
    visited.IsSound := by
  induction passes with
  | here => exact sound
  | dispatched _ passesRun => exact sound.passes passesRun
  | included _ _ _ _ inductionHypothesis => exact inductionHypothesis sound
  | @left nesting session token rest =>
      have leaves := isAmbient_ambience.includeBy environment.files
        (leaves_loadNested environment nesting)
      exact isSound_of_ambience_eq sound (isAmbient_ambience.loadForm leaves token rest)
  | @later nesting session after token rest remaining visited form_eq _ inductionHypothesis =>
      have leaves := isAmbient_ambience.includeBy environment.files
        (leaves_loadNested environment nesting)
      have same : (session.loadForm environment.fuel _ token rest).state.ambience =
          session.ambience :=
        isAmbient_ambience.loadForm leaves token rest
      rw [form_eq] at same
      exact inductionHypothesis (isSound_of_ambience_eq sound same)

theorem PassesDuring.isSound
    {call : Call}
    {visited : Machine}
    (passes : session.PassesDuring call visited)
    (sound : session.machine.IsSound) :
    visited.IsSound := by
  cases passes with
  | start => exact sound
  | executed _ passesLoading => exact passesLoading.isSound sound
  | loaded _ passesLoading => exact passesLoading.isSound sound
  | ran passesRun => exact sound.passes passesRun
  | dispatched passesRun => exact sound.passes passesRun

/-- Loading leaves the frames sound. -/
theorem isKept_isSound : IsKept Machine.IsSound fun _ _ => True where
  printed _ _ sound := sound.of_eq rfl rfl
  changed _ _ _ sound _ _ := sound.of_eq rfl rfl
  dispatched machine _ _ value _ fuel sound _ _ :=
    ⟨sound.of_eq (machine.calls_run fuel [value]) (machine.limit_run fuel [value]),
      fun _ _ => trivial⟩
  static _ _ _ _ := trivial

/-- The frames of a session that is built from outside are sound, also those left open. -/
theorem IsBuilt.isSound (built : session.IsBuilt) : session.machine.IsSound := by
  induction built with
  | started environment withPrelude limit =>
      exact isKept_isSound.start (Machine.isSound_initial limit) environment withPrelude
  | performed operation _ sound =>
      cases operation with
      | change change =>
          exact isSound_of_ambience_eq sound (isAmbient_ambience.changeDictionary _)
      | execute | loadFile | loadInit | repl | invite | answer =>
          exact (isKept_isSound.perform sound rfl).1
  | @carriedOut session call _ sound =>
      exact isSound_of_ambience_eq sound (session.ambience_carryOut call)
  | entered body _ sound => exact sound.enter body
  | invoked value _ sound => exact sound.execute value
  | restacked stack _ sound => exact sound.of_eq rfl rfl

end Soundness

end Session
end Concatenative

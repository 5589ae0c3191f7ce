import Concatenative.Proofs.Ambience

/-!
# Raising the limit on frames

The limit on frames is looked at in one place, where a frame is to be opened.  So two
machines that differ in their limits only go on in lockstep, with the same frames at every
step, until the one with the lower limit needs a frame too many.  A program that does not
come to that under the lower limit loads and runs under the higher one in the same way:
through the same definitions, includes and calls, to the same end.
-/

namespace Concatenative

open Outcome (Tracks)

namespace Stop

/--
The stop is that of a program that needs a frame more than a limit allows.  This is an error
of its own kind, except where the limit has too many digits to be named by it.
-/
def exceedsDepth (limit : DepthLimit) : Stop → Bool
  | .failure error => error.cause.kind == .callDepthExceeded
  | .overlong .write => !Numeral.isWritable limit.value
  | .overlong (.read _) | .embeddedNul | .leave | .exhausted => false

/-- What is raised at the limit is the stop for exceeding it. -/
theorem exceedsDepth_ofCause (limit : DepthLimit) :
    (ofCause (.depthExceeded limit.value)).exceedsDepth limit = true := by
  unfold ofCause
  split
  · rfl
  · rename_i unwritable
    simp only [Error.Cause.isWritable, Bool.not_eq_true] at unwritable
    simp only [exceedsDepth, unwritable, Bool.not_false]

/-- The source of an error does not matter. -/
@[simp] theorem exceedsDepth_within (limit : DepthLimit) (source : String) (stop : Stop) :
    (stop.within source).exceedsDepth limit = stop.exceedsDepth limit := by
  cases stop <;> rfl

end Stop

namespace Outcome

variable {σ α : Type}

/-- The operation stopped because it needed a frame more than a limit allows. -/
def exceedsDepth (limit : DepthLimit) (outcome : Outcome σ α) : Bool :=
  match outcome.result with
  | .ok _ => false
  | .error stop => stop.exceedsDepth limit

/-- Unless it needs a frame too many, an operation ends on a shifted state as it does without. -/
abbrev Withstands (limit : DepthLimit) (shift : σ → σ) (lower higher : Outcome σ α) : Prop :=
  Tracks (fun stop => stop.exceedsDepth limit = true) shift lower higher

theorem Withstands.within
    {limit : DepthLimit}
    {shift : σ → σ}
    {lower higher : Outcome σ α}
    (withstands : Withstands limit shift lower higher)
    (source : String) :
    Withstands limit shift
      (lower.mapStop (Stop.within source)) (higher.mapStop (Stop.within source)) :=
  Tracks.within withstands fun stop exceeds =>
    (Stop.exceedsDepth_within limit source stop).trans exceeds

end Outcome

open Outcome (Withstands)

/-! ## Machines with different limits -/

namespace Machine

/-- The machine with another limit. -/
def withLimit (machine : Machine) (limit : DepthLimit) : Machine :=
  { machine with limit }

section Runs

variable {machine : Machine} {limit later : DepthLimit}

@[simp] theorem limit_step (machine : Machine) : machine.step.state.limit = machine.limit := by
  rcases machine.step_cases with ⟨-, step_eq⟩ | ⟨value, calls, -, step_eq⟩
  · rw [step_eq]
    rfl
  · rw [step_eq, limit_execute]

/-- A frame that the lower limit allows the higher one allows. -/
theorem withstands_enter
    (limit_eq : machine.limit = limit)
    (raised : limit.value ≤ later.value)
    (body : Body) :
    Withstands limit (·.withLimit later) (machine.enter body)
      ((machine.withLimit later).enter body) := by
  subst limit_eq
  cases body with
  | nil => exact .inr rfl
  | cons first rest =>
      rcases Nat.lt_or_ge machine.calls.depth machine.limit.value with below | reached
      · have belowLater : (machine.withLimit later).calls.depth <
            (machine.withLimit later).limit.value :=
          Nat.lt_of_lt_of_le below raised
        rw [enter_of_depth_lt below, enter_of_depth_lt belowLater]
        exact .inr rfl
      · rw [enter_of_limit_le reached]
        exact .inl ⟨_, Stop.exceedsDepth_ofCause machine.limit, rfl⟩

/-- Executing a value looks at the limit only where it opens a frame. -/
theorem withstands_execute
    (limit_eq : machine.limit = limit)
    (raised : limit.value ≤ later.value)
    (value : Value) :
    Withstands limit (·.withLimit later) (machine.execute value)
      ((machine.withLimit later).execute value) := by
  have reacts : Withstands limit (·.withLimit later)
      ((machine.toWorkspace.react value).mapState machine.withWorkspace)
      ((machine.toWorkspace.react value).mapState (machine.withLimit later).withWorkspace) :=
    .inr rfl
  refine reacts.andThen fun inside body react_eq => withstands_enter ?_ raised body
  have state_eq := congrArg Outcome.state react_eq
  exact (congrArg Machine.limit state_eq).symm.trans limit_eq

/-- Steps are the same until a frame too many is needed. -/
theorem withstands_step
    (limit_eq : machine.limit = limit)
    (raised : limit.value ≤ later.value) :
    Withstands limit (·.withLimit later) machine.step (machine.withLimit later).step := by
  have calls_eq : (machine.withLimit later).calls = machine.calls := rfl
  unfold step
  rw [calls_eq]
  split
  · exact .inr rfl
  · rename_i value calls take_eq
    exact @withstands_execute { machine with calls } limit later limit_eq raised value

/-- Runs stay in lockstep, with the same frames, until a frame too many is needed. -/
theorem withstands_runAbove
    (limit_eq : machine.limit = limit)
    (raised : limit.value ≤ later.value)
    (base fuel : Nat) :
    Withstands limit (·.withLimit later) (machine.runAbove base fuel)
      ((machine.withLimit later).runAbove base fuel) := by
  rcases Nat.lt_or_ge base machine.calls.depth with above | finished
  · have aboveLater : base < (machine.withLimit later).calls.depth := above
    induction fuel generalizing machine with
    | zero =>
        rw [runAbove_zero above, runAbove_zero aboveLater]
        exact .inr rfl
    | succ fuel inductionHypothesis =>
        rw [runAbove_succ above, runAbove_succ aboveLater]
        refine (withstands_step limit_eq raised).andThen fun next _ step_eq => ?_
        have next_eq : next.limit = limit := by
          rw [← limit_eq, ← limit_step machine, step_eq]
          rfl
        rcases Nat.lt_or_ge base next.calls.depth with nextAbove | nextFinished
        · exact inductionHypothesis next_eq nextAbove nextAbove
        · rw [runAbove_of_depth_le nextFinished,
            @runAbove_of_depth_le (next.withLimit later) base nextFinished]
          exact .inr rfl
  · rw [runAbove_of_depth_le finished,
      @runAbove_of_depth_le (machine.withLimit later) base finished]
    exact .inr rfl

/-- A run of a body is the same unless it needs a frame too many. -/
theorem withstands_run
    (limit_eq : machine.limit = limit)
    (raised : limit.value ≤ later.value)
    (fuel : Nat)
    (body : Body) :
    Withstands limit (·.withLimit later) (machine.run fuel body)
      ((machine.withLimit later).run fuel body) := by
  rw [run_eq, run_eq]
  have inside : Withstands limit (·.withLimit later)
      ((machine.enter body).andThen fun inside _ => inside.runAbove machine.calls.depth fuel)
      (((machine.withLimit later).enter body).andThen fun inside _ =>
        inside.runAbove machine.calls.depth fuel) := by
    refine (withstands_enter limit_eq raised body).andThen fun inside _ enter_eq => ?_
    have inside_eq : inside.limit = limit := by
      rw [← limit_eq, ← limit_enter machine body, enter_eq]
      rfl
    exact withstands_runAbove inside_eq raised machine.calls.depth fuel
  exact inside.mapState fun after => rfl

end Runs

end Machine

/-! ## Sessions with different limits -/

namespace Session

/-- The session on a machine with another limit. -/
def withLimit (session : Session) (limit : DepthLimit) : Session :=
  { session with machine := session.machine.withLimit limit }

section Loading

variable {session : Session} {limit later : DepthLimit} {inclusion : Inclusion}

/-- Inclusions that are the same under a higher limit unless they need a frame too many. -/
def WithstandsRaise (limit later : DepthLimit) (inclusion : Inclusion) : Prop :=
  ∀ path session, session.machine.limit = limit →
    Withstands limit (·.withLimit later) (inclusion path session)
      (inclusion path (session.withLimit later))

theorem changeDictionary_withLimit (result : Except Error.Cause Dictionary) :
    (session.withLimit later).changeDictionary result =
      (session.changeDictionary result).mapState (·.withLimit later) := by
  cases result <;> rfl

/-- Definitions do not depend on the limit. -/
theorem withstands_define (name : String) (body : Body) :
    Withstands limit (·.withLimit later) (session.define name body)
      ((session.withLimit later).define name body) := by
  have changed : Withstands limit (·.withLimit later)
      (session.changeDictionary (session.dictionary.define name body))
      ((session.withLimit later).changeDictionary (session.dictionary.define name body)) :=
    .inr (changeDictionary_withLimit _)
  refine changed.andThen fun after _ _ => ?_
  have dictionary_eq : (after.withLimit later).dictionary = after.dictionary := rfl
  simp only [dictionary_eq]
  split <;> exact .inr rfl

/-- Directives other than inclusions do not depend on the limit. -/
theorem withstands_applyDirective
    (limit_eq : session.machine.limit = limit)
    (withstands : WithstandsRaise limit later inclusion)
    (directive : Directive)
    (argument : String) :
    Withstands limit (·.withLimit later)
      (session.applyDirective inclusion directive argument)
      ((session.withLimit later).applyDirective inclusion directive argument) := by
  unfold applyDirective
  cases directive with
  | includeFile => exact withstands argument session limit_eq
  | declareVariable | deferWord =>
      cases Reader.checkName argument with
      | error stop => exact .inr rfl
      | ok => exact .inr (changeDictionary_withLimit _)

/-- A form is loaded in the same way unless it needs a frame too many. -/
theorem withstands_loadForm
    (limit_eq : session.machine.limit = limit)
    (raised : limit.value ≤ later.value)
    (withstands : WithstandsRaise limit later inclusion)
    (fuel : Nat)
    (token : Token)
    (rest : List Token) :
    Withstands limit (·.withLimit later)
      (session.loadForm fuel inclusion token rest)
      ((session.withLimit later).loadForm fuel inclusion token rest) := by
  have dictionary_eq : (session.withLimit later).dictionary = session.dictionary := rfl
  unfold loadForm
  rw [dictionary_eq]
  split
  · split
    · exact .inr rfl
    · exact (withstands_define _ _).andThen fun _ _ _ => .inr rfl
  · split
    · exact .inr rfl
    · rename_i keyword _ directive argument _
      have noted_eq : (session.note (.directive keyword argument)).machine.limit = limit :=
        limit_eq
      have applied := withstands_applyDirective noted_eq withstands directive argument
      exact applied.andThen fun _ _ _ => .inr rfl
  · split
    · exact .inr rfl
    · rename_i value _ _
      have run := Machine.withstands_run limit_eq raised fuel [value]
      have dispatched : Withstands limit (·.withLimit later)
          (session.onMachine fun machine => machine.dispatch fuel value)
          ((session.withLimit later).onMachine fun machine => machine.dispatch fuel value) :=
        run.mapState fun _ => rfl
      exact dispatched.andThen fun _ _ _ => .inr rfl

/-- Tokens are loaded in the same way unless a form needs a frame too many. -/
theorem withstands_loadTokens
    (limit_eq : session.machine.limit = limit)
    (raised : limit.value ≤ later.value)
    (leaves : Leaves ambience inclusion)
    (withstands : WithstandsRaise limit later inclusion)
    (fuel : Nat)
    (tokens : List Token) :
    Withstands limit (·.withLimit later)
      (session.loadTokens fuel inclusion tokens)
      ((session.withLimit later).loadTokens fuel inclusion tokens) := by
  induction tokens using formInduction generalizing session with
  | nil =>
      rw [loadTokens_nil, loadTokens_nil]
      exact .inr rfl
  | cons token rest inductionHypothesis =>
      rw [loadTokens_cons, loadTokens_cons]
      refine (withstands_loadForm limit_eq raised withstands fuel token rest).andThen
        fun after remaining form_eq => ?_
      have ambience_eq : after.ambience = session.ambience :=
        (congrArg (·.state.ambience) form_eq).symm.trans
          (isAmbient_ambience.loadForm leaves token rest)
      have after_eq : after.machine.limit = limit :=
        (congrArg Ambience.limit ambience_eq).trans limit_eq
      have suffix := suffix_of_loadForm (congrArg Outcome.result form_eq)
      exact inductionHypothesis remaining suffix after_eq

theorem withstands_loadSource
    (limit_eq : session.machine.limit = limit)
    (raised : limit.value ≤ later.value)
    (leaves : Leaves ambience inclusion)
    (withstands : WithstandsRaise limit later inclusion)
    (fuel : Nat)
    (name : String)
    (tokens : List Token) :
    Withstands limit (·.withLimit later)
      (session.loadSource fuel inclusion name tokens)
      ((session.withLimit later).loadSource fuel inclusion name tokens) := by
  let inside := { session with source := some name }.note (.loading name tokens.length)
  have inside_eq : inside.machine.limit = limit := limit_eq
  have loaded := withstands_loadTokens inside_eq raised leaves withstands fuel tokens
  exact Outcome.Tracks.mapState (loaded.within name) fun _ => rfl

/-- Files are loaded in the same way, however deep includes nest. -/
theorem withstandsRaise_loadNested
    (raised : limit.value ≤ later.value)
    (environment : Environment)
    (nesting : Nat) :
    WithstandsRaise limit later (loadNested environment nesting) := by
  induction nesting with
  | zero => exact fun path session limit_eq => .inr rfl
  | succ nesting inductionHypothesis =>
      intro path session limit_eq
      have loading_eq : (session.withLimit later).loading = session.loading := rfl
      simp only [loadNested, loading_eq]
      split
      · exact .inr rfl
      · split
        · exact .inr rfl
        · rename_i tokens read_eq
          have leaves := isAmbient_ambience.includeBy environment.files
            (leaves_loadNested environment nesting)
          have included : WithstandsRaise limit later
              (includeBy environment.files (loadNested environment nesting)) :=
            fun included session limit_eq => inductionHypothesis _ _ limit_eq
          let address := Files.Path.address environment.files.home path
          let inside := { session with loading := address :: session.loading }
          have inside_eq : inside.machine.limit = limit := limit_eq
          have loaded := withstands_loadSource inside_eq raised leaves included
            environment.fuel path tokens
          exact Outcome.Tracks.mapState loaded fun _ => rfl

/-- Whatever is loaded or run, it is the same unless it needs a frame too many. -/
theorem withstands_carryOut
    (limit_eq : session.machine.limit = limit)
    (raised : limit.value ≤ later.value)
    (call : Call) :
    Withstands limit (·.withLimit later) (session.carryOut call)
      ((session.withLimit later).carryOut call) := by
  cases call with
  | execute environment name text =>
      simp only [carryOut, execute]
      split
      · exact .inr rfl
      · rename_i tokens _
        have nested := withstandsRaise_loadNested raised environment environment.nesting
        have leaves := isAmbient_ambience.includeBy environment.files
          (leaves_loadNested environment environment.nesting)
        have included : WithstandsRaise limit later
            (includeBy environment.files (loadNested environment environment.nesting)) :=
          fun included session limit_eq => nested _ _ limit_eq
        exact withstands_loadSource limit_eq raised leaves included environment.fuel name tokens
  | loadFile environment path =>
      exact withstandsRaise_loadNested raised environment environment.nesting path
        (session.note (.loadingFile path)) limit_eq
  | run fuel body =>
      exact (Machine.withstands_run limit_eq raised fuel body).mapState fun _ => rfl
  | dispatch fuel value =>
      exact (Machine.withstands_run limit_eq raised fuel [value]).mapState fun _ => rfl

end Loading

/--
What a session loads or runs without exceeding its limit on frames it loads or runs in the
same way under a higher limit.  It ends for the same reason, in the same source, and it
leaves the same stack, words, variables and printed text: all of the session but the limit.
-/
theorem carryOut_withLimit
    {session : Session}
    {later : DepthLimit}
    (raised : session.machine.limit.value ≤ later.value)
    (call : Call)
    (spared : (session.carryOut call).exceedsDepth session.machine.limit = false) :
    (session.withLimit later).carryOut call =
      (session.carryOut call).mapState (·.withLimit later) := by
  rcases withstands_carryOut rfl raised call with ⟨stop, excess, result_eq⟩ | carryOut_eq
  · simp [Outcome.exceedsDepth, result_eq, excess] at spared
  · exact carryOut_eq

/--
An included file divides by zero within two frames.  With room for one frame it does not
come to that; with room for more than two it fails as it does with room for two.
-/
theorem carryOut_withLimit_division :
    ∃ (session : Session) (call : Call),
      session.machine.limit.value = 2 ∧
      ((session.carryOut call).result matches
        .error (.failure ⟨.zeroDivisor 2, some "inner"⟩)) = true ∧
      ((session.withLimit ⟨1, Nat.one_pos⟩).carryOut call).exceedsDepth ⟨1, Nat.one_pos⟩ = true ∧
      (session.withLimit .standard).carryOut call =
        (session.carryOut call).mapState (·.withLimit .standard) := by
  let files := ((Files.Tree.empty []).put "outer" (.file ":include inner 1".toUTF8)).put "inner"
    (.file ": deep [ 2 0 / ] call 3 ; deep 4".toUTF8)
  let environment : Environment := ⟨files, 9⟩
  let session := start environment false ⟨2, Nat.two_pos⟩
  let call : Call := .loadFile environment "outer"
  have spared : (session.carryOut call).exceedsDepth session.machine.limit = false := by
    decide +kernel
  have raised : session.machine.limit.value ≤ DepthLimit.standard.value := by decide
  exact ⟨session, call, rfl, by decide +kernel, by decide +kernel,
    carryOut_withLimit raised call spared⟩

end Session
end Concatenative

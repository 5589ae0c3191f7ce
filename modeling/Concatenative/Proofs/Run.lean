import Concatenative.Machine.Basic
import Concatenative.Proofs.Effect

/-!
# Runs of the machine

A run takes steps until the frames it opened are gone.  This module says what one step
does to the frames, that a run which ends has the same outcome however many more steps
it is allowed, and that what every step preserves is preserved by runs.
-/

namespace Concatenative

namespace Outcome

variable {σ τ α β : Type}

/-- The operation was not cut short for lack of steps. -/
def Ended (outcome : Outcome σ α) : Prop :=
  outcome.result ≠ .error .exhausted

@[simp] theorem ended_done (state : σ) (result : α) : (done state result).Ended := by
  simp [Ended, done]

@[simp] theorem ended_stopped (state : σ) (stop : Stop) :
    (stopped state stop : Outcome σ α).Ended ↔ stop ≠ .exhausted := by
  simp [Ended, stopped]

@[simp] theorem ended_failed (state : σ) (cause : Error.Cause) :
    (failed state cause : Outcome σ α).Ended := by
  simp [failed, Stop.ofCause_ne_exhausted]

@[simp] theorem ended_mapState (outcome : Outcome σ α) (change : σ → τ) :
    (outcome.mapState change).Ended ↔ outcome.Ended :=
  Iff.rfl

@[simp] theorem mapState_done (state : σ) (result : α) (change : σ → τ) :
    (done state result).mapState change = done (change state) result := rfl

@[simp] theorem mapState_stopped (state : σ) (stop : Stop) (change : σ → τ) :
    (stopped state stop : Outcome σ α).mapState change = stopped (change state) stop := rfl

@[simp] theorem mapState_failed (state : σ) (cause : Error.Cause) (change : σ → τ) :
    (failed state cause : Outcome σ α).mapState change = failed (change state) cause := rfl

@[simp] theorem mapStop_done (state : σ) (result : α) (change : Stop → Stop) :
    (done state result).mapStop change = done state result := rfl

@[simp] theorem mapStop_stopped (state : σ) (stop : Stop) (change : Stop → Stop) :
    (stopped state stop : Outcome σ α).mapStop change = stopped state (change stop) := rfl

@[simp] theorem andThen_failed
    (state : σ)
    (cause : Error.Cause)
    (next : σ → α → Outcome σ β) :
    (failed state cause).andThen next = failed state cause := rfl

@[simp] theorem done_inj {first second : σ} {left right : α} :
    done first left = done second right ↔ first = second ∧ left = right := by
  simp [done]

@[simp] theorem stopped_inj {first second : σ} {left right : Stop} :
    (stopped first left : Outcome σ α) = stopped second right ↔
      first = second ∧ left = right := by
  simp [stopped]

@[simp] theorem stopped_ne_done (first second : σ) (stop : Stop) (result : α) :
    stopped first stop ≠ done second result := by
  simp [stopped, done]

@[simp] theorem failed_ne_done (first second : σ) (cause : Error.Cause) (result : α) :
    failed first cause ≠ done second result :=
  stopped_ne_done first second _ result

@[simp] theorem done_ne_stopped (first second : σ) (stop : Stop) (result : α) :
    done first result ≠ stopped second stop := by
  simp [stopped, done]

/-- The outcome without its result. -/
def void (outcome : Outcome σ α) : Outcome σ Unit :=
  ⟨outcome.state, outcome.result.map fun _ => ()⟩

@[simp] theorem void_done (state : σ) (result : α) :
    (done state result).void = done state () := rfl

@[simp] theorem void_stopped (state : σ) (stop : Stop) :
    (stopped state stop : Outcome σ α).void = stopped state stop := rfl

/-- An outcome is a result or a stop. -/
theorem done_or_stopped (outcome : Outcome σ α) :
    (∃ state result, outcome = done state result) ∨
      ∃ state stop, outcome = stopped state stop := by
  obtain ⟨state, result⟩ := outcome
  cases result with
  | error stop => exact .inr ⟨state, stop, rfl⟩
  | ok result => exact .inl ⟨state, result, rfl⟩

/-- Whether an operation was cut short does not hang on its result. -/
theorem Ended.void {outcome : Outcome σ α} (ended : outcome.Ended) : outcome.void.Ended := by
  rcases outcome.done_or_stopped with ⟨state, result, rfl⟩ | ⟨state, stop, rfl⟩
  · simp
  · simpa using ended

/-- The error that an operation stopped with, if it did. -/
def failure? (outcome : Outcome σ α) : Option Error.Failure :=
  match outcome.result with
  | .error (.failure failure) => some failure
  | _ => none

theorem failure?_eq_some_iff {outcome : Outcome σ α} {failure : Error.Failure} :
    outcome.failure? = some failure ↔ outcome.result = .error (.failure failure) := by
  unfold failure?
  split <;> simp_all

/-- What stopped with an error was not cut short. -/
theorem ended_of_isSome_failure?
    {outcome : Outcome σ α}
    (failed : outcome.failure?.isSome = true) :
    outcome.Ended := by
  intro cut
  simp [failure?, cut] at failed

/-- Two operations are not cut short one after the other if neither is. -/
theorem Ended.andThen
    {outcome : Outcome σ α}
    {next : σ → α → Outcome σ β}
    (ended : outcome.Ended)
    (goesOn : ∀ state result, (next state result).Ended) :
    (outcome.andThen next).Ended := by
  rcases outcome.done_or_stopped with ⟨state, result, rfl⟩ | ⟨state, stop, rfl⟩
  · exact goesOn state result
  · exact (ended_stopped state stop).mpr ((ended_stopped state stop).mp ended)

/-- What comes first in an operation that is not cut short is not cut short either. -/
theorem Ended.of_andThen
    {outcome : Outcome σ α}
    {next : σ → α → Outcome σ β}
    (ended : (outcome.andThen next).Ended) :
    outcome.Ended := by
  rcases outcome.done_or_stopped with ⟨state, result, rfl⟩ | ⟨state, stop, rfl⟩
  · exact ended_done state result
  · exact (ended_stopped state stop).mpr ((ended_stopped state stop).mp ended)

/-- Naming the source of a failure does not cut an operation short. -/
@[simp] theorem ended_within (outcome : Outcome σ α) (source : String) :
    (outcome.mapStop (Stop.within source)).Ended ↔ outcome.Ended := by
  rcases outcome.done_or_stopped with ⟨state, result, rfl⟩ | ⟨state, stop, rfl⟩
  · exact iff_of_true (ended_done state result) (ended_done state result)
  · cases stop <;> simp [Stop.within]

/-! ## Operations on shifted states -/

/--
Unless it stops for an excused reason, an operation ends on a shifted state as it does on
the state itself.
-/
def Tracks
    (excused : Stop → Prop)
    (shift : σ → σ)
    (alone shifted : Outcome σ α) : Prop :=
  (∃ stop, excused stop ∧ alone.result = .error stop) ∨ shifted = alone.mapState shift

section Tracks

variable {excused : Stop → Prop} {shift : σ → σ} {alone shifted : Outcome σ α}

theorem tracks_mapState (outcome : Outcome σ α) :
    Tracks excused shift outcome (outcome.mapState shift) :=
  .inr rfl

/-- What goes on in the same way from shifted states ends in the same way. -/
theorem Tracks.andThen
    {next nextShifted : σ → α → Outcome σ β}
    (tracks : Tracks excused shift alone shifted)
    (goesOn : ∀ state result, alone = done state result →
      Tracks excused shift (next state result) (nextShifted (shift state) result)) :
    Tracks excused shift (alone.andThen next) (shifted.andThen nextShifted) := by
  rcases alone.done_or_stopped with ⟨state, result, rfl⟩ | ⟨state, stop, rfl⟩
  · rcases tracks with ⟨stop, -, result_eq⟩ | rfl
    · simp [done] at result_eq
    · exact goesOn state result rfl
  · rcases tracks with ⟨reason, excuse, result_eq⟩ | rfl
    · exact .inl ⟨reason, excuse, congrArg Except.error (Except.error.inj result_eq)⟩
    · exact tracks_mapState (stopped state stop)

/-- A change of the state that commutes with the shift does not matter. -/
theorem Tracks.mapState
    {mapped : τ → τ}
    (tracks : Tracks excused shift alone shifted)
    {change : σ → τ}
    (commutes : ∀ state, change (shift state) = mapped (change state)) :
    Tracks excused mapped (alone.mapState change) (shifted.mapState change) := by
  rcases tracks with excuse | rfl
  · exact .inl excuse
  · exact .inr (congrArg (Outcome.mk · alone.result) (commutes alone.state))

/-- Naming the source of a failure does not matter if it does not matter to what is excused. -/
theorem Tracks.within
    (tracks : Tracks excused shift alone shifted)
    {source : String}
    (excuses : ∀ stop, excused stop → excused (stop.within source)) :
    Tracks excused shift
      (alone.mapStop (Stop.within source)) (shifted.mapStop (Stop.within source)) := by
  rcases tracks with ⟨stop, excuse, result_eq⟩ | rfl
  · refine .inl ⟨stop.within source, excuses stop excuse, ?_⟩
    rw [mapStop, result_eq]
    rfl
  · exact .inr rfl

end Tracks

/-! ## What operations keep -/

/--
The operation leaves a state with a property, and if it failed, the cause is one that the
state accounts for.
-/
def Keeps
    (holds : σ → Prop)
    (accounts : σ → Error.Cause → Prop)
    (outcome : Outcome σ α) : Prop :=
  holds outcome.state ∧
    ∀ failure, outcome.result = .error (.failure failure) →
      accounts outcome.state failure.cause

section Keeps

variable {holds : σ → Prop} {accounts : σ → Error.Cause → Prop} {state : σ}

theorem keeps_done (kept : holds state) (result : α) :
    (done state result).Keeps holds accounts :=
  ⟨kept, by simp [done]⟩

theorem keeps_stopped_iff {stop : Stop} :
    (stopped state stop : Outcome σ α).Keeps holds accounts ↔
      holds state ∧ ∀ failure, stop = .failure failure → accounts state failure.cause := by
  simp [Keeps, stopped]

theorem keeps_failed
    {cause : Error.Cause}
    (kept : holds state)
    (accounted : accounts state cause) :
    (failed state cause : Outcome σ α).Keeps holds accounts := by
  refine keeps_stopped_iff.mpr ⟨kept, fun failure stop_eq => ?_⟩
  rw [Stop.cause_of_ofCause_eq stop_eq]
  exact accounted

/-- What two operations keep, the one after the other keeps. -/
theorem Keeps.andThen
    {outcome : Outcome σ α}
    {next : σ → α → Outcome σ β}
    (first : outcome.Keeps holds accounts)
    (second : ∀ state result, holds state → (next state result).Keeps holds accounts) :
    (outcome.andThen next).Keeps holds accounts := by
  rcases outcome.done_or_stopped with ⟨state, result, rfl⟩ | ⟨state, stop, rfl⟩
  · exact second state result first.1
  · rw [andThen_stopped]
    exact keeps_stopped_iff.mpr (keeps_stopped_iff.mp first)

/-- What an operation keeps is kept of a state that holds the one operated on. -/
theorem Keeps.mapState
    {outcome : Outcome σ α}
    {holdsMapped : τ → Prop}
    {accountsMapped : τ → Error.Cause → Prop}
    {change : σ → τ}
    (kept : outcome.Keeps holds accounts)
    (holds_change : ∀ state, holds state → holdsMapped (change state))
    (accounts_change : ∀ state cause,
      accounts state cause → accountsMapped (change state) cause) :
    (outcome.mapState change).Keeps holdsMapped accountsMapped :=
  ⟨holds_change _ kept.1, fun failure failed_eq =>
    accounts_change _ _ (kept.2 failure failed_eq)⟩

/-- Naming the source of a failure does not change its cause. -/
theorem Keeps.within
    {outcome : Outcome σ α}
    (kept : outcome.Keeps holds accounts)
    (source : String) :
    (outcome.mapStop (Stop.within source)).Keeps holds accounts := by
  rcases outcome.done_or_stopped with ⟨state, result, rfl⟩ | ⟨state, stop, rfl⟩
  · exact keeps_done kept.1 result
  · refine keeps_stopped_iff.mpr ⟨kept.1, fun failure stop_eq => ?_⟩
    cases stop with
    | failure original =>
        simp only [Stop.within, Stop.failure.injEq] at stop_eq
        rw [← stop_eq]
        exact kept.2 original rfl
    | overlong excess | embeddedNul | leave | exhausted => simp [Stop.within] at stop_eq

/-- What an operation keeps does not hang on its result. -/
theorem Keeps.void
    {outcome : Outcome σ α}
    (kept : outcome.Keeps holds accounts) :
    outcome.void.Keeps holds accounts := by
  rcases outcome.done_or_stopped with ⟨state, result, rfl⟩ | ⟨state, stop, rfl⟩
  · exact keeps_done kept.1 ()
  · exact keeps_stopped_iff.mpr (keeps_stopped_iff.mp kept)

end Keeps

end Outcome

/-- No primitive is cut short. -/
theorem Primitive.ended_effect
    (primitive : Primitive)
    (workspace : Workspace) :
    (primitive.effect workspace).Ended := by
  have consequence := primitive.consequence_effect workspace
  generalize primitive.effect workspace = reaction at consequence ⊢
  cases consequence with
  | refused | undeclared | undivided => simp
  | rearranged | fetched | stored => simp [Workspace.settled]
  | called => simp
  | printed rest output result kept ended =>
      rcases ended with rfl | rfl <;> simp [Outcome.Ended]
  | left => simp

/--
A primitive fails because it refuses its operands, because the variable that it is given is
not declared, or because it is to divide by zero.
-/
theorem Primitive.cause_of_effect
    {primitive : Primitive}
    {workspace : Workspace}
    {failure : Error.Failure}
    (failed_eq : (primitive.effect workspace).result = .error (.failure failure)) :
    failure.cause.kind ∈ refusals ∨
      (∃ name, failure.cause = .undefinedVariable name ∧
        .variableRef name ∈ workspace.stack ∧
        workspace.dictionary.store.get? name = none) ∨
      ∃ dividend, failure.cause = .zeroDivisor dividend := by
  have consequence := primitive.consequence_effect workspace
  generalize primitive.effect workspace = reaction at consequence failed_eq
  cases consequence with
  | refused cause refused =>
      rw [Stop.cause_of_ofCause_eq (Except.error.inj failed_eq)]
      exact .inl refused
  | undeclared name present get_eq =>
      rw [Stop.cause_of_ofCause_eq (Except.error.inj failed_eq)]
      exact .inr (.inl ⟨name, rfl, present, get_eq⟩)
  | undivided dividend rest kept =>
      rw [Stop.cause_of_ofCause_eq (Except.error.inj failed_eq)]
      exact .inr (.inr ⟨dividend, rfl⟩)
  | printed rest output result kept ended =>
      rcases ended with rfl | rfl <;> simp at failed_eq
  | rearranged | fetched | stored => simp [Workspace.settled, Outcome.done] at failed_eq
  | called => simp [Outcome.done] at failed_eq
  | left => simp [Outcome.stopped] at failed_eq

namespace Workspace

section Reactions

variable {workspace : Workspace} {reference : WordRef}

/-- Every value but a reference to a word is pushed. -/
theorem react_of_datum
    {value : Value}
    (datum : ∀ reference, value ≠ .wordRef reference) :
    workspace.react value = .done (workspace.push value) [] := by
  unfold react
  split
  · rename_i reference
    exact absurd rfl (datum reference)
  · rfl

theorem react_of_unknown
    (entry_eq : workspace.dictionary.entry? reference.id = none) :
    workspace.react (.wordRef reference) =
      .failed workspace (.unknownWord reference.name) := by
  simp only [react, invoke, entry_eq]

theorem react_of_primitive
    {primitive : Primitive}
    (entry_eq : workspace.dictionary.entry? reference.id = some (.primitive primitive)) :
    workspace.react (.wordRef reference) = primitive.effect workspace := by
  simp only [react, invoke, entry_eq]

theorem react_of_pending
    {id : Nat}
    {word : Word}
    (entry_eq : workspace.dictionary.entry? reference.id = some (.compiled id word))
    (body_eq : word.body? reference.layer = none) :
    workspace.react (.wordRef reference) =
      .failed workspace (.neverDefined reference.name) := by
  simp only [react, invoke, entry_eq, body_eq]

theorem react_of_body
    {id : Nat}
    {word : Word}
    {body : Body}
    (entry_eq : workspace.dictionary.entry? reference.id = some (.compiled id word))
    (body_eq : word.body? reference.layer = some body) :
    workspace.react (.wordRef reference) = .done workspace body := by
  simp only [react, invoke, entry_eq, body_eq]

/-- What is handed over to be run is the content of a quotation or the body of a layer. -/
theorem handed_of_react
    {after : Workspace}
    {value : Value}
    {body : Body}
    (react_eq : workspace.react value = .done after body) :
    body = [] ∨
      ∃ reference, value = .wordRef reference ∧
        ((∃ primitive, workspace.dictionary.entry? reference.id = some (.primitive primitive) ∧
            primitive ∈ [.branch, .call] ∧ .quotation body ∈ workspace.stack) ∨
          ∃ id word, workspace.dictionary.entry? reference.id = some (.compiled id word) ∧
            word.body? reference.layer = some body) := by
  by_cases referred : ∃ reference, value = .wordRef reference
  · obtain ⟨reference, rfl⟩ := referred
    cases entry_eq : workspace.dictionary.entry? reference.id with
    | none => simp [react_of_unknown entry_eq] at react_eq
    | some entry =>
        cases entry with
        | primitive primitive =>
            rw [react_of_primitive entry_eq] at react_eq
            cases called_eq : primitive.called? workspace.stack with
            | none => exact .inl (Primitive.effect_of_not_called called_eq react_eq)
            | some called =>
                obtain ⟨quoted, -⟩ := Primitive.mem_stack_of_called called_eq
                rw [Primitive.effect_of_called called_eq, Outcome.done_inj] at react_eq
                rw [react_eq.2] at quoted
                exact .inr ⟨reference, rfl, .inl
                  ⟨primitive, entry_eq, Primitive.mem_callers_of_called called_eq, quoted⟩⟩
        | compiled id word =>
            cases body_eq : word.body? reference.layer with
            | none => simp [react_of_pending entry_eq body_eq] at react_eq
            | some found =>
                rw [react_of_body entry_eq body_eq, Outcome.done_inj] at react_eq
                obtain ⟨-, rfl⟩ := react_eq
                exact .inr ⟨reference, rfl, .inr ⟨id, word, entry_eq, body_eq⟩⟩
  · rw [react_of_datum fun reference value_eq => referred ⟨reference, value_eq⟩,
      Outcome.done_inj] at react_eq
    exact .inl react_eq.2.symm

end Reactions

end Workspace

namespace CallStack

@[simp] theorem depth_push (calls : CallStack) (frame : Frame) :
    (calls.push frame).depth = calls.depth + 1 := rfl

@[simp] theorem pop_push (calls : CallStack) (frame : Frame) :
    (calls.push frame).pop = calls := by
  ext1
  simp

/-- Taking the next value of the innermost frame drops the frame with its last value. -/
theorem take?_push
    (calls : CallStack)
    (cursor : Nat)
    (value : Value)
    (later : List Value) :
    (calls.push ⟨cursor, value :: later⟩).take? =
      some (value, if later.isEmpty then calls else calls.push ⟨cursor + 1, later⟩) := by
  simp [take?]

/-- What is taken is the next value of the innermost frame, which goes with its last value. -/
theorem exists_frame_of_take?
    {calls later : CallStack}
    {value : Value}
    (take_eq : calls.take? = some (value, later)) :
    ∃ cursor rest outer,
      calls.frames = ⟨cursor, value :: rest⟩ :: outer ∧
        (rest = [] ∧ later.frames = outer ∨
          rest ≠ [] ∧ later.frames = ⟨cursor + 1, rest⟩ :: outer) := by
  unfold take? at take_eq
  split at take_eq
  · rename_i cursor first rest outer frames_eq
    simp only [Option.some.injEq, Prod.mk.injEq] at take_eq
    obtain ⟨rfl, rfl⟩ := take_eq
    refine ⟨cursor, rest, outer, frames_eq, ?_⟩
    cases rest <;> simp [frames_eq]
  · simp at take_eq

/-- A frame above those that are kept does not matter. -/
theorem truncate_push
    {calls : CallStack}
    {base : Nat}
    (above : base ≤ calls.depth)
    (frame : Frame) :
    (calls.push frame).truncate base = calls.truncate base := by
  ext1
  rw [calls.depth_eq] at above
  simp [Nat.succ_sub above]

/-- All frames are kept. -/
@[simp] theorem truncate_depth (calls : CallStack) : calls.truncate calls.depth = calls := by
  ext1
  simp [calls.depth_eq]

end CallStack

namespace Machine

/-- The machine on another workspace. -/
def withWorkspace (machine : Machine) (workspace : Workspace) : Machine :=
  { machine with toWorkspace := workspace }

/-- The machine with a frame opened for values of which some are taken already. -/
def pushFrame (machine : Machine) (frame : Frame) : Machine :=
  { machine with calls := machine.calls.push frame }

/-- The machine with no more than a number of frames. -/
def unwind (machine : Machine) (base : Nat) : Machine :=
  { machine with calls := machine.calls.truncate base }

section Frames

variable (machine : Machine)

@[simp] theorem toWorkspace_withWorkspace (workspace : Workspace) :
    (machine.withWorkspace workspace).toWorkspace = workspace := rfl

@[simp] theorem calls_withWorkspace (workspace : Workspace) :
    (machine.withWorkspace workspace).calls = machine.calls := rfl

@[simp] theorem limit_withWorkspace (workspace : Workspace) :
    (machine.withWorkspace workspace).limit = machine.limit := rfl

@[simp] theorem toWorkspace_pushFrame (frame : Frame) :
    (machine.pushFrame frame).toWorkspace = machine.toWorkspace := rfl

@[simp] theorem calls_pushFrame (frame : Frame) :
    (machine.pushFrame frame).calls = machine.calls.push frame := rfl

@[simp] theorem limit_pushFrame (frame : Frame) :
    (machine.pushFrame frame).limit = machine.limit := rfl

@[simp] theorem withWorkspace_pushFrame (frame : Frame) (workspace : Workspace) :
    (machine.pushFrame frame).withWorkspace workspace =
      (machine.withWorkspace workspace).pushFrame frame := rfl

/-- A frame above those that are kept does not matter. -/
theorem unwind_pushFrame
    {base : Nat}
    (above : base ≤ machine.calls.depth)
    (frame : Frame) :
    (machine.pushFrame frame).unwind base = machine.unwind base := by
  simp [unwind, pushFrame, CallStack.truncate_push above]

/-- All frames are kept. -/
@[simp] theorem unwind_depth : machine.unwind machine.calls.depth = machine := by
  simp [unwind]

end Frames

section Steps

variable {machine : Machine}

@[simp] theorem enter_nil (machine : Machine) : machine.enter [] = .done machine () := rfl

/-- No frame is opened at the limit. -/
theorem enter_of_limit_le
    (reached : machine.limit.value ≤ machine.calls.depth)
    (first : Value)
    (later : List Value) :
    machine.enter (first :: later) =
      .failed machine (.depthExceeded machine.limit.value) := by
  simp [enter, reached]

/-- A frame is opened below the limit. -/
theorem enter_of_depth_lt
    (below : machine.calls.depth < machine.limit.value)
    (first : Value)
    (later : List Value) :
    machine.enter (first :: later) = .done (machine.pushFrame ⟨0, first :: later⟩) () := by
  simp [enter, Nat.not_le.mpr below, pushFrame, Frame.ofBody]

/-- A value that ends with a body to be run next has a frame opened for it. -/
theorem execute_of_done
    {value : Value}
    {workspace : Workspace}
    {body : Body}
    (react_eq : machine.toWorkspace.react value = .done workspace body) :
    machine.execute value = (machine.withWorkspace workspace).enter body := by
  simp only [execute, react_eq, Outcome.mapState_done, Outcome.andThen_done]
  rfl

/-- A value that stops stops the machine. -/
theorem execute_of_stopped
    {value : Value}
    {workspace : Workspace}
    {stop : Stop}
    (react_eq : machine.toWorkspace.react value = .stopped workspace stop) :
    machine.execute value = .stopped (machine.withWorkspace workspace) stop := by
  simp only [execute, react_eq, Outcome.mapState_stopped, Outcome.andThen_stopped]
  rfl

/-- A step takes the next value, and with the last value of a frame the frame. -/
theorem step_pushFrame
    (machine : Machine)
    (cursor : Nat)
    (value : Value)
    (later : List Value) :
    (machine.pushFrame ⟨cursor, value :: later⟩).step =
      (if later.isEmpty then machine else machine.pushFrame ⟨cursor + 1, later⟩).execute
        value := by
  simp only [step, calls_pushFrame, CallStack.take?_push]
  split <;> rfl

/-- A run is over when no frames are left above the base. -/
theorem runAbove_of_depth_le
    {base : Nat}
    (finished : machine.calls.depth ≤ base)
    (fuel : Nat) :
    machine.runAbove base fuel = .done machine () := by
  unfold runAbove
  rw [if_pos finished]

/-- A run that may take no step is cut short. -/
theorem runAbove_zero
    {base : Nat}
    (above : base < machine.calls.depth) :
    machine.runAbove base 0 = .stopped machine .exhausted := by
  unfold runAbove
  rw [if_neg (Nat.not_le.mpr above)]

/-- A run that is not over takes a step and goes on. -/
theorem runAbove_succ
    {base : Nat}
    (above : base < machine.calls.depth)
    (fuel : Nat) :
    machine.runAbove base (fuel + 1) =
      machine.step.andThen fun machine _ => machine.runAbove base fuel := by
  rw [runAbove, if_neg (Nat.not_le.mpr above)]

/-- A run of a body opens a frame for it and leaves no frame behind. -/
theorem run_eq
    (machine : Machine)
    (fuel : Nat)
    (body : Body) :
    machine.run fuel body =
      ((machine.enter body).andThen fun inside _ =>
        inside.runAbove machine.calls.depth fuel).mapState fun after =>
          after.unwind machine.calls.depth := rfl

end Steps

/-- A run that ends has the same outcome however many more steps it may take. -/
theorem runAbove_add_of_ended
    {base fuel : Nat}
    {machine : Machine}
    (ended : (machine.runAbove base fuel).Ended)
    (extra : Nat) :
    machine.runAbove base (fuel + extra) = machine.runAbove base fuel := by
  by_cases finished : machine.calls.depth ≤ base
  · rw [runAbove_of_depth_le finished, runAbove_of_depth_le finished]
  have above : base < machine.calls.depth := Nat.not_le.mp finished
  induction fuel generalizing machine with
  | zero => simp [runAbove_zero above] at ended
  | succ fuel inductionHypothesis =>
      rw [Nat.succ_add_eq_add_succ, Nat.add_succ, runAbove_succ above]
      rw [runAbove_succ above] at ended ⊢
      rcases machine.step.done_or_stopped with
        ⟨next, result, step_eq⟩ | ⟨next, stop, step_eq⟩
      · rw [step_eq] at ended ⊢
        simp only [Outcome.andThen_done] at ended ⊢
        by_cases nextOver : next.calls.depth ≤ base
        · rw [runAbove_of_depth_le nextOver, runAbove_of_depth_le nextOver]
        · exact inductionHypothesis ended nextOver (Nat.not_le.mp nextOver)
      · rw [step_eq, Outcome.andThen_stopped, Outcome.andThen_stopped]

/-- A run of a body that ends has the same outcome with more steps. -/
theorem run_add_of_ended
    {fuel : Nat}
    {machine : Machine}
    {body : Body}
    (ended : (machine.run fuel body).Ended)
    (extra : Nat) :
    machine.run (fuel + extra) body = machine.run fuel body := by
  rw [run_eq] at ended ⊢
  rw [run_eq]
  rcases (machine.enter body).done_or_stopped with
    ⟨inside, result, enter_eq⟩ | ⟨inside, stop, enter_eq⟩
  · rw [enter_eq] at ended ⊢
    simp only [Outcome.andThen_done, Outcome.ended_mapState] at ended ⊢
    rw [runAbove_add_of_ended ended]
  · rw [enter_eq, Outcome.andThen_stopped, Outcome.andThen_stopped]

/-- A run of a single value below the limit executes the value first. -/
theorem run_singleton
    {machine : Machine}
    (below : machine.calls.depth < machine.limit.value)
    (fuel : Nat)
    (value : Value) :
    machine.run (fuel + 1) [value] =
      ((machine.execute value).andThen fun next _ =>
        next.runAbove machine.calls.depth fuel).mapState fun after =>
          after.unwind machine.calls.depth := by
  rw [run_eq, enter_of_depth_lt below, Outcome.andThen_done, runAbove_succ (by simp),
    step_pushFrame]
  rfl

/-! ## What runs execute -/

/-- The primitive whose effect the next step has. -/
def primitive? (machine : Machine) : Option Primitive :=
  match machine.calls.take? with
  | some (.wordRef reference, _) =>
      match machine.dictionary.entry? reference.id with
      | some (.primitive primitive) => some primitive
      | _ => none
  | _ => none

/-- The primitives that are executed until no more than `base` frames are left, in order. -/
def executedAbove (base : Nat) (fuel : Nat) (machine : Machine) : List Primitive :=
  match fuel with
  | 0 => []
  | fuel + 1 =>
      if machine.calls.depth ≤ base then []
      else
        machine.primitive?.toList ++
          match machine.step with
          | ⟨next, .ok ()⟩ => executedAbove base fuel next
          | ⟨_, .error _⟩ => []

/-- The primitives that a run of a body executes, in order. -/
def executed (fuel : Nat) (machine : Machine) (body : Body) : List Primitive :=
  match machine.enter body with
  | ⟨inside, .ok ()⟩ => inside.executedAbove machine.calls.depth fuel
  | ⟨_, .error _⟩ => []

/-! ## What runs keep -/

section Runs

variable {holds : Machine → Prop} {accounts : Machine → Error.Cause → Prop}

/-- What every step keeps, a run keeps. -/
theorem keeps_runAbove
    (keeps_step : ∀ machine, holds machine → machine.step.Keeps holds accounts)
    {machine : Machine}
    (kept : holds machine)
    (base fuel : Nat) :
    (machine.runAbove base fuel).Keeps holds accounts := by
  induction fuel generalizing machine with
  | zero =>
      unfold runAbove
      split
      · exact Outcome.keeps_done kept ()
      · exact Outcome.keeps_stopped_iff.mpr ⟨kept, by simp⟩
  | succ fuel inductionHypothesis =>
      unfold runAbove
      split
      · exact Outcome.keeps_done kept ()
      · exact (keeps_step machine kept).andThen fun next _ nextKept =>
          inductionHypothesis nextKept

/-- What every step keeps, and the frame of a body and its removal, a run of it keeps. -/
theorem keeps_run
    (keeps_step : ∀ machine, holds machine → machine.step.Keeps holds accounts)
    {machine : Machine}
    {body : Body}
    (keeps_enter : (machine.enter body).Keeps holds accounts)
    (holds_unwind : ∀ machine base, holds machine → holds (machine.unwind base))
    (accounts_unwind : ∀ machine cause base,
      accounts machine cause → accounts (machine.unwind base) cause)
    (fuel : Nat) :
    (machine.run fuel body).Keeps holds accounts := by
  rw [run_eq]
  have within := keeps_enter.andThen fun inside _ kept =>
    keeps_runAbove keeps_step kept machine.calls.depth fuel
  exact within.mapState (fun after => holds_unwind after _)
    (fun after cause => accounts_unwind after cause _)

end Runs

end Machine
end Concatenative

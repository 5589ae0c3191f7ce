import Concatenative.Proofs.Run

/-!
# What runs pass through

A run may go on for ever, so what is true throughout a run is said of every machine that
the run passes through: between two steps, within a step when a value is taken and not yet
executed, and where a step stops.  What taking a value and taking a step keep is true of
all of them.

Two things are.  The frames below the run are not touched, so that a run leaves the call
stack as it found it, however it ends.  And the frames stay within the limit, each with a
value to be taken.
-/

namespace Concatenative
namespace Machine

/-! ## The machines of a run -/

/-- The machines that a machine passes through until no more than `base` frames are left. -/
inductive PassesAbove (base : Nat) : Machine → Machine → Prop
  | here {machine : Machine} : PassesAbove base machine machine
  /-- The next value is taken and not yet executed. -/
  | taken {machine : Machine} {value : Value} {calls : CallStack} :
      base < machine.calls.depth →
      machine.calls.take? = some (value, calls) →
      PassesAbove base machine { machine with calls }
  /-- A step leaves a machine behind however it ends. -/
  | left {machine : Machine} :
      base < machine.calls.depth →
      PassesAbove base machine machine.step.state
  | later {machine next visited : Machine} :
      base < machine.calls.depth →
      machine.step = .done next () →
      PassesAbove base next visited →
      PassesAbove base machine visited

/-- The machines that a run of a body passes through, before it drops the frames it opened. -/
inductive Passes (machine : Machine) (body : Body) : Machine → Prop
  | start : Passes machine body machine
  | entered {inside visited : Machine} :
      machine.enter body = .done inside () →
      inside.PassesAbove machine.calls.depth visited →
      Passes machine body visited

/-- What taking a value and taking a step keep is true throughout. -/
theorem PassesAbove.holds
    {holds : Machine → Prop}
    {base : Nat}
    {machine visited : Machine}
    (passes : machine.PassesAbove base visited)
    (held : holds machine)
    (keeps_taken : ∀ machine value calls, holds machine → base < machine.calls.depth →
      machine.calls.take? = some (value, calls) → holds { machine with calls })
    (keeps_step : ∀ machine, holds machine → base < machine.calls.depth →
      holds machine.step.state) :
    holds visited := by
  induction passes with
  | here => exact held
  | taken above take_eq => exact keeps_taken _ _ _ held above take_eq
  | left above => exact keeps_step _ held above
  | later above step_eq _ inductionHypothesis =>
      have nextHeld := keeps_step _ held above
      rw [step_eq] at nextHeld
      exact inductionHypothesis nextHeld

/-- A run that goes on above the base leaves a machine that it passes through. -/
theorem passesAbove_runAbove
    (machine : Machine)
    (base fuel : Nat) :
    machine.PassesAbove base (machine.runAbove base fuel).state := by
  induction fuel generalizing machine with
  | zero =>
      unfold runAbove
      split <;> exact .here
  | succ fuel inductionHypothesis =>
      by_cases finished : machine.calls.depth ≤ base
      · rw [runAbove_of_depth_le finished]
        exact .here
      · have above : base < machine.calls.depth := Nat.not_le.mp finished
        rw [runAbove_succ above]
        rcases machine.step.done_or_stopped with
          ⟨next, result, step_eq⟩ | ⟨next, stop, step_eq⟩
        · rw [step_eq, Outcome.andThen_done]
          exact .later above step_eq (inductionHypothesis next)
        · have stopped : PassesAbove base machine machine.step.state := .left above
          rw [step_eq] at stopped ⊢
          exact stopped

/-- A run that stops above the base does so at a step of a machine that it passes through. -/
theorem exists_passesAbove_of_runAbove
    {machine : Machine}
    {base fuel : Nat}
    {stop : Stop}
    (stopped : (machine.runAbove base fuel).result = .error stop)
    (ended : stop ≠ .exhausted) :
    ∃ visited : Machine, machine.PassesAbove base visited ∧ base < visited.calls.depth ∧
      visited.step.result = .error stop := by
  by_cases finished : machine.calls.depth ≤ base
  · rw [runAbove_of_depth_le finished] at stopped
    simp [Outcome.done] at stopped
  have above : base < machine.calls.depth := Nat.not_le.mp finished
  induction fuel generalizing machine with
  | zero =>
      rw [runAbove_zero above] at stopped
      exact absurd (Except.error.inj stopped).symm ended
  | succ fuel inductionHypothesis =>
      rw [runAbove_succ above] at stopped
      rcases machine.step.done_or_stopped with
        ⟨next, result, step_eq⟩ | ⟨next, inner, step_eq⟩
      · rw [step_eq, Outcome.andThen_done] at stopped
        by_cases nextOver : next.calls.depth ≤ base
        · rw [runAbove_of_depth_le nextOver] at stopped
          simp [Outcome.done] at stopped
        · obtain ⟨visited, passes, visits, step_stops⟩ :=
            inductionHypothesis stopped nextOver (Nat.not_le.mp nextOver)
          exact ⟨visited, .later above step_eq passes, visits, step_stops⟩
      · refine ⟨machine, .here, above, ?_⟩
        rw [step_eq] at stopped ⊢
        exact stopped

/-! ## What one step does to the frames -/

/-- Entering a body changes nothing, or opens a frame within the limit. -/
theorem calls_enter (machine : Machine) (body : Body) :
    (machine.enter body).state.calls = machine.calls ∨
      body ≠ [] ∧ machine.calls.depth < machine.limit.value ∧
        (machine.enter body).state.calls = machine.calls.push (.ofBody body) := by
  unfold enter
  split
  · exact .inl rfl
  · rename_i filled
    split
    · exact .inl rfl
    · rename_i below
      exact .inr ⟨by simpa using filled, Nat.not_le.mp below, rfl⟩

@[simp] theorem limit_enter (machine : Machine) (body : Body) :
    (machine.enter body).state.limit = machine.limit := by
  unfold enter
  split
  · rfl
  · split <;> rfl

/-- Executing a value leaves the frames alone, or opens one within the limit. -/
theorem calls_execute (machine : Machine) (value : Value) :
    (machine.execute value).state.calls = machine.calls ∨
      ∃ body, body ≠ [] ∧ machine.calls.depth < machine.limit.value ∧
        (machine.execute value).state.calls = machine.calls.push (.ofBody body) := by
  rcases (machine.toWorkspace.react value).done_or_stopped with
    ⟨workspace, body, react_eq⟩ | ⟨workspace, stop, react_eq⟩
  · rw [execute_of_done react_eq]
    exact ((machine.withWorkspace workspace).calls_enter body).imp_right fun opened =>
      ⟨body, opened⟩
  · rw [execute_of_stopped react_eq]
    exact .inl rfl

@[simp] theorem limit_execute (machine : Machine) (value : Value) :
    (machine.execute value).state.limit = machine.limit := by
  rcases (machine.toWorkspace.react value).done_or_stopped with
    ⟨workspace, body, react_eq⟩ | ⟨workspace, stop, react_eq⟩
  · rw [execute_of_done react_eq, limit_enter]
    rfl
  · rw [execute_of_stopped react_eq]
    rfl

/-- A step is no step, or takes a value and executes it. -/
theorem step_cases (machine : Machine) :
    (machine.calls.take? = none ∧ machine.step = .done machine ()) ∨
      ∃ value calls, machine.calls.take? = some (value, calls) ∧
        machine.step = { machine with calls }.execute value := by
  unfold step
  cases take_eq : machine.calls.take? with
  | none => exact .inl ⟨rfl, rfl⟩
  | some taken => exact .inr ⟨taken.1, taken.2, rfl, rfl⟩

/-! ## The frames below a run -/

section Below

variable {machine : Machine} {outer : List Frame} {limit : DepthLimit}

/-- Given frames are the outermost ones, and the limit is a given one. -/
structure RunsAbove (outer : List Frame) (limit : DepthLimit) (machine : Machine) : Prop where
  outer_suffix : outer <:+ machine.calls.frames
  limit_eq : machine.limit = limit

/-- A value that is taken above the outer frames leaves them alone. -/
theorem RunsAbove.take?
    (runs : machine.RunsAbove outer limit)
    (above : outer.length < machine.calls.depth)
    {value : Value}
    {calls : CallStack}
    (take_eq : machine.calls.take? = some (value, calls)) :
    RunsAbove outer limit { machine with calls } := by
  refine ⟨?_, runs.limit_eq⟩
  obtain ⟨cursor, rest, others, frames_eq, later⟩ := CallStack.exists_frame_of_take? take_eq
  have suffix := runs.outer_suffix
  rw [machine.calls.depth_eq, frames_eq, List.length_cons] at above
  rw [frames_eq, List.suffix_cons_iff] at suffix
  have kept : outer <:+ others := by
    rcases suffix with same | kept
    · have length_eq := congrArg List.length same
      rw [List.length_cons] at length_eq
      omega
    · exact kept
  rcases later with ⟨-, later_eq⟩ | ⟨-, later_eq⟩
  · simp only [later_eq, kept]
  · simp only [later_eq]
    exact kept.trans (List.suffix_cons _ others)

/-- A frame that a value opens is above the outer frames. -/
theorem RunsAbove.execute
    (runs : machine.RunsAbove outer limit)
    (value : Value) :
    (machine.execute value).state.RunsAbove outer limit := by
  refine ⟨?_, by rw [limit_execute, runs.limit_eq]⟩
  rcases machine.calls_execute value with same | ⟨body, -, -, opened⟩
  · rw [same]
    exact runs.outer_suffix
  · rw [opened]
    exact runs.outer_suffix.trans (List.suffix_cons _ _)

/-- A step above the outer frames leaves them alone. -/
theorem RunsAbove.step
    (runs : machine.RunsAbove outer limit)
    (above : outer.length < machine.calls.depth) :
    machine.step.state.RunsAbove outer limit := by
  rcases machine.step_cases with ⟨-, step_eq⟩ | ⟨value, calls, take_eq, step_eq⟩
  · rw [step_eq]
    exact runs
  · rw [step_eq]
    exact (runs.take? above take_eq).execute value

/-- A run that goes on above the outer frames leaves them alone. -/
theorem RunsAbove.passesAbove
    (runs : machine.RunsAbove outer limit)
    {visited : Machine}
    (passes : machine.PassesAbove outer.length visited) :
    visited.RunsAbove outer limit :=
  passes.holds runs (fun _ _ _ runs above take_eq => runs.take? above take_eq)
    fun _ runs above => runs.step above

/-- Entering a body opens a frame above those that are there. -/
theorem runsAbove_enter (machine : Machine) (body : Body) :
    (machine.enter body).state.RunsAbove machine.calls.frames machine.limit := by
  refine ⟨?_, limit_enter machine body⟩
  rcases machine.calls_enter body with same | ⟨-, -, opened⟩
  · simp only [same, List.suffix_rfl]
  · rw [opened]
    exact List.suffix_cons _ _

/-- Dropping the frames above the outer ones leaves the outer ones. -/
theorem RunsAbove.calls_unwind
    {calls : CallStack}
    (runs : machine.RunsAbove calls.frames limit) :
    (machine.unwind calls.depth).calls = calls := by
  obtain ⟨inner, frames_eq⟩ := runs.outer_suffix
  ext1
  rw [unwind, CallStack.frames_truncate, calls.depth_eq, ← frames_eq, List.length_append,
    Nat.add_sub_cancel, List.drop_left]

/-- Before it drops the frames it opened, a run has those that were there below them. -/
theorem runsAbove_before_unwind
    (machine : Machine)
    (fuel : Nat)
    (body : Body) :
    ((machine.enter body).andThen fun inside _ =>
      inside.runAbove machine.calls.depth fuel).state.RunsAbove machine.calls.frames
        machine.limit := by
  have entered := machine.runsAbove_enter body
  rcases (machine.enter body).done_or_stopped with
    ⟨inside, result, enter_eq⟩ | ⟨inside, stop, enter_eq⟩
  · rw [enter_eq] at entered ⊢
    have passes := inside.passesAbove_runAbove machine.calls.depth fuel
    rw [machine.calls.depth_eq] at passes ⊢
    exact entered.passesAbove passes
  · rw [enter_eq] at entered ⊢
    exact entered

/-- However it ends, a run leaves the frames that were there, with what is left of each. -/
@[simp] theorem calls_run (machine : Machine) (fuel : Nat) (body : Body) :
    (machine.run fuel body).state.calls = machine.calls :=
  (machine.runsAbove_before_unwind fuel body).calls_unwind

@[simp] theorem limit_run (machine : Machine) (fuel : Nat) (body : Body) :
    (machine.run fuel body).state.limit = machine.limit :=
  (machine.runsAbove_before_unwind fuel body).limit_eq

end Below

/-! ## Sound frames -/

section Soundness

variable {machine : Machine}

/--
There are no more frames than the limit allows, and in each there is a value to be taken,
so that no frame is that of an empty body or of a body that is done.
-/
structure IsSound (machine : Machine) : Prop where
  depth_le : machine.calls.depth ≤ machine.limit.value
  cursor_lt : ∀ frame ∈ machine.calls.frames, frame.cursor < frame.size

/-- Nothing but the frames and the limit matters. -/
theorem IsSound.of_eq
    (sound : machine.IsSound)
    {other : Machine}
    (calls_eq : other.calls = machine.calls)
    (limit_eq : other.limit = machine.limit) :
    other.IsSound := by
  refine ⟨?_, ?_⟩
  · rw [calls_eq, limit_eq]
    exact sound.depth_le
  · rw [calls_eq]
    exact sound.cursor_lt

theorem isSound_initial (limit : DepthLimit) : (initial limit).IsSound :=
  ⟨Nat.zero_le _, by simp [initial]⟩

/-- A frame opened within the limit is sound if its body is not empty. -/
theorem IsSound.push
    (sound : machine.IsSound)
    {other : Machine}
    {body : Body}
    (filled : body ≠ [])
    (below : machine.calls.depth < machine.limit.value)
    (opened : other.calls = machine.calls.push (.ofBody body))
    (limit_eq : other.limit = machine.limit) :
    other.IsSound := by
  refine ⟨?_, fun frame present => ?_⟩
  · rw [opened, limit_eq]
    exact below
  · rw [opened, CallStack.frames_push, List.mem_cons] at present
    rcases present with rfl | outer
    · simpa [Frame.size, Frame.ofBody, List.length_pos_iff] using filled
    · exact sound.cursor_lt frame outer

theorem IsSound.enter (sound : machine.IsSound) (body : Body) :
    (machine.enter body).state.IsSound := by
  rcases machine.calls_enter body with same | ⟨filled, below, opened⟩
  · exact sound.of_eq same (limit_enter machine body)
  · exact sound.push filled below opened (limit_enter machine body)

theorem IsSound.execute (sound : machine.IsSound) (value : Value) :
    (machine.execute value).state.IsSound := by
  rcases machine.calls_execute value with same | ⟨body, filled, below, opened⟩
  · exact sound.of_eq same (limit_execute machine value)
  · exact sound.push filled below opened (limit_execute machine value)

/-- A frame is dropped with its last value, so the frames that remain are sound. -/
theorem IsSound.take?
    (sound : machine.IsSound)
    {value : Value}
    {calls : CallStack}
    (take_eq : machine.calls.take? = some (value, calls)) :
    IsSound { machine with calls } := by
  obtain ⟨cursor, rest, outer, frames_eq, later⟩ := CallStack.exists_frame_of_take? take_eq
  have depth_le := sound.depth_le
  rw [machine.calls.depth_eq, frames_eq, List.length_cons] at depth_le
  have outerSound : ∀ frame ∈ outer, frame.cursor < frame.size := fun frame present =>
    sound.cursor_lt frame (by simp [frames_eq, present])
  rcases later with ⟨-, later_eq⟩ | ⟨filled, later_eq⟩
  · refine ⟨?_, by simpa only [later_eq] using outerSound⟩
    rw [calls.depth_eq, later_eq]
    exact Nat.le_of_succ_le depth_le
  · refine ⟨?_, ?_⟩
    · rw [calls.depth_eq, later_eq, List.length_cons]
      exact depth_le
    · simp only [later_eq, List.forall_mem_cons]
      exact ⟨by simpa [Frame.size, List.length_pos_iff] using filled, outerSound⟩

theorem IsSound.step (sound : machine.IsSound) : machine.step.state.IsSound := by
  rcases machine.step_cases with ⟨-, step_eq⟩ | ⟨value, calls, take_eq, step_eq⟩
  · rw [step_eq]
    exact sound
  · rw [step_eq]
    exact (sound.take? take_eq).execute value

/-- The frames of a sound machine stay sound throughout a run. -/
theorem IsSound.passes
    (sound : machine.IsSound)
    {body : Body}
    {visited : Machine}
    (passes : machine.Passes body visited) :
    visited.IsSound := by
  cases passes with
  | start => exact sound
  | entered enter_eq passesAbove =>
      have entered := sound.enter body
      rw [enter_eq] at entered
      exact passesAbove.holds entered (fun _ _ _ sound _ take_eq => sound.take? take_eq)
        fun _ sound _ => sound.step

end Soundness

end Machine
end Concatenative

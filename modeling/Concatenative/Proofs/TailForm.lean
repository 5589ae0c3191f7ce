import Concatenative.Proofs.Alike
import Concatenative.Proofs.Passage

/-!
# Calls in tail position

A frame is dropped with its last value, before that value is executed.  So a call that
comes last in a body takes the place of the frame it is made from, and a body nests only
by the calls that come earlier.

A leaf calls nothing: it holds values that are pushed and primitives that do not call.  A
body is in tail form if what calls anything but a leaf comes last in it.  Where all bodies
and quotations are in tail form, a run has at most two frames above those that were there,
one for a body in tail form and one for a leaf called from it, however long it goes on.
-/

namespace Concatenative

namespace Dictionary

/-! ## Tail form -/

section TailForm

variable (dictionary : Dictionary)

/-- The value is pushed, or it is a primitive that does not call. -/
def isPlain : Value → Bool
  | .wordRef reference =>
      match dictionary.entry? reference.id with
      | some (.primitive primitive) => primitive ∉ [.branch, .call]
      | some (.compiled _ _) | none => false
  | _ => true

/-- A body that calls nothing. -/
def isLeaf (body : Body) : Bool :=
  body.all dictionary.isPlain

/-- The value is a primitive that calls, or it leads to a layer that is not a leaf. -/
def nests : Value → Bool
  | .wordRef reference =>
      match dictionary.entry? reference.id with
      | some (.primitive primitive) => primitive ∈ [.branch, .call]
      | some (.compiled _ word) =>
          match word.body? reference.layer with
          | some body => !dictionary.isLeaf body
          | none => false
      | none => false
  | _ => false

/-- What nests comes last. -/
def isTailForm (body : Body) : Bool :=
  body.dropLast.all fun value => !dictionary.nests value

/-- The value is no quotation, or its content is in tail form. -/
def hasTailForm : Value → Bool
  | .quotation content => dictionary.isTailForm content
  | _ => true

/-- All quotations that occur in a value are in tail form, the value itself included. -/
def IsTailFormed (value : Value) : Prop :=
  ∀ part : Value, part.Within value → dictionary.hasTailForm part = true

instance : DecidablePred dictionary.IsTailFormed :=
  Value.decideWithin fun part => dictionary.hasTailForm part = true

/-- The moves of a run make no quotations. -/
theorem discipline_isTailFormed : Discipline dictionary.IsTailFormed dictionary.IsTailFormed :=
  discipline_within fun value made => by
    rcases made with ⟨truth, rfl⟩ | ⟨number, rfl⟩ <;> rfl

end TailForm

variable {dictionary : Dictionary} {value : Value} {rest : List Value}

theorem nests_of_isPlain (plain : dictionary.isPlain value = true) :
    dictionary.nests value = false := by
  cases value with
  | wordRef reference =>
      simp only [isPlain] at plain
      split at plain
      · rename_i entry_eq
        simp only [nests, entry_eq]
        simpa using plain
      · simp at plain
      · simp at plain
  | nil | bool _ | int _ | text _ | variableRef _ | quotation _ => rfl

theorem isLeaf_cons :
    dictionary.isLeaf (value :: rest) = true ↔
      dictionary.isPlain value = true ∧ dictionary.isLeaf rest = true := by
  simp [isLeaf]

/-- A value that is not the last one of a body in tail form does not nest. -/
theorem isTailForm_cons (more : rest ≠ []) :
    dictionary.isTailForm (value :: rest) = true ↔
      dictionary.nests value = false ∧ dictionary.isTailForm rest = true := by
  simp [isTailForm, List.dropLast_cons_of_ne_nil more]

namespace IsTailFormed

theorem isTailForm (formed : dictionary.IsTailFormed (.quotation rest)) :
    dictionary.isTailForm rest = true :=
  formed _ .self

/-- What a body holds is formed as the body is. -/
theorem of_mem
    (formed : dictionary.IsTailFormed (.quotation rest))
    (present : value ∈ rest) :
    dictionary.IsTailFormed value :=
  fun part within => formed part (.inside present within)

theorem nil : dictionary.IsTailFormed (.quotation []) :=
  Value.forall_within_quotation rfl (by simp)

/-- A body stays in tail form as values are taken from it. -/
theorem tail (formed : dictionary.IsTailFormed (.quotation (value :: rest))) :
    dictionary.IsTailFormed (.quotation rest) := by
  refine Value.forall_within_quotation ?_ fun member present =>
    formed.of_mem (List.mem_cons_of_mem value present)
  by_cases last : rest = []
  · subst last
    rfl
  · exact ((isTailForm_cons last).mp formed.isTailForm).2

end IsTailFormed

/-! ## Frames of bodies in tail form -/

/--
At most the frame of a body in tail form and above it that of a leaf, innermost first.
-/
inductive IsShallow (dictionary : Dictionary) : List Frame → Prop
  | none : IsShallow dictionary []
  | one {frame : Frame} :
      dictionary.IsTailFormed (.quotation frame.pending) →
      IsShallow dictionary [frame]
  | two {leaf frame : Frame} :
      dictionary.isLeaf leaf.pending = true →
      dictionary.IsTailFormed (.quotation leaf.pending) →
      dictionary.IsTailFormed (.quotation frame.pending) →
      IsShallow dictionary [leaf, frame]

/-- Frames are shallow, and a value taken from them calls what they leave room for. -/
inductive LeavesRoom (dictionary : Dictionary) (value : Value) : List Frame → Prop
  | forAny : LeavesRoom dictionary value []
  | forLeaf {frame : Frame} :
      dictionary.IsTailFormed (.quotation frame.pending) →
      dictionary.nests value = false →
      LeavesRoom dictionary value [frame]
  | forNone {leaf frame : Frame} :
      dictionary.isLeaf leaf.pending = true →
      dictionary.IsTailFormed (.quotation leaf.pending) →
      dictionary.IsTailFormed (.quotation frame.pending) →
      dictionary.isPlain value = true →
      LeavesRoom dictionary value [leaf, frame]

section Frames

variable {inner outer : List Frame}

theorem IsShallow.length_le (shallow : dictionary.IsShallow inner) : inner.length ≤ 2 := by
  cases shallow <;> simp

theorem LeavesRoom.isShallow (room : dictionary.LeavesRoom value inner) :
    dictionary.IsShallow inner := by
  cases room with
  | forAny => exact .none
  | forLeaf formed _ => exact .one formed
  | forNone leaf leafFormed formed _ => exact .two leaf leafFormed formed

/-- What is taken from shallow frames is in tail form, as all in them is. -/
theorem IsShallow.isTailFormed_next
    {cursor : Nat}
    (shallow : dictionary.IsShallow (⟨cursor, value :: rest⟩ :: inner)) :
    dictionary.IsTailFormed value := by
  cases shallow with
  | one formed => exact formed.of_mem List.mem_cons_self
  | two _ leafFormed _ => exact leafFormed.of_mem List.mem_cons_self

/-- The last value of a frame is executed without the frame. -/
theorem IsShallow.leavesRoom_of_last
    {cursor : Nat}
    (shallow : dictionary.IsShallow (⟨cursor, [value]⟩ :: inner)) :
    dictionary.LeavesRoom value inner := by
  cases shallow with
  | one _ => exact .forAny
  | two leaf _ formed => exact .forLeaf formed (nests_of_isPlain (isLeaf_cons.mp leaf).1)

/-- Any other value is executed above what is left of its frame. -/
theorem IsShallow.leavesRoom_of_more
    {cursor : Nat}
    (shallow : dictionary.IsShallow (⟨cursor, value :: rest⟩ :: inner))
    (more : rest ≠ [])
    (later : Nat) :
    dictionary.LeavesRoom value (⟨later, rest⟩ :: inner) := by
  cases shallow with
  | one formed => exact .forLeaf formed.tail ((isTailForm_cons more).mp formed.isTailForm).1
  | two leaf leafFormed formed =>
      obtain ⟨plain, leafRest⟩ := isLeaf_cons.mp leaf
      exact .forNone leafRest leafFormed.tail formed plain

/-- A body opened in the room that is left leaves the frames shallow. -/
theorem LeavesRoom.push
    (room : dictionary.LeavesRoom value inner)
    {body : Body}
    (filled : body ≠ [])
    (formed : dictionary.IsTailFormed (.quotation body))
    (leaf : dictionary.nests value = false → dictionary.isLeaf body = true)
    (empty : dictionary.isPlain value = true → body = []) :
    inner.length ≤ 1 ∧ dictionary.IsShallow (.ofBody body :: inner) := by
  cases room with
  | forAny => exact ⟨by simp, .one formed⟩
  | forLeaf outerFormed flat => exact ⟨by simp, .two (leaf flat) formed outerFormed⟩
  | forNone _ _ _ plain => exact absurd (empty plain) filled

end Frames

end Dictionary

/-! ## What values hand over -/

namespace Workspace

variable {workspace after : Workspace} {value : Value} {body : Body}

/-- All that a workspace holds is in tail form: values, variables and the bodies of words. -/
structure IsTailFormed (workspace : Workspace) : Prop where
  stack : ∀ value ∈ workspace.stack, workspace.dictionary.IsTailFormed value
  store : ∀ binding ∈ workspace.dictionary.store.bindings,
    workspace.dictionary.IsTailFormed binding.2
  bodies : ∀ word ∈ workspace.dictionary.words, ∀ body, some body ∈ word.layers →
    workspace.dictionary.IsTailFormed (.quotation body)

section Handed

variable {dictionary : Dictionary}

/-- A plain value hands nothing over. -/
theorem eq_nil_of_isPlain
    (same : dictionary.SameNames workspace.dictionary)
    (react_eq : workspace.react value = .done after body)
    (plain : dictionary.isPlain value = true) :
    body = [] := by
  rcases handed_of_react react_eq with empty | ⟨reference, rfl, called | defined⟩
  · exact empty
  · obtain ⟨primitive, entry_eq, calls, -⟩ := called
    rw [same.entry?_eq] at entry_eq
    simp only [Dictionary.isPlain, entry_eq, decide_eq_true_eq] at plain
    exact absurd calls plain
  · obtain ⟨id, word, entry_eq, -⟩ := defined
    rw [same.entry?_eq] at entry_eq
    simp [Dictionary.isPlain, entry_eq] at plain

/-- A value that does not nest hands no more than a leaf over. -/
theorem isLeaf_of_nests_eq_false
    (same : dictionary.SameNames workspace.dictionary)
    (react_eq : workspace.react value = .done after body)
    (flat : dictionary.nests value = false) :
    dictionary.isLeaf body = true := by
  rcases handed_of_react react_eq with rfl | ⟨reference, rfl, called | defined⟩
  · rfl
  · obtain ⟨primitive, entry_eq, calls, -⟩ := called
    rw [same.entry?_eq] at entry_eq
    simp only [Dictionary.nests, entry_eq, decide_eq_false_iff_not] at flat
    exact absurd calls flat
  · obtain ⟨id, word, entry_eq, body_eq⟩ := defined
    rw [same.entry?_eq] at entry_eq
    simpa [Dictionary.nests, entry_eq, body_eq] using flat

/-- What is handed over is in tail form if quotations and bodies are. -/
theorem isTailFormed_handed
    (same : dictionary.SameNames workspace.dictionary)
    (bodies : ∀ word ∈ dictionary.words, ∀ body, some body ∈ word.layers →
      dictionary.IsTailFormed (.quotation body))
    (stack : ∀ value ∈ workspace.stack, dictionary.IsTailFormed value)
    (react_eq : workspace.react value = .done after body) :
    dictionary.IsTailFormed (.quotation body) := by
  rcases handed_of_react react_eq with rfl | ⟨reference, rfl, called | defined⟩
  · exact .nil
  · obtain ⟨primitive, -, -, quoted⟩ := called
    exact stack _ quoted
  · obtain ⟨id, word, entry_eq, body_eq⟩ := defined
    rw [same.entry?_eq] at entry_eq
    obtain ⟨index, -, -, word_eq⟩ := Dictionary.entry?_eq_compiled_iff.mp entry_eq
    exact bodies word (List.mem_of_getElem? word_eq) body (Word.mem_layers_of_body? body_eq)

end Handed

/-- Executing a value does not itself exceed the depth of calls. -/
theorem kind_ne_of_react_eq_error
    {failure : Error.Failure}
    (failed_eq : (workspace.react value).result = .error (.failure failure)) :
    failure.cause.kind ≠ .callDepthExceeded := by
  unfold react at failed_eq
  split at failed_eq
  · unfold invoke at failed_eq
    split at failed_eq
    · rw [Stop.cause_of_ofCause_eq (Except.error.inj failed_eq)]
      simp [Error.Cause.kind]
    · rcases Primitive.cause_of_effect failed_eq with
        refused | ⟨name, cause_eq, -⟩ | ⟨dividend, cause_eq⟩
      · intro kind_eq
        simp [kind_eq, Primitive.refusals] at refused
      · rw [cause_eq]
        simp [Error.Cause.kind]
      · rw [cause_eq]
        simp [Error.Cause.kind]
    · split at failed_eq
      · rw [Stop.cause_of_ofCause_eq (Except.error.inj failed_eq)]
        simp [Error.Cause.kind]
      · simp [Outcome.done] at failed_eq
  · simp [settled, Outcome.done] at failed_eq

end Workspace

namespace Machine

/-! ## Runs in tail form -/

/-- The machine has come from a start where all is in tail form by running such code. -/
structure StaysFormed (start machine : Machine) : Prop where
  formed : start.toWorkspace.IsTailFormed
  sameNames : start.dictionary.SameNames machine.dictionary
  carries : machine.toWorkspace.Carries start.dictionary.IsTailFormed
    start.dictionary.IsTailFormed
  limit_eq : machine.limit = start.limit

/-- The frames above those of the start are shallow as well. -/
structure StaysShallow (start machine : Machine) : Prop extends StaysFormed start machine where
  frames : ∃ inner, machine.calls.frames = inner ++ start.calls.frames ∧
    start.dictionary.IsShallow inner

/-- With room for two frames above the start, the cause is not the depth of calls. -/
def IsSpared (start _machine : Machine) (cause : Error.Cause) : Prop :=
  start.calls.depth + 2 ≤ start.limit.value → cause.kind ≠ .callDepthExceeded

section Runs

variable {start machine : Machine}

theorem StaysFormed.refl (formed : start.toWorkspace.IsTailFormed) : StaysFormed start start where
  formed := formed
  sameNames := .refl _
  carries :=
    { stack := formed.stack
      store := formed.store
      bodies := fun word inWords body inLayers _ =>
        (formed.bodies word inWords body inLayers).of_mem }
  limit_eq := rfl

/-- Nothing is asked of the frames. -/
theorem StaysFormed.withCalls (stays : StaysFormed start machine) (calls : CallStack) :
    StaysFormed start { machine with calls } :=
  ⟨stays.formed, stays.sameNames, stays.carries, stays.limit_eq⟩

theorem StaysShallow.depth_le (stays : StaysShallow start machine) :
    machine.calls.depth ≤ start.calls.depth + 2 := by
  obtain ⟨inner, frames_eq, shallow⟩ := stays.frames
  have inner_le := shallow.length_le
  rw [machine.calls.depth_eq, start.calls.depth_eq, frames_eq, List.length_append]
  omega

/-- Entering a body for which there is room leaves the frames shallow. -/
theorem StaysFormed.enter
    (stays : StaysFormed start machine)
    {inner : List Frame}
    (frames_eq : machine.calls.frames = inner ++ start.calls.frames)
    (shallow : start.dictionary.IsShallow inner)
    {body : Body}
    (opens : body ≠ [] →
      inner.length ≤ 1 ∧ start.dictionary.IsShallow (.ofBody body :: inner)) :
    (machine.enter body).Keeps (StaysShallow start) (IsSpared start) := by
  have kept : StaysShallow start machine := ⟨stays, inner, frames_eq, shallow⟩
  cases body with
  | nil => exact Outcome.keeps_done kept ()
  | cons first later =>
      obtain ⟨inner_le, opened⟩ := opens (List.cons_ne_nil first later)
      rcases Nat.lt_or_ge machine.calls.depth machine.limit.value with below | reached
      · rw [enter_of_depth_lt below]
        refine Outcome.keeps_done ⟨stays.withCalls _, _, ?_, opened⟩ ()
        simp [frames_eq, Frame.ofBody]
      · rw [enter_of_limit_le reached]
        -- At most one frame is open above the start, so there is no room for two.
        refine Outcome.keeps_failed kept fun room => ?_
        rw [machine.calls.depth_eq, frames_eq, List.length_append, stays.limit_eq] at reached
        rw [start.calls.depth_eq] at room
        omega

/-- Executing a value for which there is room leaves the frames shallow. -/
theorem StaysFormed.execute
    (stays : StaysFormed start machine)
    {inner : List Frame}
    (frames_eq : machine.calls.frames = inner ++ start.calls.frames)
    {value : Value}
    (formed : start.dictionary.IsTailFormed value)
    (room : start.dictionary.LeavesRoom value inner) :
    (machine.execute value).Keeps (StaysShallow start) (IsSpared start) := by
  obtain ⟨carries, -⟩ := stays.carries.react start.dictionary.discipline_isTailFormed formed
  have same := stays.sameNames.trans (machine.toWorkspace.sameNames_react value)
  rcases (machine.toWorkspace.react value).done_or_stopped with
    ⟨workspace, body, react_eq⟩ | ⟨workspace, stop, react_eq⟩
  · rw [react_eq] at carries same
    rw [execute_of_done react_eq]
    have reacted : StaysFormed start (machine.withWorkspace workspace) :=
      ⟨stays.formed, same, carries, stays.limit_eq⟩
    refine reacted.enter frames_eq room.isShallow fun filled => room.push filled ?_ ?_ ?_
    · exact Workspace.isTailFormed_handed stays.sameNames stays.formed.bodies stays.carries.stack
        react_eq
    · exact Workspace.isLeaf_of_nests_eq_false stays.sameNames react_eq
    · exact Workspace.eq_nil_of_isPlain stays.sameNames react_eq
  · have failed := @Workspace.kind_ne_of_react_eq_error machine.toWorkspace value
    rw [react_eq] at carries same failed
    rw [execute_of_stopped react_eq]
    refine Outcome.keeps_stopped_iff.mpr ⟨⟨⟨stays.formed, same, carries, stays.limit_eq⟩,
      inner, frames_eq, room.isShallow⟩, fun failure stop_eq _ => ?_⟩
    exact failed (congrArg Except.error stop_eq)

/-- A value taken above the start is in tail form and finds room above what is left. -/
theorem StaysShallow.take?
    (stays : StaysShallow start machine)
    (above : start.calls.depth < machine.calls.depth)
    {value : Value}
    {calls : CallStack}
    (take_eq : machine.calls.take? = some (value, calls)) :
    start.dictionary.IsTailFormed value ∧
      ∃ inner, calls.frames = inner ++ start.calls.frames ∧
        start.dictionary.LeavesRoom value inner := by
  obtain ⟨cursor, rest, outer, taken_eq, later⟩ := CallStack.exists_frame_of_take? take_eq
  obtain ⟨inner, frames_eq, shallow⟩ := stays.frames
  cases inner with
  | nil =>
      rw [start.calls.depth_eq, machine.calls.depth_eq, frames_eq] at above
      exact absurd above (Nat.lt_irrefl _)
  | cons frame inner =>
      rw [taken_eq, List.cons_append, List.cons.injEq] at frames_eq
      obtain ⟨rfl, rfl⟩ := frames_eq
      refine ⟨shallow.isTailFormed_next, ?_⟩
      rcases later with ⟨rfl, later_eq⟩ | ⟨more, later_eq⟩
      · exact ⟨inner, later_eq, shallow.leavesRoom_of_last⟩
      · exact ⟨_ :: inner, later_eq, shallow.leavesRoom_of_more more (cursor + 1)⟩

/-- A step above the start leaves the frames shallow. -/
theorem StaysShallow.step
    (stays : StaysShallow start machine)
    (above : start.calls.depth < machine.calls.depth) :
    machine.step.Keeps (StaysShallow start) (IsSpared start) := by
  rcases machine.step_cases with ⟨-, step_eq⟩ | ⟨value, calls, take_eq, step_eq⟩
  · rw [step_eq]
    exact Outcome.keeps_done stays ()
  · rw [step_eq]
    obtain ⟨formed, inner, frames_eq, room⟩ := stays.take? above take_eq
    exact (stays.withCalls calls).execute frames_eq formed room

/-- Frames stay shallow throughout a run above the start. -/
theorem StaysShallow.passesAbove
    (stays : StaysShallow start machine)
    {visited : Machine}
    (passes : machine.PassesAbove start.calls.depth visited) :
    StaysShallow start visited := by
  refine passes.holds stays (fun machine value calls stays above take_eq => ?_)
    fun machine stays above => (stays.step above).1
  obtain ⟨-, inner, frames_eq, room⟩ := stays.take? above take_eq
  exact ⟨stays.withCalls calls, inner, frames_eq, room.isShallow⟩

/-- The body of a run finds room above the start. -/
theorem keeps_enter_of_isTailFormed
    (formed : start.toWorkspace.IsTailFormed)
    {body : Body}
    (bodyFormed : start.dictionary.IsTailFormed (.quotation body)) :
    (start.enter body).Keeps (StaysShallow start) (IsSpared start) :=
  StaysFormed.enter (.refl formed) rfl .none fun _ => ⟨by simp, .one bodyFormed⟩

end Runs

/--
Where all bodies and quotations are in tail form, a run has at most two frames above those
that were there, at any time and however long it goes on.  So it does not exceed the limit
on frames if there is room for two.
-/
theorem depth_le_of_isTailFormed
    {machine : Machine}
    (formed : machine.toWorkspace.IsTailFormed)
    {body : Body}
    (bodyFormed : machine.dictionary.IsTailFormed (.quotation body)) :
    (∀ visited, machine.Passes body visited →
      visited.calls.depth ≤ machine.calls.depth + 2) ∧
    (machine.calls.depth + 2 ≤ machine.limit.value →
      ∀ fuel failure, (machine.run fuel body).result = .error (.failure failure) →
        failure.cause.kind ≠ .callDepthExceeded) := by
  have entered := keeps_enter_of_isTailFormed formed bodyFormed
  constructor
  · intro visited passes
    cases passes with
    | start => exact Nat.le_add_right _ 2
    | entered enter_eq passesAbove =>
        rw [enter_eq] at entered
        exact (entered.1.passesAbove passesAbove).depth_le
  · intro room fuel failure failed_eq
    rw [run_eq] at failed_eq
    rcases (machine.enter body).done_or_stopped with
      ⟨inside, result, enter_eq⟩ | ⟨inside, stop, enter_eq⟩
    · rw [enter_eq] at entered failed_eq
      obtain ⟨visited, passes, above, step_eq⟩ :=
        exists_passesAbove_of_runAbove failed_eq (by simp)
      exact ((entered.1.passesAbove passes).step above).2 failure step_eq room
    · rw [enter_eq] at entered failed_eq
      exact entered.2 failure failed_eq room

/-- With a limit of two frames, a word that calls itself last counts down from thirty. -/
theorem depth_le_of_isTailFormed_countdown :
    ∃ (machine : Machine) (body : Body),
      machine.toWorkspace.IsTailFormed ∧
      machine.dictionary.IsTailFormed (.quotation body) ∧
      machine.limit.value = 2 ∧
      ((machine.run 400 body).result matches .ok ()) = true ∧
      (∀ visited, machine.Passes body visited → visited.calls.depth ≤ 2) ∧
      ∀ fuel failure, (machine.run fuel body).result = .error (.failure failure) →
        failure.cause.kind ≠ .callDepthExceeded := by
  let word (primitive : Primitive) : Value := .wordRef ⟨primitive.id, primitive.name, 0⟩
  let lower : Body := [.int 1, word .subtract]
  let again : Body := [.wordRef ⟨1, "lower", 0⟩, .wordRef ⟨2, "count", 0⟩]
  let count : Body :=
    [.int 0, word .pick, .int 0, word .equals, .quotation [], .quotation again, word .branch]
  let defined := (Dictionary.initial.define "lower" lower).bind (·.define "count" count)
  let machine := { initial ⟨2, by decide⟩ with dictionary := defined.toOption.getD .initial }
  let body : Body := [.int 30, .wordRef ⟨2, "count", 0⟩]
  have formed : machine.toWorkspace.IsTailFormed := by
    have store_eq : machine.dictionary.store = .empty := rfl
    have words_eq : machine.dictionary.words =
        [⟨"lower", [some lower]⟩, ⟨"count", [some count]⟩] := rfl
    refine ⟨by simp [machine, initial], by simp [store_eq, Table.empty], ?_⟩
    have each : ∀ body ∈ [lower, count], machine.dictionary.IsTailFormed (.quotation body) := by
      decide +kernel
    intro word inWords body inLayers
    refine each body ?_
    simp only [words_eq, List.mem_cons, List.not_mem_nil, or_false] at inWords ⊢
    rcases inWords with rfl | rfl
    · exact .inl (by simpa using inLayers)
    · exact .inr (by simpa using inLayers)
  have bodyFormed : machine.dictionary.IsTailFormed (.quotation body) := by decide +kernel
  obtain ⟨depth_le, spared⟩ := depth_le_of_isTailFormed formed bodyFormed
  exact ⟨machine, body, formed, bodyFormed, rfl, by decide +kernel, depth_le,
    spared (Nat.le_refl 2)⟩

end Machine
end Concatenative

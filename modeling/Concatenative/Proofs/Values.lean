import Concatenative.Proofs.Dictionary
import Concatenative.Proofs.Run

/-!
# Where values are kept

Values are kept on the stack, in variables, in frames and in the bodies of words, and in
the quotations among them to any depth.  Those on the stack and in variables are data;
those in frames and bodies are code, which runs.  A run makes no values but truth values
and integers, moves data between the stack and the variables, turns code into data by
pushing it, and turns the content of a quotation into code by calling it.  So whatever
these moves respect holds of all values throughout a run.

A run changes the contents of variables, and nothing else of the dictionary.
-/

namespace Concatenative

/-- A value occurs in another, which it is or which holds it in a quotation. -/
inductive Value.Within (part : Value) : Value → Prop
  | self : Within part part
  | inside {value : Value} {content : List Value} :
      value ∈ content →
      Within part value →
      Within part (.quotation content)

/-- What occurs in a part occurs in the whole. -/
theorem Value.Within.trans
    {inner part whole : Value}
    (deeper : inner.Within part)
    (within : part.Within whole) :
    inner.Within whole := by
  induction within with
  | self => exact deeper
  | inside present _ inductionHypothesis => exact .inside present inductionHypothesis

/-- What holds of a value that holds no other holds of all that occurs in it. -/
theorem Value.forall_within_of_atomic
    {holds : Value → Prop}
    {value : Value}
    (held : holds value)
    (atomic : ∀ content, value ≠ .quotation content) :
    ∀ part : Value, part.Within value → holds part := by
  intro part within
  cases within with
  | self => exact held
  | inside present deeper => exact absurd rfl (atomic _)

/-- What holds of a quotation and of all in its content holds of all that occurs in it. -/
theorem Value.forall_within_quotation
    {holds : Value → Prop}
    {content : List Value}
    (held : holds (.quotation content))
    (inside : ∀ value ∈ content, ∀ part : Value, part.Within value → holds part) :
    ∀ part : Value, part.Within (.quotation content) → holds part := by
  intro part within
  cases within with
  | self => exact held
  | inside present deeper => exact inside _ present part deeper

namespace Value

variable (holds : Value → Prop) [DecidablePred holds]

mutual

/-- Decides whether something holds of all that occurs in a value. -/
def decideWithin : (value : Value) → Decidable (∀ part : Value, part.Within value → holds part)
  | .quotation content =>
      match decideWithinEach content with
      | .isTrue inside =>
          decidable_of_iff (holds (.quotation content))
            ⟨fun held => forall_within_quotation held inside, fun all => all _ .self⟩
      | .isFalse outside =>
          .isFalse fun all =>
            outside fun _ present part within => all part (.inside present within)
  | .nil | .bool _ | .int _ | .text _ | .variableRef _ | .wordRef _ =>
      decidable_of_iff (holds _)
        ⟨fun held => forall_within_of_atomic held nofun, fun all => all _ .self⟩

/-- Decides whether something holds of all that occurs in the values of a sequence. -/
def decideWithinEach :
    (content : List Value) →
      Decidable (∀ value ∈ content, ∀ part : Value, part.Within value → holds part)
  | [] => .isTrue nofun
  | value :: rest =>
      have _ := decideWithin value
      have _ := decideWithinEach rest
      decidable_of_iff
        ((∀ part : Value, part.Within value → holds part) ∧
          ∀ member ∈ rest, ∀ part : Value, part.Within member → holds part)
        (by rw [List.forall_mem_cons])

end

end Value

/-! ## Integers within the limit -/

/-- No integer in a value is over the limit on numerals. -/
def Value.IsShort (value : Value) : Prop :=
  ∀ number, (Value.int number).Within value → Numeral.isWritable number = true

namespace Value

mutual

theorem isDisplayable_iff : (value : Value) → (value.isDisplayable = true ↔ value.IsShort)
  | .int number => by
      refine ⟨fun writable shown within => ?_, fun short => short number .self⟩
      cases within with
      | self => exact writable
  | .quotation content => by
      rw [isDisplayable, allDisplayable_iff content]
      refine ⟨fun short number within => ?_, fun short value present number within =>
        short number (.inside present within)⟩
      cases within with
      | inside present deeper => exact short _ present number deeper
  | .nil | .bool _ | .text _ | .variableRef _ | .wordRef _ => ⟨fun _ _ => nofun, fun _ => rfl⟩

theorem allDisplayable_iff :
    (values : List Value) → (allDisplayable values = true ↔ ∀ value ∈ values, value.IsShort)
  | [] => ⟨fun _ => nofun, fun _ => rfl⟩
  | value :: rest => by
      rw [allDisplayable, Bool.and_eq_true, isDisplayable_iff value, allDisplayable_iff rest,
        List.forall_mem_cons]

end

instance : DecidablePred IsShort :=
  fun value => decidable_of_iff _ value.isDisplayable_iff

end Value

/-! ## Dictionaries with the same names -/

/-- The dictionaries have the same words and the same variables, whatever their contents. -/
structure Dictionary.SameNames (dictionary later : Dictionary) : Prop where
  words_eq : later.words = dictionary.words
  contains_eq : ∀ name, later.store.contains name = dictionary.store.contains name

namespace Dictionary.SameNames

variable {dictionary later : Dictionary}

theorem refl (dictionary : Dictionary) : SameNames dictionary dictionary :=
  ⟨rfl, fun _ => rfl⟩

theorem trans
    {last : Dictionary}
    (first : SameNames dictionary later)
    (second : SameNames later last) :
    SameNames dictionary last :=
  ⟨second.words_eq.trans first.words_eq,
    fun name => (second.contains_eq name).trans (first.contains_eq name)⟩

theorem index_eq (same : SameNames dictionary later) : later.index = dictionary.index := by
  rw [later.index_eq, dictionary.index_eq, same.words_eq]

/-- The words are the same under the same names. -/
theorem lookup_eq (same : SameNames dictionary later) (name : String) :
    later.lookup name = dictionary.lookup name := by
  rw [lookup, lookup, same.index_eq]

theorem entry?_eq (same : SameNames dictionary later) (id : Int) :
    later.entry? id = dictionary.entry? id := by
  unfold entry?
  rw [same.index_eq]

/-- Contents of variables do not matter for a dictionary to be well formed. -/
theorem wellFormed
    (same : SameNames dictionary later)
    (wellFormed : dictionary.WellFormed) :
    later.WellFormed where
  store_apart name declared := by
    rw [same.contains_eq] at declared
    rw [Dictionary.contains_eq, same.lookup_eq, ← Dictionary.contains_eq]
    exact wellFormed.store_apart name declared

end Dictionary.SameNames

/-! ## The moves of a run -/

/-- What may be data and what may be code, as far as the moves of a run go. -/
structure Discipline (datum code : Value → Prop) : Prop where
  made : ∀ value, Primitive.IsMade value → datum value
  pushed : ∀ value, code value → (∀ reference, value ≠ .wordRef reference) → datum value
  opened : ∀ content, datum (.quotation content) → ∀ value ∈ content, code value

/-- What holds of all that occurs in a value is respected if it holds of what is made. -/
theorem discipline_within
    {holds : Value → Prop}
    (made : ∀ value, Primitive.IsMade value → holds value) :
    Discipline (fun value => ∀ part : Value, part.Within value → holds part)
      fun value => ∀ part : Value, part.Within value → holds part where
  made value isMade := by
    refine Value.forall_within_of_atomic (made value isMade) fun content => ?_
    rcases isMade with ⟨truth, rfl⟩ | ⟨number, rfl⟩ <;> simp
  pushed value held _ := held
  opened content held value present part within := held part (.inside present within)

namespace Workspace

/-- All values of a workspace are data or code where they are kept. -/
structure Carries (datum code : Value → Prop) (workspace : Workspace) : Prop where
  stack : ∀ value ∈ workspace.stack, datum value
  store : ∀ binding ∈ workspace.dictionary.store.bindings, datum binding.2
  bodies : ∀ word ∈ workspace.dictionary.words, ∀ body, some body ∈ word.layers →
    ∀ value ∈ body, code value

variable {datum code : Value → Prop} {workspace : Workspace}

theorem Carries.imp
    (carries : workspace.Carries datum code)
    {laterDatum laterCode : Value → Prop}
    (datum_imp : ∀ value, datum value → laterDatum value)
    (code_imp : ∀ value, code value → laterCode value) :
    workspace.Carries laterDatum laterCode where
  stack value present := datum_imp value (carries.stack value present)
  store binding present := datum_imp binding.2 (carries.store binding present)
  bodies word inWords body inLayers value present :=
    code_imp value (carries.bodies word inWords body inLayers value present)

/-- A workspace with the same dictionary and another stack. -/
theorem Carries.withStack
    (carries : workspace.Carries datum code)
    {stack : List Value}
    (kept : ∀ value ∈ stack, datum value)
    (output : String) :
    Carries datum code { workspace with stack, output } :=
  { carries with stack := kept }

/-- A primitive respects where values are kept, and hands nothing but code over. -/
theorem Carries.effect
    (discipline : Discipline datum code)
    (carries : workspace.Carries datum code)
    (primitive : Primitive) :
    (primitive.effect workspace).state.Carries datum code ∧
      ∀ body, (primitive.effect workspace).result = .ok body → ∀ value ∈ body, code value := by
  have consequence := primitive.consequence_effect workspace
  generalize primitive.effect workspace = reaction at consequence ⊢
  cases consequence with
  | refused | undeclared | left =>
      exact ⟨carries, by simp [Outcome.failed, Outcome.stopped]⟩
  | undivided dividend rest kept =>
      refine ⟨carries.withStack (fun value present => ?_) _, by
        simp [Outcome.failed, Outcome.stopped]⟩
      exact carries.stack value (kept present)
  | rearranged stack origin =>
      refine ⟨carries.withStack (fun value present => ?_) _, by simp [settled, Outcome.done]⟩
      rcases origin value present with old | made
      · exact carries.stack value old
      · exact discipline.made value made
  | fetched name content rest stack_eq get_eq =>
      refine ⟨carries.withStack (fun value present => ?_) _, by simp [settled, Outcome.done]⟩
      rcases List.mem_cons.mp present with rfl | old
      · exact carries.store (name, value) (Store.mem_of_get? get_eq)
      · exact carries.stack value (by simp [stack_eq, old])
  | stored name content rest _ stack_eq declared =>
      refine ⟨⟨fun value present => ?_, fun binding present => ?_, carries.bodies⟩, by
        simp [settled, Outcome.done]⟩
      · have below : value ∈ rest := present
        exact carries.stack value (by simp [stack_eq, below])
      · rcases Store.mem_bindings_set present with old | content_eq
        · exact carries.store binding old
        · rw [content_eq]
          exact carries.stack content (by simp [stack_eq])
  | called content rest called_eq =>
      obtain ⟨quoted, kept⟩ := Primitive.mem_stack_of_called called_eq
      refine ⟨carries.withStack (fun value present => ?_) _, fun body body_eq => ?_⟩
      · exact carries.stack value (kept present)
      · simp only [Outcome.done, Except.ok.injEq] at body_eq
        exact body_eq ▸ discipline.opened content (carries.stack _ quoted)
  | printed rest output result kept ended =>
      refine ⟨carries.withStack (fun value present => ?_) _, fun body body_eq => ?_⟩
      · exact carries.stack value (kept present)
      · rcases ended with rfl | rfl
        · simp only [Except.ok.injEq] at body_eq
          simp [← body_eq]
        · simp at body_eq

/-- Executing code respects where values are kept, and hands nothing but code over. -/
theorem Carries.react
    (discipline : Discipline datum code)
    (carries : workspace.Carries datum code)
    {value : Value}
    (coded : code value) :
    (workspace.react value).state.Carries datum code ∧
      ∀ body, (workspace.react value).result = .ok body → ∀ member ∈ body, code member := by
  unfold Workspace.react
  split
  · rename_i reference
    unfold invoke
    split
    · exact ⟨carries, by simp [Outcome.failed, Outcome.stopped]⟩
    · rename_i primitive entry_eq
      exact carries.effect discipline primitive
    · rename_i number word entry_eq
      split
      · exact ⟨carries, by simp [Outcome.failed, Outcome.stopped]⟩
      · rename_i body body_eq
        obtain ⟨index, -, -, word_eq⟩ := Dictionary.entry?_eq_compiled_iff.mp entry_eq
        refine ⟨carries, fun found found_eq => ?_⟩
        simp only [Outcome.done, Except.ok.injEq] at found_eq
        subst found_eq
        exact carries.bodies word (List.mem_of_getElem? word_eq) body
          (Word.mem_layers_of_body? body_eq)
  · rename_i datum_shape
    refine ⟨carries.withStack (fun member present => ?_) _, by simp [settled, Outcome.done]⟩
    rcases List.mem_cons.mp present with rfl | old
    · exact discipline.pushed member coded datum_shape
    · exact carries.stack member old

/-- Executing a value changes the contents of variables only. -/
theorem sameNames_react (workspace : Workspace) (value : Value) :
    workspace.dictionary.SameNames (workspace.react value).state.dictionary := by
  unfold react
  split
  · unfold invoke
    split
    · exact .refl _
    · rename_i primitive entry_eq
      have consequence := primitive.consequence_effect workspace
      generalize primitive.effect workspace = reaction at consequence ⊢
      cases consequence with
      | stored name content rest _ stack_eq declared =>
          exact ⟨rfl, fun other => Store.contains_set content⟩
      | refused | undeclared | undivided | rearranged | fetched | called | printed | left =>
          exact .refl _
    · split <;> exact .refl _
  · exact .refl _

end Workspace

namespace Machine

variable {datum code : Value → Prop} {machine : Machine}

/-! ## Steps -/

@[simp] theorem toWorkspace_enter (machine : Machine) (body : Body) :
    (machine.enter body).state.toWorkspace = machine.toWorkspace := by
  unfold enter
  split
  · rfl
  · split <;> rfl

/-- Executing a value leaves the workspace that the value leaves. -/
theorem toWorkspace_execute (machine : Machine) (value : Value) :
    (machine.execute value).state.toWorkspace = (machine.toWorkspace.react value).state := by
  rcases (machine.toWorkspace.react value).done_or_stopped with
    ⟨workspace, body, react_eq⟩ | ⟨workspace, stop, react_eq⟩
  · rw [execute_of_done react_eq, toWorkspace_enter, react_eq]
    rfl
  · rw [execute_of_stopped react_eq, react_eq]
    rfl

/-- A value that stops the machine stops itself or needs a frame too many. -/
theorem stop_of_execute
    {value : Value}
    {stop : Stop}
    (execute_eq : (machine.execute value).result = .error stop) :
    (machine.toWorkspace.react value).result = .error stop ∨
      stop = .ofCause (.depthExceeded machine.limit.value) := by
  rcases (machine.toWorkspace.react value).done_or_stopped with
    ⟨workspace, body, react_eq⟩ | ⟨workspace, inner, react_eq⟩
  · rw [execute_of_done react_eq] at execute_eq
    unfold enter at execute_eq
    split at execute_eq
    · simp [Outcome.done] at execute_eq
    · split at execute_eq
      · right
        simpa [Outcome.failed, Outcome.stopped, eq_comm] using execute_eq
      · simp [Outcome.done] at execute_eq
  · left
    rw [execute_of_stopped react_eq] at execute_eq
    rw [react_eq]
    simpa [Outcome.stopped] using execute_eq

/-- A step changes the contents of variables only. -/
theorem sameNames_step (machine : Machine) :
    machine.dictionary.SameNames machine.step.state.dictionary := by
  unfold step
  split
  · exact .refl _
  · rename_i value calls take_eq
    rw [toWorkspace_execute]
    exact Workspace.sameNames_react _ value

/-- A run changes the contents of variables only. -/
theorem sameNames_run (machine : Machine) (fuel : Nat) (body : Body) :
    machine.dictionary.SameNames (machine.run fuel body).state.dictionary := by
  let same (later : Machine) : Prop := machine.dictionary.SameNames later.dictionary
  let anyCause (_ : Machine) (_ : Error.Cause) : Prop := True
  have keeps_step : ∀ later, same later → later.step.Keeps same anyCause :=
    fun later held => ⟨held.trans later.sameNames_step, fun _ _ => trivial⟩
  have keeps_enter : (machine.enter body).Keeps same anyCause := by
    refine ⟨?_, fun _ _ => trivial⟩
    simp only [same, toWorkspace_enter]
    exact .refl _
  exact (keeps_run keeps_step keeps_enter (fun _ _ held => held) (fun _ _ _ _ => trivial)
    fuel).1

/-! ## Values during a run -/

/-- All values of a machine are data or code where they are kept. -/
structure Carries (datum code : Value → Prop) (machine : Machine) : Prop where
  workspace : machine.toWorkspace.Carries datum code
  frames : ∀ frame ∈ machine.calls.frames, ∀ value ∈ frame.pending, code value

theorem Carries.imp
    (carries : machine.Carries datum code)
    {laterDatum laterCode : Value → Prop}
    (datum_imp : ∀ value, datum value → laterDatum value)
    (code_imp : ∀ value, code value → laterCode value) :
    machine.Carries laterDatum laterCode where
  workspace := carries.workspace.imp datum_imp code_imp
  frames frame inFrames value present :=
    code_imp value (carries.frames frame inFrames value present)

/-- Entering code respects where values are kept. -/
theorem Carries.enter
    (carries : machine.Carries datum code)
    {body : Body}
    (coded : ∀ value ∈ body, code value) :
    (machine.enter body).state.Carries datum code := by
  refine ⟨by rw [toWorkspace_enter]; exact carries.workspace, ?_⟩
  unfold Machine.enter
  split
  · exact carries.frames
  · split
    · exact carries.frames
    · intro frame present
      rcases List.mem_cons.mp present with rfl | outer
      · exact coded
      · exact carries.frames frame outer

/-- Executing code respects where values are kept. -/
theorem Carries.execute
    (discipline : Discipline datum code)
    (carries : machine.Carries datum code)
    {value : Value}
    (coded : code value) :
    (machine.execute value).state.Carries datum code := by
  obtain ⟨left, handed⟩ := carries.workspace.react discipline coded
  rcases (machine.toWorkspace.react value).done_or_stopped with
    ⟨workspace, body, react_eq⟩ | ⟨workspace, stop, react_eq⟩
  · rw [react_eq] at left handed
    rw [execute_of_done react_eq]
    have inside : (machine.withWorkspace workspace).Carries datum code :=
      ⟨left, carries.frames⟩
    exact inside.enter (handed body rfl)
  · rw [react_eq] at left
    rw [execute_of_stopped react_eq]
    exact ⟨left, carries.frames⟩

/-- The value that a step takes is code, and so are those that remain. -/
theorem Carries.take?
    (carries : machine.Carries datum code)
    {value : Value}
    {calls : CallStack}
    (take_eq : machine.calls.take? = some (value, calls)) :
    code value ∧ Carries datum code { machine with calls } := by
  obtain ⟨cursor, rest, outer, frames_eq, later⟩ := CallStack.exists_frame_of_take? take_eq
  have taken : ∀ member ∈ value :: rest, code member :=
    carries.frames ⟨cursor, value :: rest⟩ (by simp [frames_eq])
  have outside : ∀ frame ∈ outer, ∀ member ∈ frame.pending, code member :=
    fun frame present => carries.frames frame (by simp [frames_eq, present])
  refine ⟨taken value List.mem_cons_self, carries.workspace, fun frame present => ?_⟩
  rcases later with ⟨-, later_eq⟩ | ⟨-, later_eq⟩
  · rw [later_eq] at present
    exact outside frame present
  · rw [later_eq, List.mem_cons] at present
    rcases present with rfl | inOuter
    · exact fun member inRest => taken member (List.mem_cons_of_mem value inRest)
    · exact outside frame inOuter

/-- A step respects where values are kept. -/
theorem Carries.step
    (discipline : Discipline datum code)
    (carries : machine.Carries datum code) :
    machine.step.state.Carries datum code := by
  unfold Machine.step
  split
  · exact carries
  · rename_i value calls take_eq
    obtain ⟨coded, remaining⟩ := carries.take? take_eq
    exact remaining.execute discipline coded

/-- Dropping frames respects where values are kept. -/
theorem Carries.unwind
    (carries : machine.Carries datum code)
    (base : Nat) :
    (machine.unwind base).Carries datum code := by
  refine ⟨carries.workspace, fun frame present => ?_⟩
  simp only [Machine.unwind, CallStack.frames_truncate] at present
  exact carries.frames frame (List.mem_of_mem_drop present)

/-- A new machine keeps no values. -/
theorem carries_initial (limit : DepthLimit) : (initial limit).Carries datum code := by
  refine ⟨⟨?_, ?_, ?_⟩, ?_⟩
  · simp [initial]
  · simp [initial, Dictionary.initial, Table.empty]
  · simp [initial, Dictionary.words_initial]
  · simp [initial]

/-- A run of code respects where values are kept. -/
theorem Carries.run
    (discipline : Discipline datum code)
    (carries : machine.Carries datum code)
    {body : Body}
    (coded : ∀ value ∈ body, code value)
    (fuel : Nat) :
    (machine.run fuel body).state.Carries datum code := by
  let anyCause (_ : Machine) (_ : Error.Cause) : Prop := True
  have keeps_step : ∀ later, Carries datum code later →
      later.step.Keeps (Carries datum code) anyCause :=
    fun later carried => ⟨carried.step discipline, fun _ _ => trivial⟩
  have keeps_enter : (machine.enter body).Keeps (Carries datum code) anyCause :=
    ⟨carries.enter coded, fun _ _ => trivial⟩
  exact (keeps_run keeps_step keeps_enter (fun _ base carried => carried.unwind base)
    (fun _ _ _ _ => trivial) fuel).1

end Machine
end Concatenative

import Concatenative.Proofs.Ambience
import Concatenative.Proofs.Alike

/-!
# Listings

The loop and the summary at the end of a run list the stack and the words from outside of
the program.  A listing is a primitive that calls nothing, so it is executed in one step
where there is room for a frame, and its name is looked up before those of all words that
are defined.  What stops it is a numeral over the limit.
-/

namespace Concatenative

/-! ## Values that call nothing -/

/-- A value calls no body, wherever it is executed. -/
def Value.IsStraight (value : Value) : Prop :=
  ∀ (workspace after : Workspace) (body : Body),
    workspace.react value = .done after body → body = []

/-- The reference that the name of a primitive always stands for. -/
def Primitive.reference (primitive : Primitive) : WordRef where
  id := primitive.id
  name := primitive.name
  layer := 0

/-- The reference is to the primitive in every dictionary. -/
theorem Workspace.react_reference
    (workspace : Workspace)
    (primitive : Primitive) :
    workspace.react (.wordRef primitive.reference) = primitive.effect workspace :=
  react_of_primitive (Dictionary.entry?_eq_primitive_iff.mpr rfl)

/-- The name of a primitive reads as the reference, whatever the dictionary holds. -/
theorem Reader.resolve_name
    (dictionary : Dictionary)
    (primitive : Primitive) :
    resolve dictionary primitive.name = .ok (.wordRef primitive.reference) := by
  have untrue : truth? primitive.name = none := by cases primitive <;> rfl
  have unnumbered : Numeral.isNumeral primitive.name = false := by cases primitive <;> rfl
  have reference_eq : dictionary.reference? primitive.name = some primitive.reference := by
    rw [Dictionary.reference?, Dictionary.lookup_of_ofName? primitive.ofName?_name]
    rfl
  simp only [resolve, untrue, unnumbered, reference_eq, Bool.false_eq_true, if_false]

theorem Value.isStraight_int (number : Int) : (Value.int number).IsStraight := by
  intro workspace after body react_eq
  exact (Outcome.done_inj.mp react_eq).2.symm

/-- Only the primitives that call quotations call anything. -/
theorem Primitive.isStraight_reference
    {primitive : Primitive}
    (calls : primitive ∉ [.branch, .call]) :
    (Value.wordRef primitive.reference).IsStraight := by
  intro workspace after body react_eq
  have entry_eq : workspace.dictionary.entry? primitive.reference.id =
      some (.primitive primitive) :=
    Dictionary.entry?_eq_primitive_iff.mpr rfl
  rcases Workspace.handed_of_react react_eq with empty | ⟨reference, reference_eq, called | defined⟩
  · exact empty
  · obtain rfl := Value.wordRef.inj reference_eq
    obtain ⟨caller, found_eq, calling, -⟩ := called
    rw [entry_eq] at found_eq
    obtain rfl := Entry.primitive.inj (Option.some.inj found_eq)
    exact absurd calling calls
  · obtain rfl := Value.wordRef.inj reference_eq
    obtain ⟨number, word, found_eq, -⟩ := defined
    rw [entry_eq] at found_eq
    nomatch found_eq

/-- A value that calls nothing has its effect on the workspace and no other. -/
theorem Machine.execute_of_isStraight
    {value : Value}
    (straight : value.IsStraight)
    (machine : Machine) :
    machine.execute value =
      (machine.toWorkspace.react value).void.mapState machine.withWorkspace := by
  rcases (machine.toWorkspace.react value).done_or_stopped with
    ⟨after, handed, react_eq⟩ | ⟨after, stop, react_eq⟩
  · obtain rfl := straight _ _ _ react_eq
    rw [execute_of_done react_eq, react_eq]
    rfl
  · rw [execute_of_stopped react_eq, react_eq]
    rfl

/-- Below the limit a value that calls nothing is executed in one step. -/
theorem Machine.dispatch_of_isStraight
    {machine : Machine}
    {value : Value}
    (below : machine.calls.depth < machine.limit.value)
    (straight : value.IsStraight)
    (fuel : Nat) :
    machine.dispatch (fuel + 1) value =
      (machine.toWorkspace.react value).void.mapState machine.withWorkspace := by
  rw [dispatch, run_singleton below, execute_of_isStraight straight]
  rcases (machine.toWorkspace.react value).void.done_or_stopped with
    ⟨after, handed, react_eq⟩ | ⟨after, stop, react_eq⟩
  · rw [react_eq, Outcome.mapState_done, Outcome.andThen_done, runAbove_of_depth_le (by simp)]
    exact congrArg (Outcome.done · ()) (machine.withWorkspace after).unwind_depth
  · rw [react_eq, Outcome.mapState_stopped, Outcome.andThen_stopped]
    exact congrArg (Outcome.stopped · stop) (machine.withWorkspace after).unwind_depth

/-! ## Effects of listings -/

/-- The listings that conclude a run. -/
def Primitive.isConclusion (primitive : Primitive) : Bool :=
  primitive == printStack || primitive == printWords

/-- Listings call nothing. -/
theorem Primitive.calls_of_isConclusion
    {primitive : Primitive}
    (concludes : primitive.isConclusion = true) :
    primitive ∉ [.branch, .call] := by
  cases primitive <;> simp_all [isConclusion]

/-- A listing prints, up to its end or to a numeral over the limit. -/
theorem Primitive.effect_of_isConclusion
    {primitive : Primitive}
    (concludes : primitive.isConclusion = true)
    (workspace : Workspace) :
    primitive.effect workspace =
        .done { workspace with output := (primitive.effect workspace).state.output } [] ∨
      ∃ after, primitive.effect workspace = .stopped after (.overlong .write) := by
  have prints : ∃ output result, (result = .ok [] ∨ result = .error (.overlong .write)) ∧
      primitive.effect workspace = ⟨{ workspace with output }, result⟩ := by
    cases primitive with
    | printStack | printWords => exact printEach_eq _ _ _ (workspace.printLine _)
    | _ => nomatch concludes
  obtain ⟨output, result, ended, effect_eq⟩ := prints
  rw [effect_eq]
  rcases ended with rfl | rfl
  · exact .inl rfl
  · exact .inr ⟨_, rfl⟩

/-- The listing of the stack ends if all values can be written. -/
theorem Primitive.result_listStack_of_isDisplayable
    (workspace : Workspace)
    (displayable : ∀ value ∈ workspace.stack, value.isDisplayable = true) :
    (listStack workspace).result = .ok [] := by
  unfold listStack
  rw [result_printEach_eq_ok_iff]
  intro item present
  exact displayable item.1 (List.fst_mem_of_mem_zipIdx present)

namespace Session

variable {session : Session} {environment : Environment}

/-! ## Listings in a session -/

/-- The session with another print and another log. -/
def withTraces (session : Session) (output : String) (notes : List Note) : Session :=
  { session with machine := { session.machine with output }, notes }

/-- There is room for a frame. -/
def HasRoom (session : Session) : Prop :=
  session.machine.calls.depth < session.machine.limit.value

/-- Where all frames were given back there is the same room. -/
theorem HasRoom.of_ambience_eq
    {after : Session}
    (room : session.HasRoom)
    (ambience_eq : after.ambience = session.ambience) :
    after.HasRoom := by
  have calls_eq := congrArg Ambience.calls ambience_eq
  have limit_eq := congrArg Ambience.limit ambience_eq
  simp only [ambience] at calls_eq limit_eq
  rw [HasRoom, calls_eq, limit_eq]
  exact room

/-- A source that is a single value is loaded by running the value. -/
theorem loadSource_of_readValue
    (session : Session)
    {token : Token}
    {value : Value}
    (read_eq : Reader.readValue session.dictionary token [] = .ok (value, []))
    (fuel : Nat)
    (inclusion : Inclusion)
    (name : String) :
    session.loadSource fuel inclusion name [token] =
      ((session.machine.dispatch fuel value).mapState fun machine =>
        { session with machine, notes := .loading name 1 :: session.notes }).mapStop
          (Stop.within name) := by
  let inside := { session with source := some name }.note (.loading name 1)
  have inside_eq : Reader.readValue inside.dictionary token [] = .ok (value, []) := read_eq
  have tokens_eq : inside.loadTokens fuel inclusion [token] =
      inside.onMachine fun machine => machine.dispatch fuel value := by
    rw [loadTokens_cons, loadForm_of_readValue inside_eq]
    rcases (inside.onMachine fun machine => machine.dispatch fuel value).done_or_stopped with
      ⟨after, result, run_eq⟩ | ⟨after, stop, run_eq⟩
    · rw [run_eq, Outcome.andThen_done, Outcome.andThen_done, loadTokens_nil]
    · rw [run_eq, Outcome.andThen_stopped, Outcome.andThen_stopped]
  exact congrArg
    (fun outcome : Outcome Session Unit =>
      (outcome.mapStop (Stop.within name)).mapState fun after =>
        { after with source := session.source })
    tokens_eq

/-- The session after a listing, which leaves no more than its traces. -/
def listed (session : Session) (primitive : Primitive) : Session :=
  session.withTraces (primitive.effect session.machine.toWorkspace).state.output
    (.loading "<input>" 1 :: session.notes)

/-- The name of a primitive runs the primitive, whatever the dictionary holds. -/
theorem execute_primitive
    (session : Session)
    (environment : Environment)
    (name : String)
    (primitive : Primitive) :
    session.execute environment name primitive.name =
      ((session.machine.dispatch environment.fuel (.wordRef primitive.reference)).mapState
        fun machine =>
          { session with machine, notes := .loading name 1 :: session.notes }).mapStop
            (Stop.within name) := by
  have tokens_eq : Lexer.tokens primitive.name = .ok [.word primitive.name] := by
    cases primitive <;> exact eq_ok_of_toOption (by decide +kernel)
  have read_eq : Reader.readValue session.dictionary (.word primitive.name) [] =
      .ok (.wordRef primitive.reference, []) := by
    rw [Reader.readValue, Reader.resolve_name]
    rfl
  rw [execute, Lexer.tokenize_of_tokens tokens_eq]
  exact session.loadSource_of_readValue read_eq _ _ _

/-- Where there is room for a frame and a step, a primitive that calls nothing has its effect. -/
theorem execute_primitive_eq
    {primitive : Primitive}
    (calls : primitive ∉ [.branch, .call])
    (room : session.HasRoom)
    {fuel : Nat}
    (fuel_eq : environment.fuel = fuel + 1)
    (name : String) :
    session.execute environment name primitive.name =
      ((primitive.effect session.machine.toWorkspace).void.mapState fun workspace =>
        { session with
          machine := session.machine.withWorkspace workspace
          notes := .loading name 1 :: session.notes }).mapStop (Stop.within name) := by
  rw [execute_primitive, fuel_eq,
    Machine.dispatch_of_isStraight room (Primitive.isStraight_reference calls),
    Workspace.react_reference]
  rfl

/-- A primitive that only prints leaves no more than its traces. -/
theorem execute_primitive_of_prints
    {primitive : Primitive}
    (calls : primitive ∉ [.branch, .call])
    (room : session.HasRoom)
    (steps : 0 < environment.fuel)
    {output : String}
    (effect_eq : primitive.effect session.machine.toWorkspace =
      .done { session.machine.toWorkspace with output } [])
    (name : String) :
    session.execute environment name primitive.name =
      .done (session.withTraces output (.loading name 1 :: session.notes)) () := by
  obtain ⟨fuel, fuel_eq⟩ := Nat.exists_eq_add_of_lt steps
  rw [Nat.zero_add] at fuel_eq
  rw [execute_primitive_eq calls room fuel_eq, effect_eq]
  rfl

/-- A listing that can be written ends. -/
theorem execute_listing_of_ok
    {primitive : Primitive}
    (concludes : primitive.isConclusion = true)
    (room : session.HasRoom)
    (steps : 0 < environment.fuel)
    (written : (primitive.effect session.machine.toWorkspace).result = .ok []) :
    session.execute environment "<input>" primitive.name =
      .done (session.listed primitive) () := by
  rcases Primitive.effect_of_isConclusion concludes session.machine.toWorkspace with
    effect_eq | ⟨after, effect_eq⟩
  · have calls := Primitive.calls_of_isConclusion concludes
    exact execute_primitive_of_prints calls room steps effect_eq "<input>"
  · rw [effect_eq] at written
    nomatch written

end Session
end Concatenative

import Concatenative.Proofs.Passage
import Concatenative.Proofs.Values
import Mathlib.Data.List.Basic

/-!
# What runs store

A run stores values to variables and changes nothing else of the dictionary: no word, no
layer, and not which variables there are.  So what the dictionary is after a run, however
the run ends, is told by the assignments that it made, in order: a variable holds what was
stored to it last, or what it held before the run.
-/

namespace Concatenative

namespace Store

/-- Gives declared variables contents, in order. -/
def setAll (store : Store) (assignments : List (String × Value)) : Store :=
  assignments.foldl (fun store (name, content) => store.set name content) store

variable {store : Store} {name other : String}

theorem setAll_cons (store : Store) (name : String) (content : Value)
    (later : List (String × Value)) :
    store.setAll ((name, content) :: later) = (store.set name content).setAll later := rfl

theorem setAll_append (store : Store) (first later : List (String × Value)) :
    store.setAll (first ++ later) = (store.setAll first).setAll later :=
  List.foldl_append

/-- Storing to a variable that is declared gives it that content. -/
theorem get?_set_self (declared : store.contains name = true) (content : Value) :
    (store.set name content).get? name = some content := by
  obtain ⟨bindings⟩ := store
  unfold Table.contains Table.get? at declared
  unfold set Table.modify Table.get?
  induction bindings with
  | nil => simp at declared
  | cons binding rest inductionHypothesis =>
      obtain ⟨first, old⟩ := binding
      by_cases same : name = first
      · simp [same]
      · have differs : (name == first) = false := by simpa using same
        simp only [List.lookup_cons, differs] at declared
        simp only [List.map_cons, List.lookup_cons, differs]
        exact inductionHypothesis declared

/-- Storing to a variable leaves the others as they are. -/
theorem get?_set_of_ne (differs : other ≠ name) (content : Value) :
    (store.set name content).get? other = store.get? other := by
  obtain ⟨bindings⟩ := store
  unfold set Table.modify Table.get?
  induction bindings with
  | nil => rfl
  | cons binding rest inductionHypothesis =>
      obtain ⟨first, old⟩ := binding
      simp only [List.map_cons, List.lookup_cons, inductionHypothesis]
      by_cases same : other = first
      · subst same
        rw [if_neg differs]
      · have apart : (other == first) = false := by simpa using same
        rw [apart]

/-- Assignments declare no variables. -/
@[simp] theorem contains_setAll (assignments : List (String × Value)) :
    (store.setAll assignments).contains name = store.contains name := by
  induction assignments generalizing store with
  | nil => rfl
  | cons assignment later inductionHypothesis =>
      rw [setAll_cons, inductionHypothesis, contains_set]

/-- A declared variable holds what was stored to it last, or what it held before. -/
theorem get?_setAll
    {initially : Value}
    (get_eq : store.get? name = some initially)
    (assignments : List (String × Value)) :
    (store.setAll assignments).get? name =
      some ((assignments.reverse.lookup name).getD initially) := by
  induction assignments generalizing store initially with
  | nil => exact get_eq
  | cons assignment later inductionHypothesis =>
      obtain ⟨stored, content⟩ := assignment
      rw [setAll_cons, List.reverse_cons, List.lookup_append]
      by_cases same : name = stored
      · subst same
        have declared : store.contains name = true := by simp [Table.contains, get_eq]
        rw [inductionHypothesis (get?_set_self declared content)]
        cases later.reverse.lookup name <;> simp
      · have differs : (name == stored) = false := by simpa using same
        have kept := (get?_set_of_ne same content).trans get_eq
        rw [inductionHypothesis kept]
        simp [List.lookup_cons, differs]

/-- A variable that is not declared holds nothing after assignments either. -/
theorem get?_setAll_of_none
    (get_eq : store.get? name = none)
    (assignments : List (String × Value)) :
    (store.setAll assignments).get? name = none := by
  have undeclared : (store.setAll assignments).contains name = false := by
    rw [contains_setAll, Table.contains, get_eq]
    rfl
  simpa [Table.contains] using undeclared

end Store

namespace Dictionary

/-- The dictionary with declared variables given contents, in order. -/
def assign (dictionary : Dictionary) (assignments : List (String × Value)) : Dictionary :=
  { dictionary with store := dictionary.store.setAll assignments }

theorem assign_append (dictionary : Dictionary) (first later : List (String × Value)) :
    dictionary.assign (first ++ later) = (dictionary.assign first).assign later := by
  rw [assign, Store.setAll_append]
  rfl

end Dictionary

namespace Primitive

/-- A primitive other than the one that stores leaves the dictionary as it is. -/
theorem dictionary_effect_of_ne
    {primitive : Primitive}
    (differs : primitive ≠ .store)
    (workspace : Workspace) :
    (primitive.effect workspace).state.dictionary = workspace.dictionary := by
  have consequence := primitive.consequence_effect workspace
  generalize primitive.effect workspace = reaction at consequence
  cases consequence with
  | stored name content rest isStore => exact absurd isStore differs
  | refused | undeclared | undivided | rearranged | fetched | called | printed | left => rfl

/-- Fetching replaces the reference on top of the stack by the content of the variable. -/
theorem effect_fetch (workspace : Workspace) (name : String) (rest : List Value) :
    fetch.effect { workspace with stack := .variableRef name :: rest } =
      match workspace.dictionary.store.get? name with
      | some content => { workspace with stack := content :: rest }.settled
      | none =>
          .failed { workspace with stack := .variableRef name :: rest }
            (.undefinedVariable name) := rfl

/-- The variable that is stored to, and what is stored, if storing succeeds. -/
def assignment? (workspace : Workspace) : Option (String × Value) :=
  match workspace.stack, (store.effect workspace).result with
  | .variableRef name :: content :: _, .ok _ => some (name, content)
  | _, _ => none

/-- Storing gives the variable on top of the stack the value below it, or it fails. -/
theorem effect_store_cases (workspace : Workspace) :
    (∃ name content rest, workspace.stack = .variableRef name :: content :: rest ∧
      workspace.dictionary.store.contains name = true ∧
      store.effect workspace =
        { workspace with
          stack := rest
          dictionary := workspace.dictionary.assign [(name, content)] }.settled) ∨
      ∃ cause, store.effect workspace = .failed workspace cause := by
  simp only [effect, storeVariable]
  split
  · rename_i name content rest stack_eq
    by_cases declared : workspace.dictionary.store.contains name = true
    · rw [if_pos declared]
      exact .inl ⟨name, content, rest, stack_eq, declared, rfl⟩
    · rw [if_neg declared]
      exact .inr ⟨_, rfl⟩
  · exact .inr ⟨_, rfl⟩
  · exact .inr ⟨_, rfl⟩

/-- Storing carries out its assignment, if it makes one, and leaves all else as it is. -/
theorem dictionary_effect_store (workspace : Workspace) :
    (store.effect workspace).state.dictionary =
      workspace.dictionary.assign (assignment? workspace).toList := by
  rcases effect_store_cases workspace with
    ⟨name, content, rest, stack_eq, -, effect_eq⟩ | ⟨cause, effect_eq⟩
  · simp only [assignment?, effect_eq, stack_eq]
    rfl
  · have refused : assignment? workspace = none := by
      unfold assignment?
      rw [effect_eq]
      split
      · rename_i result_eq
        nomatch result_eq
      · rfl
    rw [effect_eq, refused]
    rfl

/-- What is stored is the value below a reference, to a variable that is declared. -/
theorem assignment?_eq_some
    {workspace : Workspace}
    {name : String}
    {content : Value}
    (assignment_eq : assignment? workspace = some (name, content)) :
    (∃ rest, workspace.stack = .variableRef name :: content :: rest) ∧
      workspace.dictionary.store.contains name = true := by
  unfold assignment? at assignment_eq
  split at assignment_eq
  · rename_i stored value rest result stack_eq result_eq
    obtain ⟨rfl, rfl⟩ : stored = name ∧ value = content := by simpa using assignment_eq
    refine ⟨⟨rest, stack_eq⟩, ?_⟩
    rcases effect_store_cases workspace with
      ⟨other, below, others, other_eq, declared, -⟩ | ⟨cause, effect_eq⟩
    · rw [stack_eq] at other_eq
      obtain ⟨rfl, -⟩ : stored = other ∧ _ := by simpa using other_eq
      exact declared
    · rw [effect_eq] at result_eq
      cases result_eq
  · cases assignment_eq

end Primitive

namespace Machine

/-! ## The assignments of a run -/

/-- The machines from which steps are taken until no more than `base` frames are left. -/
def stepsAbove (base : Nat) (fuel : Nat) (machine : Machine) : List Machine :=
  match fuel with
  | 0 => []
  | fuel + 1 =>
      if machine.calls.depth ≤ base then []
      else
        machine ::
          match machine.step with
          | ⟨next, .ok ()⟩ => stepsAbove base fuel next
          | ⟨_, .error _⟩ => []

/-- The machines from which a run of a body takes its steps, in order. -/
def steps (fuel : Nat) (machine : Machine) (body : Body) : List Machine :=
  match machine.enter body with
  | ⟨inside, .ok ()⟩ => inside.stepsAbove machine.calls.depth fuel
  | ⟨_, .error _⟩ => []

/-- The variable that the next step stores to, and what it stores, if it does so. -/
def assignment? (machine : Machine) : Option (String × Value) :=
  if machine.primitive? = some .store then Primitive.assignment? machine.toWorkspace else none

/-- What a run of a body stores, and to which variables, in order. -/
def assignments (fuel : Nat) (machine : Machine) (body : Body) : List (String × Value) :=
  (machine.steps fuel body).filterMap assignment?

variable {machine : Machine}

/-- The next step stores only if it executes the primitive that does. -/
theorem assignment?_of_ne (differs : machine.primitive? ≠ some .store) :
    machine.assignment? = none :=
  if_neg differs

/-- A step carries out its assignment, if it makes one, and leaves all else as it is. -/
theorem dictionary_step (machine : Machine) :
    machine.step.state.dictionary = machine.dictionary.assign machine.assignment?.toList := by
  rcases machine.step_cases with ⟨take_eq, step_eq⟩ | ⟨value, calls, take_eq, step_eq⟩
  · have idle : machine.assignment? = none := assignment?_of_ne (by simp [primitive?, take_eq])
    rw [step_eq, idle]
    rfl
  · have state_eq : machine.step.state.dictionary =
        (machine.toWorkspace.react value).state.dictionary := by
      rw [step_eq, toWorkspace_execute]
    rw [state_eq]
    cases value with
    | wordRef reference =>
        cases entry_eq : machine.dictionary.entry? reference.id with
        | none =>
            have idle : machine.assignment? = none :=
              assignment?_of_ne (by simp [primitive?, take_eq, entry_eq])
            rw [Workspace.react_of_unknown entry_eq, idle]
            rfl
        | some entry =>
            cases entry with
            | primitive primitive =>
                have primitive_eq : machine.primitive? = some primitive := by
                  simp [primitive?, take_eq, entry_eq]
                rw [Workspace.react_of_primitive entry_eq]
                by_cases isStore : primitive = .store
                · rw [assignment?, primitive_eq, isStore, if_pos rfl]
                  exact Primitive.dictionary_effect_store machine.toWorkspace
                · have idle : machine.assignment? = none :=
                    assignment?_of_ne (by simpa [primitive_eq] using isStore)
                  rw [Primitive.dictionary_effect_of_ne isStore, idle]
                  rfl
            | compiled id word =>
                have idle : machine.assignment? = none :=
                  assignment?_of_ne (by simp [primitive?, take_eq, entry_eq])
                rw [idle]
                cases body_eq : word.body? reference.layer with
                | none =>
                    rw [Workspace.react_of_pending entry_eq body_eq]
                    rfl
                | some body =>
                    rw [Workspace.react_of_body entry_eq body_eq]
                    rfl
    | nil | bool _ | int _ | text _ | variableRef _ | quotation _ =>
        have idle : machine.assignment? = none :=
          assignment?_of_ne (by simp [primitive?, take_eq])
        rw [Workspace.react_of_datum (by simp), idle]
        rfl

/-- Steps are taken from a machine and then from those that the step leads to. -/
theorem stepsAbove_succ
    {base : Nat}
    (above : base < machine.calls.depth)
    (fuel : Nat) :
    machine.stepsAbove base (fuel + 1) =
      machine ::
        match machine.step with
        | ⟨next, .ok ()⟩ => next.stepsAbove base fuel
        | ⟨_, .error _⟩ => [] :=
  if_neg (Nat.not_le_of_lt above)

/-- A run carries out its assignments in order, and leaves all else as it is. -/
theorem dictionary_runAbove (machine : Machine) (base fuel : Nat) :
    (machine.runAbove base fuel).state.dictionary =
      machine.dictionary.assign ((machine.stepsAbove base fuel).filterMap assignment?) := by
  simp only [List.filterMap_eq_flatMap_toList]
  induction fuel generalizing machine with
  | zero =>
      rcases Nat.lt_or_ge base machine.calls.depth with above | finished
      · rw [runAbove_zero above]
        rfl
      · rw [runAbove_of_depth_le finished]
        rfl
  | succ fuel inductionHypothesis =>
      rcases Nat.lt_or_ge base machine.calls.depth with above | finished
      · have stepped := machine.dictionary_step
        rw [runAbove_succ above, stepsAbove_succ above, List.flatMap_cons,
          Dictionary.assign_append, ← stepped]
        rcases machine.step.done_or_stopped with
          ⟨next, result, step_eq⟩ | ⟨after, stop, step_eq⟩
        · rw [step_eq]
          exact inductionHypothesis next
        · rw [step_eq]
          rfl
      · rw [runAbove_of_depth_le finished, stepsAbove, if_pos finished]
        rfl

/-- A run of a body carries out its assignments in order, and leaves all else as it is. -/
theorem dictionary_run (machine : Machine) (fuel : Nat) (body : Body) :
    (machine.run fuel body).state.dictionary =
      machine.dictionary.assign (machine.assignments fuel body) := by
  have entered : (machine.enter body).state.dictionary = machine.dictionary := by
    rw [toWorkspace_enter]
  rw [run_eq, assignments, steps]
  rcases (machine.enter body).done_or_stopped with
    ⟨inside, result, enter_eq⟩ | ⟨after, stop, enter_eq⟩
  · rw [enter_eq] at entered ⊢
    exact entered ▸ inside.dictionary_runAbove machine.calls.depth fuel
  · rw [enter_eq] at entered ⊢
    exact entered

/-- A step that stores gives the variable the value below the reference to it. -/
theorem get?_step_of_assignment?
    {name : String}
    {content : Value}
    (assignment_eq : machine.assignment? = some (name, content)) :
    (∃ rest, machine.stack = .variableRef name :: content :: rest) ∧
      machine.step.state.dictionary.store.get? name = some content := by
  have stored : Primitive.assignment? machine.toWorkspace = some (name, content) := by
    unfold assignment? at assignment_eq
    split at assignment_eq
    · exact assignment_eq
    · nomatch assignment_eq
  obtain ⟨stacked, declared⟩ := Primitive.assignment?_eq_some stored
  refine ⟨stacked, ?_⟩
  rw [dictionary_step, assignment_eq]
  exact Store.get?_set_self declared content

/-- A step that does not store to a variable leaves its content as it is. -/
theorem get?_step_of_not_assignment?
    {name : String}
    (unassigned : ∀ content, machine.assignment? ≠ some (name, content)) :
    machine.step.state.dictionary.store.get? name = machine.dictionary.store.get? name := by
  rw [dictionary_step]
  cases assignment_eq : machine.assignment? with
  | none => rfl
  | some assignment =>
      obtain ⟨stored, content⟩ := assignment
      have differs : name ≠ stored := by
        rintro rfl
        exact unassigned content assignment_eq
      exact Store.get?_set_of_ne differs content

/--
A run changes the contents of variables and nothing else of the dictionary, however it ends
and after any number of steps: the words with their numbers and layers and the names of the
variables are what they were.  A step changes the content of a variable only by storing to
it, and then to the value below the reference on the stack.  So fetching a variable after
the run gives what the run stored to it last, or what it held before.
-/
theorem run_assigns (machine : Machine) (fuel : Nat) (body : Body) :
    (machine.run fuel body).state.dictionary.words = machine.dictionary.words ∧
    (∀ name, (machine.run fuel body).state.dictionary.store.contains name =
      machine.dictionary.store.contains name) ∧
    (∀ visited ∈ machine.steps fuel body,
      (∀ name content, visited.assignment? = some (name, content) →
        (∃ rest, visited.stack = .variableRef name :: content :: rest) ∧
        visited.step.state.dictionary.store.get? name = some content) ∧
      ∀ name, (∀ content, visited.assignment? ≠ some (name, content)) →
        visited.step.state.dictionary.store.get? name =
          visited.dictionary.store.get? name) ∧
    ∀ name rest,
      Primitive.fetch.effect
          { (machine.run fuel body).state.toWorkspace with stack := .variableRef name :: rest } =
        match machine.dictionary.store.get? name with
        | some initially =>
            { (machine.run fuel body).state.toWorkspace with
              stack :=
                ((machine.assignments fuel body).reverse.lookup name).getD initially ::
                  rest }.settled
        | none =>
            .failed
              { (machine.run fuel body).state.toWorkspace with stack := .variableRef name :: rest }
              (.undefinedVariable name) := by
  have same := machine.sameNames_run fuel body
  have store_eq : (machine.run fuel body).state.dictionary.store =
      machine.dictionary.store.setAll (machine.assignments fuel body) :=
    congrArg Dictionary.store (machine.dictionary_run fuel body)
  refine ⟨same.words_eq, same.contains_eq, fun visited _ => ⟨fun name content => ?_,
    fun name => ?_⟩, fun name rest => ?_⟩
  · exact get?_step_of_assignment?
  · exact get?_step_of_not_assignment?
  · rw [Primitive.effect_fetch, store_eq]
    cases get_eq : machine.dictionary.store.get? name with
    | none => rw [Store.get?_setAll_of_none get_eq]
    | some initially => rw [Store.get?_setAll get_eq]

/--
A run stores to a variable twice and then fails to store to one that is not declared.  The
first holds what was stored last, and another one what it held before.
-/
theorem run_assigns_undeclared :
    ∃ (machine : Machine) (body : Body),
      (machine.assignments 9 body).map Prod.fst = ["total", "total"] ∧
      ((machine.run 9 body).result matches
        .error (.failure ⟨.undefinedVariable "missing", none⟩)) = true ∧
      ((Primitive.fetch.effect { (machine.run 9 body).state.toWorkspace with
        stack := [.variableRef "total"] }).state.stack matches [.int 2]) = true ∧
      ((Primitive.fetch.effect { (machine.run 9 body).state.toWorkspace with
        stack := [.variableRef "other"] }).state.stack matches [.text "kept"]) = true := by
  let dictionary : Dictionary :=
    { Dictionary.initial with store := ⟨[("total", .nil), ("other", .text "kept")]⟩ }
  let machine := (initial .standard).withWorkspace ⟨[], dictionary, ""⟩
  let store : Value := .wordRef ⟨Primitive.store.id, "!", 0⟩
  let body : Body :=
    [.int 1, .variableRef "total", store, .int 2, .variableRef "total", store,
      .int 3, .variableRef "missing", store]
  refine ⟨machine, body, by decide +kernel, by decide +kernel, ?_, ?_⟩
  · rw [(run_assigns machine 9 body).2.2.2]
    decide +kernel
  · rw [(run_assigns machine 9 body).2.2.2]
    decide +kernel

end Machine
end Concatenative

import Concatenative.Proofs.Reference

/-!
# Closedness of references

A reference is bound when it is read and used any time later, after other definitions,
reservations and failures.  Still every reference that a session holds, wherever it is
kept and however deep in quotations, leads to a word and a layer that are there, and every
reference to a variable has a name that is declared or was taken over by a word.  So no
run ever meets an unknown word.
-/

namespace Concatenative

/-! ## Failures that a dictionary explains -/

namespace Dictionary

/-- The layer of a reference is there and has no body yet. -/
def Awaits (dictionary : Dictionary) (reference : WordRef) : Prop :=
  ∃ (number : Nat) (word : Word) (layer : Nat),
    dictionary.entry? reference.id = some (.compiled number word) ∧
      reference.layer = layer ∧ word.layers[layer]? = some none

/--
The causes of failures that a dictionary explains: never an unknown word, an undefined word
only with a pending layer, and an undefined variable only if a word has its name.
-/
def Explains (dictionary : Dictionary) : Error.Cause → Prop
  | .unknownWord _ => False
  | .neverDefined name => ∃ word ∈ dictionary.words, word.name = name ∧ none ∈ word.layers
  | .undefinedVariable name =>
      dictionary.store.contains name = false ∧ name ∈ dictionary.words.map Word.name
  | _ => True

variable {dictionary later : Dictionary} {cause : Error.Cause}

theorem SameNames.explains
    (same : SameNames dictionary later)
    (explained : dictionary.Explains cause) :
    later.Explains cause := by
  unfold Explains at explained ⊢
  split
  · exact explained
  · rw [same.words_eq]
    exact explained
  · rw [same.words_eq, same.contains_eq]
    exact explained
  · trivial

/-- Errors of reading are explained. -/
theorem explains_of_static (static : cause.isDynamic = false) : dictionary.Explains cause := by
  unfold Explains
  split <;> simp_all [Error.Cause.isDynamic]

/-- Refusals of operands are explained. -/
theorem explains_of_refusal (refused : cause.kind ∈ Primitive.refusals) :
    dictionary.Explains cause := by
  unfold Explains
  split <;> simp_all [Primitive.refusals, Error.Cause.kind]

/-- A reference that is known leads to an entry. -/
theorem Knows.exists_entry {reference : WordRef} (known : dictionary.Knows reference) :
    ∃ entry, dictionary.entry? reference.id = some entry ∧ entry.name = reference.name ∧
      (entry.isPrimitive = true ∨
        0 ≤ reference.layer ∧ reference.layer < entry.layers.length) := by
  obtain ⟨entry, lookup_eq, id_eq, layer_eq⟩ := known
  obtain ⟨named, entry_eq⟩ := name_and_entry?_of_lookup lookup_eq
  refine ⟨entry, ?_, named, layer_eq.imp_left And.left⟩
  rw [← id_eq]
  exact entry_eq

/-- A reference that is known and has no body to run waits for one. -/
theorem Knows.awaits
    {reference : WordRef}
    (known : dictionary.Knows reference)
    {number : Nat}
    {word : Word}
    (entry_eq : dictionary.entry? reference.id = some (.compiled number word))
    (body_eq : word.body? reference.layer = none) :
    dictionary.Awaits reference := by
  obtain ⟨entry, found_eq, -, layer_eq⟩ := known.exists_entry
  rw [entry_eq, Option.some.injEq] at found_eq
  subst found_eq
  simp only [Entry.isPrimitive, Bool.false_eq_true, false_or, Entry.layers] at layer_eq
  obtain ⟨nonnegative, bound⟩ := layer_eq
  obtain ⟨layer, layer_eq⟩ := Int.eq_ofNat_of_zero_le nonnegative
  rw [layer_eq] at bound body_eq
  have inside : layer < word.layers.length := by omega
  refine ⟨number, word, layer, entry_eq, layer_eq, ?_⟩
  rw [List.getElem?_eq_getElem inside]
  simp only [Word.body?, List.getElem?_eq_getElem inside, Option.join_some] at body_eq
  rw [body_eq]

end Dictionary

namespace Workspace

variable {workspace : Workspace} {failure : Error.Failure}

/-- What is on a workspace is data and code that its dictionary knows. -/
def IsClosed (workspace : Workspace) : Prop :=
  workspace.Carries workspace.dictionary.IsDatum workspace.dictionary.IsCode

/-- On a closed workspace, a primitive misses a variable only if a word has its name. -/
theorem IsClosed.explains_effect
    (closed : workspace.IsClosed)
    {primitive : Primitive}
    (failed_eq : (primitive.effect workspace).result = .error (.failure failure)) :
    workspace.dictionary.Explains failure.cause := by
  rcases Primitive.cause_of_effect failed_eq with
    refused | ⟨name, cause_eq, present, get_eq⟩ | ⟨dividend, cause_eq⟩
  · exact Dictionary.explains_of_refusal refused
  · rw [cause_eq]
    have undeclared : workspace.dictionary.store.contains name = false := by
      rw [Table.contains, get_eq, Option.isSome_none]
    have declared : workspace.dictionary.Declares name := closed.stack _ present
    refine ⟨undeclared, declared.resolve_left ?_⟩
    rw [undeclared]
    exact Bool.false_ne_true
  · rw [cause_eq]
    trivial

/-- On a closed workspace, a reference that is known fails for a reason. -/
theorem IsClosed.explains_invoke
    (closed : workspace.IsClosed)
    {reference : WordRef}
    (known : workspace.dictionary.Knows reference)
    (failed_eq : (workspace.invoke reference).result = .error (.failure failure)) :
    workspace.dictionary.Explains failure.cause := by
  obtain ⟨entry, entry_eq, named, -⟩ := known.exists_entry
  unfold invoke at failed_eq
  split at failed_eq
  · rename_i missing
    rw [entry_eq] at missing
    simp at missing
  · exact closed.explains_effect failed_eq
  · rename_i number word word_eq
    split at failed_eq
    · rename_i body_eq
      obtain ⟨_, other, layer, other_eq, -, pending⟩ := known.awaits word_eq body_eq
      rw [entry_eq, Option.some.injEq] at other_eq
      subst other_eq
      obtain ⟨index, -, -, index_eq⟩ := Dictionary.entry?_eq_compiled_iff.mp entry_eq
      rw [Stop.cause_of_ofCause_eq (Except.error.inj failed_eq)]
      exact ⟨other, List.mem_of_getElem? index_eq, named, List.mem_of_getElem? pending⟩
    · simp [Outcome.done] at failed_eq

/-- A reference that is known has no definition only if it waits for one. -/
theorem awaits_of_invoke
    {reference : WordRef}
    (known : workspace.dictionary.Knows reference)
    (failed_eq : (workspace.invoke reference).result = .error (.failure failure))
    {name : String}
    (cause_eq : failure.cause = .neverDefined name) :
    workspace.dictionary.Awaits reference := by
  obtain ⟨entry, entry_eq, -, -⟩ := known.exists_entry
  unfold invoke at failed_eq
  split at failed_eq
  · rename_i missing
    rw [entry_eq] at missing
    simp at missing
  · rcases Primitive.cause_of_effect failed_eq with refused | ⟨_, other_eq, -⟩ | ⟨_, other_eq⟩
    · simp [cause_eq, Error.Cause.kind, Primitive.refusals] at refused
    · simp [cause_eq] at other_eq
    · simp [cause_eq] at other_eq
  · rename_i number word word_eq
    split at failed_eq
    · rename_i body_eq
      exact known.awaits word_eq body_eq
    · simp [Outcome.done] at failed_eq

/-- Executing code on a closed workspace fails for a reason. -/
theorem IsClosed.explains_react
    (closed : workspace.IsClosed)
    {value : Value}
    (coded : workspace.dictionary.IsCode value)
    (failed_eq : (workspace.react value).result = .error (.failure failure)) :
    workspace.dictionary.Explains failure.cause := by
  unfold react at failed_eq
  split at failed_eq
  · exact closed.explains_invoke (coded _ .self) failed_eq
  · simp [settled, Outcome.done] at failed_eq

/-! ## What a workspace holds -/

/-- A value occurs somewhere on a workspace, at any depth. -/
inductive Holds (workspace : Workspace) (part : Value) : Prop
  | onStack {value : Value} :
      value ∈ workspace.stack →
      part.Within value →
      Holds workspace part
  | inVariable {binding : String × Value} :
      binding ∈ workspace.dictionary.store.bindings →
      part.Within binding.2 →
      Holds workspace part
  | inBody {word : Word} {body : Body} {value : Value} :
      word ∈ workspace.dictionary.words →
      some body ∈ word.layers →
      value ∈ body →
      part.Within value →
      Holds workspace part

/-- What a closed workspace holds is data or code. -/
theorem IsClosed.isDatum_or_isCode
    (closed : workspace.IsClosed)
    {part : Value}
    (held : workspace.Holds part) :
    workspace.dictionary.IsDatum part ∨ workspace.dictionary.IsCode part := by
  have ofDatum : ∀ {value : Value}, workspace.dictionary.IsDatum value → part.Within value →
      workspace.dictionary.IsDatum part ∨ workspace.dictionary.IsCode part := by
    intro value datum within
    rcases datum.within within with rfl | coded
    · exact .inl datum
    · exact .inr coded
  cases held with
  | onStack present within => exact ofDatum (closed.stack _ present) within
  | inVariable present within => exact ofDatum (closed.store _ present) within
  | inBody inWords inLayers present within =>
      exact .inr ((closed.bodies _ inWords _ inLayers _ present).within within)

/-- What the values on a workspace have to be like for no reference to dangle. -/
structure IsConsistent (workspace : Workspace) : Prop where
  references_known : ∀ reference,
    workspace.Holds (.wordRef reference) → workspace.dictionary.Knows reference
  variables_declared : ∀ name,
    workspace.Holds (.variableRef name) → workspace.dictionary.Declares name
  /-- No bare reference to a word is on the stack. -/
  stack_data : ∀ reference, .wordRef reference ∉ workspace.stack
  /-- No bare reference to a word is in a variable. -/
  store_data : ∀ name reference,
    (name, .wordRef reference) ∉ workspace.dictionary.store.bindings
  bodies_filled : ∀ word ∈ workspace.dictionary.words, ∀ body, some body ∈ word.layers →
    .nil ∉ body
  quotations_filled : ∀ content, workspace.Holds (.quotation content) → .nil ∉ content

/-- On a closed workspace no reference dangles. -/
theorem IsClosed.isConsistent (closed : workspace.IsClosed) : workspace.IsConsistent where
  references_known reference held := by
    rcases closed.isDatum_or_isCode held with datum | coded
    · exact datum.elim
    · exact coded _ .self
  variables_declared name held := by
    rcases closed.isDatum_or_isCode held with datum | coded
    · exact datum
    · exact coded _ .self
  stack_data reference present := closed.stack _ present
  store_data name reference present := closed.store _ present
  bodies_filled word inWords body inLayers present :=
    closed.bodies word inWords body inLayers _ present _ .self
  quotations_filled content held present := by
    rcases closed.isDatum_or_isCode held with datum | coded
    · exact datum _ present _ .self
    · exact coded _ (.inside present .self)

end Workspace

namespace Machine

/-! ## Closed machines -/

variable {machine : Machine}

/-- All that a machine keeps is data and code that its dictionary knows. -/
structure IsClosed (machine : Machine) : Prop where
  wellFormed : machine.dictionary.WellFormed
  carries : machine.Carries machine.dictionary.IsDatum machine.dictionary.IsCode

/-- What an earlier dictionary knows a later one with the same names does. -/
theorem isClosed_of_sameNames
    {dictionary : Dictionary}
    (wellFormed : dictionary.WellFormed)
    (same : dictionary.SameNames machine.dictionary)
    (carries : machine.Carries dictionary.IsDatum dictionary.IsCode) :
    machine.IsClosed where
  wellFormed := same.wellFormed wellFormed
  carries := carries.imp (fun _ => same.preserves.isDatum) fun _ => same.preserves.isCode

/-- A step leaves the machine closed, and fails for a reason. -/
theorem IsClosed.step (closed : machine.IsClosed) :
    machine.step.Keeps IsClosed fun machine => machine.dictionary.Explains := by
  have same := machine.sameNames_step
  refine ⟨?_, fun failure failed_eq => same.explains ?_⟩
  · exact isClosed_of_sameNames closed.wellFormed same
      (closed.carries.step machine.dictionary.discipline)
  · unfold Machine.step at failed_eq
    split at failed_eq
    · simp [Outcome.done] at failed_eq
    · rename_i value calls take_eq
      obtain ⟨coded, -⟩ := closed.carries.take? take_eq
      rcases stop_of_execute failed_eq with react_eq | stop_eq
      · exact Workspace.IsClosed.explains_react closed.carries.workspace coded react_eq
      · rw [Stop.cause_of_ofCause_eq stop_eq.symm]
        trivial

/-- A run of code leaves the machine closed, and fails for a reason. -/
theorem IsClosed.run
    (closed : machine.IsClosed)
    {body : Body}
    (coded : ∀ value ∈ body, machine.dictionary.IsCode value)
    (fuel : Nat) :
    (machine.run fuel body).Keeps IsClosed fun machine => machine.dictionary.Explains := by
  refine keeps_run (fun _ => IsClosed.step) ⟨?_, fun failure failed_eq => ?_⟩ ?_ ?_ fuel
  · refine isClosed_of_sameNames closed.wellFormed ?_ (closed.carries.enter coded)
    rw [toWorkspace_enter]
    exact .refl _
  · unfold enter at failed_eq
    split at failed_eq
    · simp [Outcome.done] at failed_eq
    · split at failed_eq
      · rw [Stop.cause_of_ofCause_eq (Except.error.inj failed_eq)]
        trivial
      · simp [Outcome.done] at failed_eq
  · exact fun machine base closed => ⟨closed.wellFormed, closed.carries.unwind base⟩
  · exact fun machine cause base explained => explained

/-- A change that brings in code leaves the machine closed. -/
theorem IsClosed.withDictionary
    (closed : machine.IsClosed)
    {change : Dictionary.Change}
    (coded : ∀ name body, change = .define name body →
      ∀ value ∈ body, machine.dictionary.IsCode value)
    {later : Dictionary}
    (apply_eq : change.apply machine.dictionary = .ok later) :
    (machine.withDictionary later).IsClosed := by
  have wellFormed : later.WellFormed := closed.wellFormed.apply apply_eq
  have preserves := (Dictionary.extends_apply apply_eq).preserves
  have carries := closed.carries.imp (fun _ => preserves.isDatum) fun _ => preserves.isCode
  refine ⟨wellFormed, carries.withDictionary trivial (fun name body change_eq => ?_) apply_eq⟩
  exact fun value present => preserves.isCode (coded name body change_eq value present)

theorem isClosed_initial (limit : DepthLimit) : (initial limit).IsClosed where
  wellFormed := Dictionary.wellFormed_initial
  carries := carries_initial limit

end Machine

namespace Session

/-- Sessions stay closed, and fail for a reason. -/
theorem isKept_isClosed :
    IsKept Machine.IsClosed fun machine => machine.dictionary.Explains where
  printed machine output closed :=
    ⟨closed.wellFormed,
      closed.carries.workspace.withStack closed.carries.workspace.stack output,
      closed.carries.frames⟩
  changed machine change dictionary closed loads apply_eq := by
    refine closed.withDictionary (fun name body change_eq => ?_) apply_eq
    subst change_eq
    cases loads with
    | define _ read_eq =>
        have yields := Reader.yields_isCode machine.dictionary
        exact yields.readDefinition (fun _ _ => trivial) read_eq
  dispatched machine token tokens value rest fuel closed _ read_eq := by
    have yields := Reader.yields_isCode machine.dictionary
    have coded := yields.readValue (fun _ _ => trivial) read_eq
    exact closed.run (fun member present => List.mem_singleton.mp present ▸ coded) fuel
  static _ _ _ static := Dictionary.explains_of_static static

/--
In a session that loading reaches no reference dangles, wherever it is kept.  Invoking a
reference that is known, and every further operation, fails for a reason only: no word is
unknown, a word without a definition has a layer that waits for one, and a variable that is
not defined has become a word.
-/
theorem isConsistent_of_isReached
    {session : Session}
    (reached : session.IsReached) :
    session.machine.toWorkspace.IsConsistent ∧
      (∀ reference failure, session.dictionary.Knows reference →
        (session.machine.toWorkspace.invoke reference).result = .error (.failure failure) →
        session.dictionary.Explains failure.cause ∧
          ∀ name, failure.cause = .neverDefined name → session.dictionary.Awaits reference) ∧
      ∀ operation failure, operation.isLoading = true →
        (session.perform operation).result = .error (.failure failure) →
        (session.perform operation).state.dictionary.Explains failure.cause := by
  have closed : session.machine.IsClosed :=
    isKept_isClosed.of_isReached Machine.isClosed_initial reached
  have workspaceClosed : session.machine.toWorkspace.IsClosed := closed.carries.workspace
  refine ⟨workspaceClosed.isConsistent, fun reference failure known failed_eq => ?_, ?_⟩
  · refine ⟨workspaceClosed.explains_invoke known failed_eq, fun name cause_eq => ?_⟩
    exact Workspace.awaits_of_invoke known failed_eq cause_eq
  · intro operation failure loading failed_eq
    exact (isKept_isClosed.perform closed loading).2 failure failed_eq

/-- A quotation outlives the variable that it refers to, and waits for a definition. -/
theorem isConsistent_of_isReached_overtaken :
    ∃ session : Session,
      session.IsReached ∧
      session.machine.stack.length = 1 ∧
      session.dictionary.contains "total" = true ∧
      session.dictionary.deferred = ["later"] ∧
      session.machine.toWorkspace.IsConsistent := by
  let environment : Environment := ⟨.empty [], 9⟩
  let text := ":variable total :defer later [ total @ later ] : total later ; total"
  let operations : List Operation := [.execute environment "<input>" text]
  have reached : IsReached ((start environment false .standard).after operations) :=
    ⟨environment, false, .standard, operations, by decide, rfl⟩
  exact ⟨_, reached, by decide +kernel, by decide +kernel, by decide +kernel,
    (isConsistent_of_isReached reached).1⟩

end Session
end Concatenative

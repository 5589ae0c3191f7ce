import Concatenative.Proofs.Values

/-!
# Machines that run alike

Two machines whose dictionaries differ in later layers and later words only run the same
code alike, step by step, as long as its references lead to layers that are there: no
primitive looks a word up by its name, and none but the listing of the dictionary depends
on the words at all.  The listing prints different texts, and it ends in both machines if
all words of both can be listed.
-/

namespace Concatenative

/-- Two operations end for the same reason, on related states. -/
structure Outcome.Alike
    {σ α : Type}
    (related : σ → σ → Prop)
    (left right : Outcome σ α) : Prop where
  result_eq : right.result = left.result
  states : related left.state right.state

namespace Outcome

variable {σ τ α β : Type} {related : σ → σ → Prop} {left right : Outcome σ α}

theorem alike_done
    {first second : σ}
    (states : related first second)
    (result : α) :
    Alike related (done first result) (done second result) :=
  ⟨rfl, states⟩

theorem alike_stopped
    {first second : σ}
    (states : related first second)
    (stop : Stop) :
    Alike related (stopped first stop : Outcome σ α) (stopped second stop) :=
  ⟨rfl, states⟩

/-- Operations that go on alike from related states end alike. -/
theorem Alike.andThen
    {leftNext rightNext : σ → α → Outcome σ β}
    (alike : Alike related left right)
    (next : ∀ first second result, left = done first result → related first second →
      Alike related (leftNext first result) (rightNext second result)) :
    Alike related (left.andThen leftNext) (right.andThen rightNext) := by
  obtain ⟨second, secondResult⟩ := right
  obtain ⟨rfl⟩ : secondResult = left.result := alike.result_eq
  rcases left.done_or_stopped with ⟨first, result, rfl⟩ | ⟨first, stop, rfl⟩
  · exact next first second result rfl alike.states
  · exact ⟨rfl, alike.states⟩

theorem Alike.mapState
    {mapped : τ → τ → Prop}
    {leftChange rightChange : σ → τ}
    (alike : Alike related left right)
    (change : ∀ first second, related first second →
      mapped (leftChange first) (rightChange second)) :
    Alike mapped (left.mapState leftChange) (right.mapState rightChange) :=
  ⟨alike.result_eq, change _ _ alike.states⟩

end Outcome

namespace Workspace

/-- The workspaces differ in the words of their dictionaries, and perhaps in the printed text. -/
structure Alike (printed : Prop) (left right : Workspace) : Prop where
  stack_eq : right.stack = left.stack
  store_eq : right.dictionary.store = left.dictionary.store
  output_eq : printed → right.output = left.output

namespace Alike

variable {printed : Prop} {left right : Workspace}

theorem withStack (alike : Alike printed left right) (stack : List Value) :
    Alike printed { left with stack } { right with stack } :=
  { alike with stack_eq := rfl }

theorem push (alike : Alike printed left right) (value : Value) :
    Alike printed (left.push value) (right.push value) := by
  refine { alike with stack_eq := ?_ }
  simp only [Workspace.push, alike.stack_eq]

theorem printLine (alike : Alike printed left right) (line : String) :
    Alike printed (left.printLine line) (right.printLine line) := by
  refine { alike with output_eq := fun observed => ?_ }
  simp only [Workspace.printLine, alike.output_eq observed]

theorem settled (alike : Alike printed left right) :
    Outcome.Alike (Alike printed) left.settled right.settled :=
  Outcome.alike_done alike []

theorem failed (alike : Alike printed left right) (cause : Error.Cause) :
    Outcome.Alike (Alike printed) (.failed left cause : Reaction) (.failed right cause) :=
  Outcome.alike_stopped alike _

theorem withOperands
    (alike : Alike printed left right)
    {specs : List Value.Spec}
    {uniform : Bool}
    {next : Workspace → List Value → Reaction}
    (goesOn : ∀ operands left right, Alike printed left right →
      Outcome.Alike (Alike printed) (next left operands) (next right operands)) :
    Outcome.Alike (Alike printed)
      (left.withOperands specs uniform next) (right.withOperands specs uniform next) := by
  unfold Workspace.withOperands
  rw [alike.stack_eq]
  split
  · rename_i cause pop_eq
    exact alike.failed cause
  · rename_i operands rest pop_eq
    exact goesOn operands _ _ (alike.withStack rest)

/-- The same items are listed alike. -/
theorem printEach
    {α : Type}
    (alike : Alike printed left right)
    (isWritable : α → Bool)
    (line : α → String)
    (items : List α) :
    Outcome.Alike (Alike printed)
      (left.printEach isWritable line items) (right.printEach isWritable line items) := by
  induction items generalizing left right with
  | nil => exact alike.settled
  | cons item items inductionHypothesis =>
      simp only [Workspace.printEach]
      split
      · exact inductionHypothesis (alike.printLine (line item))
      · exact Outcome.alike_stopped alike _

end Alike
end Workspace

/-- All entries can be listed. -/
def Dictionary.IsListable (dictionary : Dictionary) : Prop :=
  ∀ entry ∈ dictionary.entries, entry.isDisplayable = true

/-- Entries can be listed if no integer in the bodies of the words is over the limit. -/
theorem Dictionary.isListable_of_isShort
    {dictionary : Dictionary}
    (short : ∀ word ∈ dictionary.words, ∀ body, some body ∈ word.layers →
      ∀ value ∈ body, value.IsShort) :
    dictionary.IsListable := by
  intro entry present
  cases entry with
  | primitive primitive => rfl
  | compiled number word =>
      have entry_eq := entry?_eq_some_iff.mpr ⟨present, rfl⟩
      obtain ⟨index, -, -, word_eq⟩ := entry?_eq_compiled_iff.mp entry_eq
      rw [Entry.isDisplayable]
      cases latest_eq : word.latest? with
      | none => rfl
      | some body =>
          have layer := Word.mem_layers_of_latest? latest_eq
          exact (Value.allDisplayable_iff body).mpr
            (short word (List.mem_of_getElem? word_eq) body layer)

namespace Primitive

/-! ## Primitives do not depend on words -/

variable {printed : Prop} {left right : Workspace}

theorem alike_onIntegers
    (alike : left.Alike printed right)
    {next : Workspace → (bottom top : Int) → Reaction}
    (goesOn : ∀ bottom top left right, Workspace.Alike printed left right →
      Outcome.Alike (Workspace.Alike printed) (next left bottom top) (next right bottom top)) :
    Outcome.Alike (Workspace.Alike printed) (onIntegers left next) (onIntegers right next) := by
  refine alike.withOperands fun operands left right alike => ?_
  split
  · exact goesOn _ _ _ _ alike
  · exact alike.settled

theorem alike_ofIntegers
    (alike : left.Alike printed right)
    (operation : (bottom top : Int) → Value) :
    Outcome.Alike (Workspace.Alike printed)
      (ofIntegers left operation) (ofIntegers right operation) :=
  alike_onIntegers alike fun bottom top _ _ alike => (alike.push (operation bottom top)).settled

theorem alike_ofDivision
    (alike : left.Alike printed right)
    (part : Division → Int) :
    Outcome.Alike (Workspace.Alike printed) (ofDivision left part) (ofDivision right part) := by
  refine alike_onIntegers alike fun bottom top left right alike => ?_
  split
  · exact alike.failed _
  · exact (alike.push _).settled

theorem alike_ofComparison
    (alike : left.Alike printed right)
    (verdict : (same : Bool) → Bool) :
    Outcome.Alike (Workspace.Alike printed)
      (ofComparison left verdict) (ofComparison right verdict) := by
  refine alike.withOperands fun operands left right alike => ?_
  split
  · exact (alike.push _).settled
  · exact alike.settled

theorem alike_ofTruths
    (alike : left.Alike printed right)
    (operation : (bottom top : Bool) → Bool) :
    Outcome.Alike (Workspace.Alike printed)
      (ofTruths left operation) (ofTruths right operation) := by
  refine alike.withOperands fun operands left right alike => ?_
  split
  · exact (alike.push _).settled
  · exact alike.settled

theorem alike_storeVariable (alike : left.Alike printed right) :
    Outcome.Alike (Workspace.Alike printed) (storeVariable left) (storeVariable right) := by
  unfold storeVariable
  rw [alike.stack_eq]
  split
  · rename_i name content rest stack_eq
    simp only [alike.store_eq]
    split
    · exact Workspace.Alike.settled { alike with stack_eq := rfl, store_eq := rfl }
    · exact alike.failed _
  · exact alike.failed _
  · exact alike.failed _

theorem alike_fetchVariable (alike : left.Alike printed right) :
    Outcome.Alike (Workspace.Alike printed) (fetchVariable left) (fetchVariable right) := by
  unfold fetchVariable
  rw [alike.stack_eq]
  split
  · rename_i name rest stack_eq
    rw [alike.store_eq]
    split
    · exact (alike.withStack _).settled
    · exact alike.failed _
  · exact alike.failed _
  · exact alike.failed _

theorem alike_callBranch (alike : left.Alike printed right) :
    Outcome.Alike (Workspace.Alike printed) (callBranch left) (callBranch right) := by
  refine alike.withOperands fun operands left right alike => ?_
  split
  · exact Outcome.alike_done alike _
  · exact alike.settled

theorem alike_callQuotation (alike : left.Alike printed right) :
    Outcome.Alike (Workspace.Alike printed) (callQuotation left) (callQuotation right) := by
  refine alike.withOperands fun operands left right alike => ?_
  split
  · exact Outcome.alike_done alike _
  · exact alike.settled

/-- A listing ends if all its items can be written. -/
theorem result_printEach_eq_ok_iff
    {α : Type}
    (isWritable : α → Bool)
    (line : α → String)
    (items : List α)
    (workspace : Workspace) :
    (workspace.printEach isWritable line items).result = .ok [] ↔
      ∀ item ∈ items, isWritable item = true := by
  induction items generalizing workspace with
  | nil => simp [Workspace.printEach, Workspace.settled, Outcome.done]
  | cons item items inductionHypothesis =>
      simp only [Workspace.printEach, List.forall_mem_cons]
      split
      · rename_i writable
        rw [inductionHypothesis]
        exact ⟨fun later => ⟨writable, later⟩, And.right⟩
      · rename_i unwritable
        simp [Outcome.stopped, unwritable]

/-- The listing of the dictionary ends if all entries can be listed. -/
theorem result_listWords_eq_ok_iff (workspace : Workspace) :
    (listWords workspace).result = .ok [] ↔ workspace.dictionary.IsListable := by
  unfold listWords
  rw [result_printEach_eq_ok_iff]
  simp only [Dictionary.mem_sortedEntries]
  rfl

/-- The listing of the dictionary changes nothing but what is printed. -/
theorem state_listWords (workspace : Workspace) :
    ∃ output, (listWords workspace).state = { workspace with output } := by
  obtain ⟨output, result, -, print_eq⟩ := printEach_eq Entry.isDisplayable entryLine
    workspace.dictionary.sortedEntries
    (workspace.printLine (heading ("WORDS (compiled: "
      ++ Numeral.write (workspace.dictionary.nextId - 1) ++ ")")))
  exact ⟨output, congrArg Outcome.state print_eq⟩

/-- Listings of different dictionaries end alike if all entries can be listed. -/
theorem alike_listWords
    (alike : left.Alike printed right)
    (unobserved : ¬printed)
    (leftListable : left.dictionary.IsListable)
    (rightListable : right.dictionary.IsListable) :
    Outcome.Alike (Workspace.Alike printed) (listWords left) (listWords right) := by
  have leftEnds := (result_listWords_eq_ok_iff left).mpr leftListable
  have rightEnds := (result_listWords_eq_ok_iff right).mpr rightListable
  refine ⟨rightEnds.trans leftEnds.symm, ?_⟩
  obtain ⟨leftOutput, left_eq⟩ := state_listWords left
  obtain ⟨rightOutput, right_eq⟩ := state_listWords right
  rw [left_eq, right_eq]
  exact { alike with output_eq := fun observed => absurd observed unobserved }

/-- No primitive depends on the words, except for what the listing of them prints. -/
theorem alike_effect
    (alike : left.Alike printed right)
    (primitive : Primitive)
    (permitted : primitive = .printWords →
      ¬printed ∧ left.dictionary.IsListable ∧ right.dictionary.IsListable) :
    Outcome.Alike (Workspace.Alike printed) (primitive.effect left) (primitive.effect right) := by
  unfold effect
  cases primitive with
  | printWords =>
      obtain ⟨unobserved, leftListable, rightListable⟩ := permitted rfl
      exact alike_listWords alike unobserved leftListable rightListable
  | printStack =>
      simp only [listStack, alike.stack_eq]
      exact (alike.printLine _).printEach _ _ _
  | printVariables =>
      simp only [listVariables, alike.store_eq]
      exact (alike.printLine _).printEach _ _ _
  | print =>
      refine alike.withOperands fun operands left right alike => ?_
      exact alike.printEach _ _ operands
  | clear => exact (alike.withStack []).settled
  | drop => exact alike.withOperands fun _ _ _ alike => alike.settled
  | swap | twoSwap | rotate | rotateBack =>
      simp only [swapTop, swapPairs, rotateUp, rotateDown, alike.stack_eq]
      split
      · exact (alike.withStack _).settled
      · exact alike.failed _
  | pick =>
      simp only [pickValue, alike.stack_eq]
      split
      · exact alike.failed _
      · split
        · exact (alike.withStack _).settled
        · exact alike.failed _
      · exact alike.failed _
      · exact alike.failed _
  | store => exact alike_storeVariable alike
  | fetch => exact alike_fetchVariable alike
  | branch => exact alike_callBranch alike
  | call => exact alike_callQuotation alike
  | add | subtract | multiply | lowerThan | greaterThan | lowerOrEqual | greaterOrEqual =>
      exact alike_ofIntegers alike _
  | divide | modulo => exact alike_ofDivision alike _
  | equals | notEquals => exact alike_ofComparison alike _
  | and | or | xor => exact alike_ofTruths alike _
  | not =>
      refine alike.withOperands fun operands left right alike => ?_
      split
      · exact (alike.push _).settled
      · exact alike.settled
  | depth =>
      simp only [alike.stack_eq]
      exact (alike.push _).settled
  | bye => exact Outcome.alike_stopped alike _

end Primitive

/-! ## Later words and later layers -/

namespace Dictionary

variable {dictionary later : Dictionary}

/-- Words keep their numbers and all their layers, on which more may be stacked. -/
def Prolongs (dictionary later : Dictionary) : Prop :=
  ∀ (index : Nat) (word : Word), dictionary.words[index]? = some word →
    ∃ laterWord, later.words[index]? = some laterWord ∧ laterWord.name = word.name ∧
      word.layers <+: laterWord.layers

/-- A reference leads to a word, and to a layer of it that is there. -/
def Binds (dictionary : Dictionary) (reference : WordRef) : Prop :=
  ∃ entry, dictionary.entry? reference.id = some entry ∧
    (entry.isPrimitive = true ∨ 0 ≤ reference.layer ∧ reference.layer < entry.layers.length)

/-- All references in a value lead to layers that are there. -/
def IsBound (dictionary : Dictionary) (value : Value) : Prop :=
  ∀ reference, (Value.wordRef reference).Within value → dictionary.Binds reference

/-- The moves of a run make no references. -/
theorem discipline_isBound (dictionary : Dictionary) :
    Discipline dictionary.IsBound dictionary.IsBound where
  made value made := by
    rcases made with ⟨truth, rfl⟩ | ⟨number, rfl⟩ <;>
      exact fun reference within => nomatch within
  pushed value bound _ := bound
  opened content bound value present reference within := bound reference (.inside present within)

/-- Contents of variables do not matter. -/
theorem SameNames.isBound
    (same : SameNames dictionary later)
    {value : Value}
    (bound : dictionary.IsBound value) :
    later.IsBound value := by
  intro reference within
  obtain ⟨entry, entry_eq, layer_eq⟩ := bound reference within
  exact ⟨entry, (same.entry?_eq reference.id).trans entry_eq, layer_eq⟩

theorem SameNames.isListable
    (same : SameNames dictionary later)
    (listable : dictionary.IsListable) :
    later.IsListable := by
  unfold IsListable entries at listable ⊢
  rw [same.index_eq]
  exact listable

/-- Contents of variables do not matter on either side. -/
theorem Prolongs.of_sameNames
    {first second : Dictionary}
    (prolongs : dictionary.Prolongs later)
    (firstSame : dictionary.SameNames first)
    (secondSame : later.SameNames second) :
    first.Prolongs second := by
  unfold Prolongs
  rw [firstSame.words_eq, secondSame.words_eq]
  exact prolongs

end Dictionary

namespace Workspace

variable {printed : Prop} {left right : Workspace}

/-- Executing a value that is bound is the same where words are prolonged. -/
theorem Alike.react
    (alike : left.Alike printed right)
    (prolongs : left.dictionary.Prolongs right.dictionary)
    {value : Value}
    (bound : left.dictionary.IsBound value)
    (permitted : ∀ reference, value = .wordRef reference →
      left.dictionary.entry? reference.id = some (.primitive .printWords) →
      ¬printed ∧ left.dictionary.IsListable ∧ right.dictionary.IsListable) :
    Outcome.Alike (Alike printed) (left.react value) (right.react value) := by
  by_cases referred : ∃ reference, value = .wordRef reference
  · obtain ⟨reference, rfl⟩ := referred
    obtain ⟨entry, entry_eq, layer_eq⟩ := bound reference .self
    cases entry with
    | primitive primitive =>
        have later_eq : right.dictionary.entry? reference.id = some (.primitive primitive) :=
          Dictionary.entry?_eq_primitive_iff.mpr (Dictionary.entry?_eq_primitive_iff.mp entry_eq)
        rw [react_of_primitive entry_eq, react_of_primitive later_eq]
        refine primitive.alike_effect alike fun printsWords => ?_
        exact permitted reference rfl (printsWords ▸ entry_eq)
    | compiled number word =>
        obtain ⟨index, id_eq, number_eq, word_eq⟩ :=
          Dictionary.entry?_eq_compiled_iff.mp entry_eq
        obtain ⟨laterWord, later_eq, -, suffix, layers_eq⟩ := prolongs index word word_eq
        have laterEntry_eq : right.dictionary.entry? reference.id =
            some (.compiled number laterWord) :=
          Dictionary.entry?_eq_compiled_iff.mpr ⟨index, id_eq, number_eq, later_eq⟩
        have body_eq : laterWord.body? reference.layer = word.body? reference.layer := by
          simp only [Entry.isPrimitive, Bool.false_eq_true, false_or, Entry.layers] at layer_eq
          obtain ⟨layer, layer_nat⟩ := Int.eq_ofNat_of_zero_le layer_eq.1
          have inside : layer < word.layers.length := by omega
          rw [layer_nat]
          simp only [Word.body?, ← layers_eq, List.getElem?_append_left inside]
        cases found_eq : word.body? reference.layer with
        | none =>
            rw [react_of_pending entry_eq found_eq,
              react_of_pending laterEntry_eq (body_eq.trans found_eq)]
            exact alike.failed _
        | some body =>
            rw [react_of_body entry_eq found_eq,
              react_of_body laterEntry_eq (body_eq.trans found_eq)]
            exact Outcome.alike_done alike body
  · have datum : ∀ reference, value ≠ .wordRef reference :=
      fun reference value_eq => referred ⟨reference, value_eq⟩
    rw [react_of_datum datum, react_of_datum datum]
    exact Outcome.alike_done (alike.push value) []

end Workspace

namespace Machine

/-! ## Runs that go on alike -/

/--
The machines differ in later words and later layers only, and perhaps in what was printed,
and all references of the first lead to layers that are there.  Where the printed text may
differ, all words of both can be listed.
-/
structure Alike (printed : Prop) (left right : Machine) : Prop where
  workspace : left.toWorkspace.Alike printed right.toWorkspace
  prolongs : left.dictionary.Prolongs right.dictionary
  bound : left.Carries left.dictionary.IsBound left.dictionary.IsBound
  calls_eq : right.calls = left.calls
  limit_eq : right.limit = left.limit
  listable : ¬printed → left.dictionary.IsListable ∧ right.dictionary.IsListable

namespace Alike

variable {printed : Prop} {left right : Machine}

theorem enter
    (alike : Alike printed left right)
    {body : Body}
    (bound : ∀ value ∈ body, left.dictionary.IsBound value) :
    Outcome.Alike (Alike printed) (left.enter body) (right.enter body) := by
  have entered := alike.bound.enter bound
  unfold Machine.enter at entered ⊢
  rw [alike.calls_eq, alike.limit_eq]
  split
  · exact Outcome.alike_done alike ()
  · split
    · exact Outcome.alike_stopped alike _
    · rename_i filled below
      simp only [filled, below, if_false] at entered
      exact Outcome.alike_done { alike with bound := entered, calls_eq := rfl, limit_eq := rfl } ()

/-- Executing a value that is bound leaves the machines alike. -/
theorem execute
    (alike : Alike printed left right)
    {value : Value}
    (bound : left.dictionary.IsBound value)
    (permitted : ∀ reference, value = .wordRef reference →
      left.dictionary.entry? reference.id = some (.primitive .printWords) → ¬printed) :
    Outcome.Alike (Alike printed) (left.execute value) (right.execute value) := by
  have reacted := alike.workspace.react alike.prolongs bound fun reference value_eq entry_eq =>
    have unobserved := permitted reference value_eq entry_eq
    ⟨unobserved, alike.listable unobserved⟩
  have leftSame := left.toWorkspace.sameNames_react value
  have rightSame := right.toWorkspace.sameNames_react value
  obtain ⟨carries, handed⟩ :=
    alike.bound.workspace.react left.dictionary.discipline_isBound bound
  have inside : (left.withWorkspace (left.toWorkspace.react value).state).Carries
      left.dictionary.IsBound left.dictionary.IsBound :=
    ⟨carries, alike.bound.frames⟩
  have states : Alike printed
      (left.withWorkspace (left.toWorkspace.react value).state)
      (right.withWorkspace (right.toWorkspace.react value).state) :=
    { workspace := reacted.states
      prolongs := alike.prolongs.of_sameNames leftSame rightSame
      bound := inside.imp (fun _ => leftSame.isBound) fun _ => leftSame.isBound
      calls_eq := alike.calls_eq
      limit_eq := alike.limit_eq
      listable := fun unobserved =>
        (alike.listable unobserved).imp leftSame.isListable rightSame.isListable }
  refine Outcome.Alike.andThen ⟨reacted.result_eq, states⟩
    fun first second body left_eq related => ?_
  refine related.enter fun member present => ?_
  have state_eq := congrArg Outcome.state left_eq
  have result_eq := congrArg Outcome.result left_eq
  have dictionary_eq : (left.toWorkspace.react value).state.dictionary = first.dictionary :=
    congrArg (fun machine : Machine => machine.dictionary) state_eq
  rw [← dictionary_eq]
  exact leftSame.isBound (handed body result_eq member present)

/-- A step leaves the machines alike. -/
theorem step
    (alike : Alike printed left right)
    (permitted : left.primitive? = some .printWords → ¬printed) :
    Outcome.Alike (Alike printed) left.step right.step := by
  unfold Machine.step
  rw [alike.calls_eq]
  split
  · exact Outcome.alike_done alike ()
  · rename_i value calls take_eq
    obtain ⟨bound, remaining⟩ := alike.bound.take? take_eq
    have taken : Alike printed { left with calls } { right with calls } :=
      { alike with bound := remaining, calls_eq := rfl }
    refine taken.execute bound fun reference value_eq entry_eq => permitted ?_
    subst value_eq
    have found : left.dictionary.entry? reference.id = some (.primitive .printWords) := entry_eq
    simp only [primitive?, take_eq, found]

/-- Runs stay alike, step by step. -/
theorem runAbove
    (alike : Alike printed left right)
    {base fuel : Nat}
    (permitted : .printWords ∈ left.executedAbove base fuel → ¬printed) :
    Outcome.Alike (Alike printed) (left.runAbove base fuel) (right.runAbove base fuel) := by
  induction fuel generalizing left right with
  | zero =>
      unfold Machine.runAbove
      rw [alike.calls_eq]
      split
      · exact Outcome.alike_done alike ()
      · exact Outcome.alike_stopped alike _
  | succ fuel inductionHypothesis =>
      unfold Machine.runAbove
      rw [alike.calls_eq]
      split
      · exact Outcome.alike_done alike ()
      · rename_i above
        simp only [executedAbove, if_neg above, List.mem_append] at permitted
        have stepped := alike.step fun primitive_eq => permitted (.inl (by simp [primitive_eq]))
        refine stepped.andThen fun first second result step_eq related => ?_
        refine inductionHypothesis related fun listed => permitted (.inr ?_)
        rw [step_eq]
        exact listed

/-- A run of values that are bound leaves the machines alike. -/
theorem run
    (alike : Alike printed left right)
    {body : Body}
    (bound : ∀ value ∈ body, left.dictionary.IsBound value)
    {fuel : Nat}
    (permitted : .printWords ∈ left.executed fuel body → ¬printed) :
    Outcome.Alike (Alike printed) (left.run fuel body) (right.run fuel body) := by
  rw [run_eq, run_eq, alike.calls_eq]
  have within : Outcome.Alike (Alike printed)
      ((left.enter body).andThen fun inside _ => inside.runAbove left.calls.depth fuel)
      ((right.enter body).andThen fun inside _ => inside.runAbove left.calls.depth fuel) := by
    refine (alike.enter bound).andThen fun first second result enter_eq related => ?_
    refine related.runAbove fun listed => permitted ?_
    rw [executed, enter_eq]
    exact listed
  refine within.mapState fun first second related => ?_
  refine { related with bound := related.bound.unwind _, calls_eq := ?_ }
  simp only [unwind, related.calls_eq]

end Alike
end Machine
end Concatenative

import Concatenative.Proofs.Operation
import Concatenative.Proofs.Values

/-!
# The representation of the dictionary

However a session comes about, also by operations that fail, and even if its dictionary is
changed past the loader, the tables of its index agree with each other and with the counter:
names and numbers stay in bijection, words keep at least one layer with none but the newest
pending.  Nor is any name both a word and a variable.  Each operation changes the tables one
by one, so the agreement is proved by induction on the operations that built the index.

A dictionary that is changed through the loader only has no name that reads as a literal,
so at most one of the four rules by which a text is resolved applies to it.
-/

namespace Concatenative

namespace Dictionary

variable {dictionary later : Dictionary} {change : Change}

/-- Every change keeps the dictionary well formed. -/
theorem WellFormed.apply
    (wellFormed : dictionary.WellFormed)
    (apply_eq : change.apply dictionary = .ok later) :
    later.WellFormed := by
  cases change with
  | define name body => exact wellFormed.revise apply_eq
  | defer name => exact wellFormed.revise apply_eq
  | declareVariable name => exact wellFormed.declareVariable apply_eq

/-- Every change extends the dictionary. -/
theorem extends_apply (apply_eq : change.apply dictionary = .ok later) :
    dictionary.Extends later := by
  cases change with
  | define name body => exact extends_revise apply_eq
  | defer name => exact extends_revise apply_eq
  | declareVariable name => exact extends_declareVariable apply_eq

/--
The tables of a dictionary agree, and no name is both in the table of the numbers and among
the variables.
-/
structure IsRepresentation (dictionary : Dictionary) : Prop extends dictionary.index.Agrees where
  apart : ∀ name,
    ¬(dictionary.index.ids.contains name = true ∧ dictionary.store.contains name = true)

/-- A well-formed dictionary is a representation. -/
theorem WellFormed.isRepresentation (wellFormed : dictionary.WellFormed) :
    dictionary.IsRepresentation where
  toAgrees := dictionary.agrees
  apart name := by
    rintro ⟨known, declared⟩
    have free := wellFormed.store_apart name declared
    rw [contains, known] at free
    cases free

/-! ## Names -/

/-- A name is that of a word or of a variable. -/
def HasName (dictionary : Dictionary) (name : String) : Prop :=
  dictionary.contains name = true ∨ dictionary.store.contains name = true

/-- A change brings in no name but its own. -/
theorem hasName_of_apply
    (apply_eq : change.apply dictionary = .ok later)
    {name : String}
    (has : later.HasName name) :
    dictionary.HasName name ∨ name = change.name := by
  have revised : ∀ {word : String} {revision : Revision},
      dictionary.revise word revision = .ok later → dictionary.HasName name ∨ name = word := by
    intro word revision revise_eq
    have updates := revise_eq_ok_iff.mp revise_eq
    simp only [HasName, contains_iff, updates.words_eq, updates.store_eq,
      mem_map_name_changeWord revision.name_apply, Store.contains_erase] at has ⊢
    grind
  cases change with
  | define word body => exact revised apply_eq
  | defer word => exact revised apply_eq
  | declareVariable fresh =>
      obtain ⟨-, rfl⟩ := declareVariable_eq_ok apply_eq
      rcases has with word | declared
      · exact .inl (.inl word)
      · rcases Store.contains_declare.mp declared with old | same
        · exact .inl (.inr old)
        · exact .inr same

/-- A run brings in no name. -/
theorem SameNames.hasName_iff
    (same : SameNames dictionary later)
    {name : String} :
    later.HasName name ↔ dictionary.HasName name := by
  simp only [HasName, Dictionary.contains_eq, same.lookup_eq, same.contains_eq]

end Dictionary

/-! ## Rules of resolution -/

namespace Reader

/-- No name reads as a literal. -/
def HasPlainNames (dictionary : Dictionary) : Prop :=
  ∀ name, dictionary.HasName name → isLiteral name = false

/-- The rules by which a text is resolved. -/
inductive Rule where
  | truthValue
  | numeral
  | word
  | storedVariable
  deriving DecidableEq

namespace Rule

/-- The rules in the order in which they are tried. -/
def inOrder : List Rule :=
  [truthValue, numeral, word, storedVariable]

/-- What a rule makes of a text, if it applies. -/
def result? (dictionary : Dictionary) (text : String) : Rule → Option (Except Stop Value)
  | truthValue => (truth? text).map fun truth => .ok (.bool truth)
  | numeral =>
      if Numeral.isNumeral text then
        some (((Numeral.read text).map Value.int).mapError Stop.overlong)
      else none
  | word => (dictionary.reference? text).map fun reference => .ok (.wordRef reference)
  | storedVariable =>
      if dictionary.store.contains text then some (.ok (.variableRef text)) else none

/-- Whether a rule applies to a text. -/
def applies (dictionary : Dictionary) (text : String) (rule : Rule) : Bool :=
  (rule.result? dictionary text).isSome

/-- A text is resolved by the first rule that applies to it. -/
theorem resolve_eq_findSome? (dictionary : Dictionary) (text : String) :
    resolve dictionary text =
      (inOrder.findSome? (result? dictionary text)).getD
        (.error (.ofCause (.unresolved text))) := by
  unfold resolve
  cases truth_eq : truth? text with
  | some truth => simp [inOrder, result?, truth_eq]
  | none =>
      by_cases numeral : Numeral.isNumeral text = true
      · cases read_eq : Numeral.read text <;>
          simp only [inOrder, result?, truth_eq, numeral, read_eq, Option.map_none, if_true,
            List.findSome?_cons] <;>
          rfl
      · cases reference_eq : dictionary.reference? text with
        | some reference => simp [inOrder, result?, truth_eq, numeral, reference_eq]
        | none =>
            by_cases declared : dictionary.store.contains text = true <;>
              simp [inOrder, result?, truth_eq, numeral, reference_eq, declared]

section Applicability

variable (dictionary : Dictionary) (text : String)

@[simp] theorem applies_truthValue :
    truthValue.applies dictionary text = (truth? text).isSome := by
  simp [applies, result?]

@[simp] theorem applies_numeral :
    numeral.applies dictionary text = Numeral.isNumeral text := by
  cases numeral_eq : Numeral.isNumeral text <;> simp [applies, result?, numeral_eq]

@[simp] theorem applies_word : word.applies dictionary text = dictionary.contains text := by
  simp [applies, result?, Dictionary.reference?, Dictionary.contains_eq]

@[simp] theorem applies_storedVariable :
    storedVariable.applies dictionary text = dictionary.store.contains text := by
  cases declared_eq : dictionary.store.contains text <;> simp [applies, result?, declared_eq]

end Applicability

/-- No truth value is spelt as a numeral. -/
theorem isNumeral_of_truth? {text : String} (spelt : (truth? text).isSome = true) :
    Numeral.isNumeral text = false := by
  unfold truth? at spelt
  split at spelt
  · rename_i text_eq
    rw [text_eq]
    decide
  · split at spelt
    · rename_i text_eq
      rw [text_eq]
      decide
    · simp at spelt

/-- Where names are unambiguous and none reads as a literal, rules do not compete. -/
theorem eq_of_applies
    {dictionary : Dictionary}
    (wellFormed : dictionary.WellFormed)
    (plain : HasPlainNames dictionary)
    {text : String}
    {first second : Rule}
    (firstApplies : first.applies dictionary text = true)
    (secondApplies : second.applies dictionary text = true) :
    first = second := by
  have literal : (truth? text).isSome = true → Numeral.isNumeral text = false :=
    isNumeral_of_truth?
  have apart : dictionary.store.contains text = true → dictionary.contains text = false :=
    wellFormed.store_apart text
  have named : dictionary.contains text = true ∨ dictionary.store.contains text = true →
      (truth? text).isSome = false ∧ Numeral.isNumeral text = false := by
    intro has
    simpa [isLiteral] using plain text has
  cases first <;> cases second <;>
    simp only [applies_truthValue, applies_numeral, applies_word, applies_storedVariable]
      at firstApplies secondApplies <;>
    grind

/-- Where rules do not compete, every rule that applies settles what a text stands for. -/
theorem resolve_of_result?
    {dictionary : Dictionary}
    (wellFormed : dictionary.WellFormed)
    (plain : HasPlainNames dictionary)
    {text : String}
    {rule : Rule}
    {result : Except Stop Value}
    (result_eq : rule.result? dictionary text = some result) :
    resolve dictionary text = result := by
  rw [resolve_eq_findSome?]
  have listed : rule ∈ inOrder := by cases rule <;> decide
  cases found_eq : inOrder.findSome? (result? dictionary text) with
  | none =>
      rw [List.findSome?_eq_none_iff] at found_eq
      rw [found_eq rule listed] at result_eq
      simp at result_eq
  | some found =>
      obtain ⟨other, -, other_eq⟩ := List.exists_of_findSome?_eq_some found_eq
      have same : other = rule := by
        apply eq_of_applies wellFormed plain
        · rw [applies, other_eq, Option.isSome_some]
        · rw [applies, result_eq, Option.isSome_some]
      rw [same, result_eq] at other_eq
      rw [Option.getD_some, Option.some.inj other_eq]

end Rule
end Reader

namespace Session

/-! ## Sequences of operations -/

/-- The dictionary of a session stays well formed. -/
theorem isKept_wellFormed :
    IsKept (fun machine => machine.dictionary.WellFormed) fun _ _ => True where
  printed _ _ held := held
  changed _ _ _ held _ apply_eq := held.apply apply_eq
  dispatched machine _ _ value _ fuel held _ _ :=
    ⟨(machine.sameNames_run fuel [value]).wellFormed held, fun _ _ => trivial⟩
  static _ _ _ _ := trivial

/-- The name that a program gives a word or a variable does not read as a literal. -/
theorem isLiteral_of_loads
    {dictionary : Dictionary}
    {change : Dictionary.Change}
    (loads : Loads dictionary change) :
    Reader.isLiteral change.name = false := by
  have checked : ∀ {name : String}, Reader.checkName name = .ok () →
      Reader.isLiteral name = false := by
    intro name check_eq
    unfold Reader.checkName at check_eq
    split at check_eq
    · simp at check_eq
    · rename_i plain
      simpa using plain
  cases loads with
  | define _ read_eq =>
      unfold Reader.readDefinition at read_eq
      split at read_eq
      · simp at read_eq
      · rename_i check_eq
        exact checked check_eq
  | defer _ check_eq => exact checked check_eq
  | declareVariable _ check_eq => exact checked check_eq

/-- What holds of every name that a program gives holds of every name of a session. -/
theorem isKept_hasName
    {holds : String → Prop}
    (loaded : ∀ dictionary change, Loads dictionary change → holds change.name) :
    IsKept (fun machine => ∀ name, machine.dictionary.HasName name → holds name)
      fun _ _ => True where
  printed _ _ held := held
  changed _ _ _ held loads apply_eq name has := by
    rcases Dictionary.hasName_of_apply apply_eq has with old | name_eq
    · exact held name old
    · rw [name_eq]
      exact loaded _ _ loads
  dispatched machine _ _ value _ fuel held _ _ := by
    have same := machine.sameNames_run fuel [value]
    exact ⟨fun name has => held name (same.hasName_iff.mp has), fun _ _ => trivial⟩
  static _ _ _ _ := trivial

/-- The dictionary of a session has no name that reads as a literal. -/
theorem isKept_hasPlainNames :
    IsKept (fun machine => Reader.HasPlainNames machine.dictionary) fun _ _ => True :=
  isKept_hasName fun _ _ => isLiteral_of_loads

/-- The names of a new session are those of the primitives. -/
theorem exists_primitive_of_hasName_initial
    {name : String}
    (has : Dictionary.initial.HasName name) :
    ∃ primitive : Primitive, primitive.name = name := by
  have found : (Primitive.ofName? name).isSome = true := by
    rcases has with word | declared
    · simpa [Dictionary.contains_iff, Dictionary.words_initial] using word
    · cases declared
  obtain ⟨primitive, found⟩ := Option.isSome_iff_exists.mp found
  exact ⟨primitive, Primitive.name_of_ofName? found⟩

theorem hasPlainNames_initial : Reader.HasPlainNames .initial := by
  intro name has
  obtain ⟨primitive, rfl⟩ := exists_primitive_of_hasName_initial has
  cases primitive <;> decide

/-- A well-formed dictionary stays so whatever is done to its session. -/
theorem wellFormed_after
    (environment : Environment)
    (withPrelude : Bool)
    (limit : DepthLimit)
    (operations : List Operation) :
    ((start environment withPrelude limit).after operations).dictionary.WellFormed := by
  have started : (start environment withPrelude limit).dictionary.WellFormed :=
    isKept_wellFormed.start Dictionary.wellFormed_initial environment withPrelude
  exact isKept_wellFormed.after (fun _ _ _ held apply_eq => held.apply apply_eq) started
    operations

/-- Loading brings in no name that reads as a literal. -/
theorem hasPlainNames_after
    (environment : Environment)
    (withPrelude : Bool)
    (limit : DepthLimit)
    {operations : List Operation}
    (loading : ∀ operation ∈ operations, operation.isLoading = true) :
    Reader.HasPlainNames ((start environment withPrelude limit).after operations).dictionary := by
  have reached : IsReached ((start environment withPrelude limit).after operations) :=
    ⟨environment, withPrelude, limit, operations, loading, rfl⟩
  exact isKept_hasPlainNames.of_isReached (fun _ => hasPlainNames_initial) reached

/--
The dictionary of a session is a representation after any operations, failing ones
included: its tables and its counter agree, and its words are no variables.  If they change
it through the loader only, no name reads as a literal, at most one rule applies to a text,
and that rule settles what the text stands for.
-/
theorem isRepresentation_after
    (environment : Environment)
    (withPrelude : Bool)
    (limit : DepthLimit)
    (operations : List Operation)
    (dictionary : Dictionary)
    (dictionary_eq :
      dictionary = ((start environment withPrelude limit).after operations).dictionary) :
    dictionary.IsRepresentation ∧
      ((∀ operation ∈ operations, operation.isLoading = true) →
        (∀ name, dictionary.HasName name →
          name ≠ "true" ∧ name ≠ "false" ∧ Numeral.isNumeral name = false) ∧
        (∀ text (first second : Reader.Rule),
          first.applies dictionary text = true →
          second.applies dictionary text = true →
          first = second) ∧
        ∀ text (rule : Reader.Rule) result,
          rule.result? dictionary text = some result →
          Reader.resolve dictionary text = result) := by
  have wellFormed : dictionary.WellFormed := by
    rw [dictionary_eq]
    exact wellFormed_after environment withPrelude limit operations
  refine ⟨wellFormed.isRepresentation, fun loading => ?_⟩
  have plain : Reader.HasPlainNames dictionary := by
    rw [dictionary_eq]
    exact hasPlainNames_after environment withPrelude limit loading
  refine ⟨fun name has => ?_, fun text first second => ?_, fun text rule result => ?_⟩
  · have unread := plain name has
    simp only [Reader.isLiteral, Bool.or_eq_false_iff] at unread
    refine ⟨?_, ?_, unread.2⟩
    · rintro rfl
      exact absurd unread.1 (by decide)
    · rintro rfl
      exact absurd unread.1 (by decide)
  · exact Reader.Rule.eq_of_applies wellFormed plain
  · exact Reader.Rule.resolve_of_result? wellFormed plain

/--
Words and a variable are loaded by two lines, the second of which fails at its end.  Had the
counter been changed once more, or one name been forgotten, the tables would not agree.
-/
theorem isRepresentation_after_failure :
    ∃ dictionary : Dictionary,
      dictionary.index.ids.get? "twice" = some 1 ∧
      dictionary.index.ids.get? "thrice" = some 2 ∧
      dictionary.index.nextId = 3 ∧
      dictionary.store.contains "total" = true ∧
      dictionary.IsRepresentation ∧
      ¬ Index.Agrees { dictionary.index with nextId := 4 } ∧
      ¬ Index.Agrees { dictionary.index with ids := .empty } ∧
      Reader.resolve dictionary "total" = .ok (.variableRef "total") := by
  let environment : Environment := ⟨.empty [], 9⟩
  let operations : List Operation :=
    [.execute environment "<input>" ": twice 2 * ; :variable total",
      .execute environment "<input>" ": thrice 3 * ; 3 thrice total ! twice"]
  let dictionary := ((start environment false .standard).after operations).dictionary
  obtain ⟨represented, loaded⟩ :=
    isRepresentation_after environment false .standard operations dictionary rfl
  have checked : dictionary.index.ids.get? "twice" = some 1 ∧
      dictionary.index.ids.get? "thrice" = some 2 ∧ dictionary.index.nextId = 3 ∧
      dictionary.store.contains "total" = true := by
    decide +kernel
  obtain ⟨twice, thrice, next, declared⟩ := checked
  have ahead : ¬ Index.Agrees { dictionary.index with nextId := 4 } := by
    intro agrees
    have counted := (represented.compiled_ids 3).mp ((agrees.compiled_ids 3).mpr (by decide))
    rw [next] at counted
    exact absurd counted.2 (by decide)
  have forgotten : ¬ Index.Agrees { dictionary.index with ids := .empty } := by
    intro agrees
    obtain ⟨entry, entry_eq, -, -⟩ := represented.entry_of_id "twice" 1 twice
    cases (agrees.id_of_entry 1 entry entry_eq).2
  refine ⟨dictionary, twice, thrice, next, declared, represented, ahead, forgotten, ?_⟩
  refine (loaded (by decide)).2.2 "total" .storedVariable _ ?_
  rw [Reader.Rule.result?, declared]
  rfl

end Session
end Concatenative

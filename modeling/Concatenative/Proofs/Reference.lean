import Concatenative.Proofs.Representation

/-!
# References and the dictionary

A reference is known to a dictionary when the word with its name has its number and its
layer.  Values are sorted by what they hold: code, which stands in bodies and quotations,
holds known references, declared variables and numerals that can be written; data, which
stands on the stack and in variables, is the same without bare references, but may be the
content of a variable that nothing was stored to.

What the reader makes of a text is code, and no change of the dictionary makes it forget
what it knows.
-/

namespace Concatenative

namespace Numeral

/-- A run of digits stands for a number with no more digits. -/
theorem ofDigitChars_lt
    {digits : List Char}
    (numeral : ∀ digit ∈ digits, digit.isDigit = true) :
    Nat.ofDigitChars 10 digits 0 < Nat.pow 10 digits.length := by
  induction digits with
  | nil => simp
  | cons digit digits inductionHypothesis =>
      have later : Nat.ofDigitChars 10 digits 0 < Nat.pow 10 digits.length :=
        inductionHypothesis fun other present => numeral other (List.mem_cons_of_mem digit present)
      have digit_le : digit.toNat - '0'.toNat ≤ 9 := by
        have isDigit := numeral digit List.mem_cons_self
        simp only [Char.isDigit, Bool.and_eq_true, decide_eq_true_eq] at isDigit
        have upper : digit.toNat ≤ 57 := isDigit.2
        simp only [Char.reduceToNat]
        omega
      have scaled := Nat.mul_le_mul_left (Nat.pow 10 digits.length) digit_le
      rw [Nat.pow_eq] at later scaled
      rw [Nat.ofDigitChars_cons, Nat.ofDigitChars_eq_ofDigitChars_zero, List.length_cons,
        Nat.pow_eq, Nat.pow_succ, Nat.mul_zero, Nat.zero_add]
      omega

/-- What is read can be written. -/
theorem isWritable_of_read
    {text : String}
    {number : Int}
    (numeral : isNumeral text = true)
    (read_eq : read text = .ok number) :
    isWritable number = true := by
  have digital : ∀ digit ∈ (splitSign text.toList).2, digit.isDigit = true := by
    simp only [isNumeral, Bool.and_eq_true, List.all_eq_true] at numeral
    exact numeral.2
  have bound := ofDigitChars_lt digital
  simp only [read] at read_eq
  split at read_eq
  · rename_i short
    have fits : Nat.pow 10 (splitSign text.toList).2.length ≤ magnitudeBound := by
      unfold magnitudeBound
      generalize digitLimit = limit at short ⊢
      exact Nat.pow_le_pow_right (by decide) short
    simp only [Except.ok.injEq] at read_eq
    have magnitude : number.natAbs = Nat.ofDigitChars 10 (splitSign text.toList).2 0 := by
      rw [← read_eq, ofDigits]
      split
      · rw [Int.natAbs_neg, Int.natAbs_natCast]
      · rw [Int.natAbs_natCast]
    rw [isWritable, decide_eq_true_eq, magnitude]
    exact Nat.lt_of_lt_of_le bound fits
  · simp at read_eq

end Numeral

namespace Dictionary

/-! ## References that a dictionary knows -/

/-- The word with the name of a reference has its number and its layer. -/
def Knows (dictionary : Dictionary) (reference : WordRef) : Prop :=
  ∃ entry, dictionary.lookup reference.name = some entry ∧ entry.id = reference.id ∧
    (entry.isPrimitive = true ∧ reference.layer = 0 ∨
      0 ≤ reference.layer ∧ reference.layer < entry.layers.length)

/-- A name is that of a variable, or of a compiled word, which may have taken it over. -/
def Declares (dictionary : Dictionary) (name : String) : Prop :=
  dictionary.store.contains name = true ∨ name ∈ dictionary.words.map Word.name

/-- What may occur in code, at any depth. -/
def Admits (dictionary : Dictionary) : Value → Prop
  | .nil => False
  | .int number => Numeral.isWritable number = true
  | .variableRef name => dictionary.Declares name
  | .wordRef reference => dictionary.Knows reference
  | .bool _ | .text _ | .quotation _ => True

/-- A value that may stand in a body or in a quotation. -/
def IsCode (dictionary : Dictionary) (value : Value) : Prop :=
  ∀ part : Value, part.Within value → dictionary.Admits part

/-- A value that may stand on the stack or in a variable. -/
def IsDatum (dictionary : Dictionary) : Value → Prop
  | .wordRef _ => False
  | .variableRef name => dictionary.Declares name
  | .quotation content => ∀ value ∈ content, dictionary.IsCode value
  | .nil | .bool _ | .int _ | .text _ => True

variable {dictionary later : Dictionary} {value : Value}

/-- A value that holds no other is code if it may occur in code. -/
theorem isCode_of_admits
    (admitted : dictionary.Admits value)
    (atomic : ∀ content, value ≠ .quotation content) :
    dictionary.IsCode value :=
  Value.forall_within_of_atomic admitted atomic

/-- A quotation of code is code. -/
theorem isCode_quotation
    {content : List Value}
    (coded : ∀ value ∈ content, dictionary.IsCode value) :
    dictionary.IsCode (.quotation content) :=
  Value.forall_within_quotation trivial coded

/-- What occurs in code is code. -/
theorem IsCode.within
    (coded : dictionary.IsCode value)
    {part : Value}
    (within : part.Within value) :
    dictionary.IsCode part :=
  fun _ deeper => coded _ (deeper.trans within)

/-- What occurs in data is the data itself or code. -/
theorem IsDatum.within
    (datum : dictionary.IsDatum value)
    {part : Value}
    (within : part.Within value) :
    part = value ∨ dictionary.IsCode part := by
  cases within with
  | self => exact .inl rfl
  | inside present deeper => exact .inr (IsCode.within (datum _ present) deeper)

/-- Code and data are kept apart by the moves of a run. -/
theorem discipline (dictionary : Dictionary) :
    Discipline dictionary.IsDatum dictionary.IsCode where
  made value made := by
    rcases made with ⟨truth, rfl⟩ | ⟨number, rfl⟩ <;> trivial
  pushed value coded notReference := by
    cases value with
    | wordRef reference => exact absurd rfl (notReference reference)
    | variableRef name => exact coded _ .self
    | quotation content =>
        exact fun value present part within => coded part (.inside present within)
    | nil | bool _ | int _ | text _ => trivial
  opened content datum := datum

/-- A reference to the newest layer of a word is known. -/
theorem knows_of_reference?
    {name : String}
    {reference : WordRef}
    (reference_eq : dictionary.reference? name = some reference) :
    dictionary.Knows reference := by
  obtain ⟨entry, lookup_eq, rfl⟩ := Option.map_eq_some_iff.mp reference_eq
  refine ⟨entry, lookup_eq, rfl, ?_⟩
  obtain ⟨-, entry_eq⟩ := name_and_entry?_of_lookup lookup_eq
  cases entry with
  | primitive primitive => exact .inl ⟨rfl, rfl⟩
  | compiled number word =>
      obtain ⟨index, -, -, word_eq⟩ := entry?_eq_compiled_iff.mp entry_eq
      have layered := (dictionary.areSound.words_sound word (List.mem_of_getElem? word_eq)).layered
      have positive := List.length_pos_iff.mpr layered
      simp only [Entry.current, Word.current, Entry.layers]
      omega

/-! ## What later dictionaries know -/

/-- What is admitted in code, and what is declared, in a dictionary is so in another. -/
structure Preserves (dictionary later : Dictionary) : Prop where
  declares : ∀ name, dictionary.Declares name → later.Declares name
  knows : ∀ reference, dictionary.Knows reference → later.Knows reference

theorem Preserves.isCode
    (preserves : Preserves dictionary later)
    (coded : dictionary.IsCode value) :
    later.IsCode value := by
  intro part within
  have admitted := coded part within
  cases part with
  | variableRef name => exact preserves.declares name admitted
  | wordRef reference => exact preserves.knows reference admitted
  | nil | int _ => exact admitted
  | bool _ | text _ | quotation _ => trivial

theorem Preserves.isDatum
    (preserves : Preserves dictionary later)
    (datum : dictionary.IsDatum value) :
    later.IsDatum value := by
  cases value with
  | variableRef name => exact preserves.declares name datum
  | wordRef reference => exact datum
  | quotation content => exact fun member present => preserves.isCode (datum member present)
  | nil | bool _ | int _ | text _ => trivial

/-- Contents of variables do not matter. -/
theorem SameNames.preserves (same : SameNames dictionary later) : Preserves dictionary later where
  declares name declared := by
    rw [Declares, same.contains_eq, same.words_eq]
    exact declared
  knows reference known := by
    obtain ⟨entry, lookup_eq, settled⟩ := known
    exact ⟨entry, (same.lookup_eq reference.name).trans lookup_eq, settled⟩

/-- Nothing that is known gets lost when a dictionary is extended. -/
theorem Extends.preserves
    (extends_later : dictionary.Extends later) :
    Preserves dictionary later where
  declares name declared := by
    rcases declared with variable_eq | word_eq
    · exact extends_later.store name variable_eq
    · obtain ⟨word, present, rfl⟩ := List.mem_map.mp word_eq
      obtain ⟨index, index_eq⟩ := List.getElem?_of_mem present
      obtain ⟨laterWord, later_eq, extended⟩ := extends_later.words index word index_eq
      rw [← extended.name_eq]
      exact .inr (List.mem_map_of_mem (List.mem_of_getElem? later_eq))
  knows reference known := by
    obtain ⟨entry, lookup_eq, id_eq, layer_eq⟩ := known
    obtain ⟨named, entry_eq⟩ := name_and_entry?_of_lookup lookup_eq
    cases entry with
    | primitive primitive =>
        have kept : later.entry? reference.id = some (.primitive primitive) :=
          entry?_eq_primitive_iff.mpr id_eq
        have found := lookup_of_entry?_eq kept
        rw [named] at found
        exact ⟨.primitive primitive, found, id_eq, layer_eq⟩
    | compiled number word =>
        obtain ⟨index, -, rfl, word_eq⟩ := entry?_eq_compiled_iff.mp entry_eq
        obtain ⟨laterWord, later_eq, extended⟩ := extends_later.words index word word_eq
        have found := lookup_of_getElem? later_eq
        rw [extended.name_eq] at found
        have name_eq : word.name = reference.name := named
        refine ⟨.compiled (index + 1) laterWord, name_eq ▸ found, id_eq, .inr ?_⟩
        have length_le := extended.length_le
        simp only [Entry.isPrimitive, Bool.false_eq_true, false_and, false_or, Entry.layers]
          at layer_eq ⊢
        omega

/-! ## What changes bring in -/

/-- A definition brings in no body but its own. -/
theorem mem_layers_of_apply
    {change : Change}
    (apply_eq : change.apply dictionary = .ok later)
    {word : Word}
    (present : word ∈ later.words)
    {body : Body}
    (layer : some body ∈ word.layers) :
    (∃ before ∈ dictionary.words, some body ∈ before.layers) ∨
      ∃ name, change = .define name body := by
  have revised : ∀ {name : String} {revision : Revision},
      dictionary.revise name revision = .ok later →
        word ∈ dictionary.words ∨ ∃ before, (before ∈ dictionary.words ∨ before.layers = []) ∧
          word = revision.apply before := by
    intro name revision revise_eq
    rw [(revise_eq_ok_iff.mp revise_eq).words_eq] at present
    rcases mem_changeWord present with old | ⟨before, -, origin, word_eq⟩
    · exact .inl old
    · exact .inr ⟨before, origin, word_eq⟩
  have older : ∀ before : Word, (before ∈ dictionary.words ∨ before.layers = []) →
      some body ∈ before.layers → ∃ before ∈ dictionary.words, some body ∈ before.layers := by
    rintro before (old | empty) found
    · exact ⟨before, old, found⟩
    · simp [empty] at found
  cases change with
  | define name new =>
      rcases revised apply_eq with old | ⟨before, origin, rfl⟩
      · exact .inl ⟨word, old, layer⟩
      · rcases Word.mem_layers_define layer with found | equal
        · exact .inl (older before origin found)
        · exact .inr ⟨name, by rw [Option.some.inj equal]⟩
  | defer name =>
      rcases revised apply_eq with old | ⟨before, origin, rfl⟩
      · exact .inl ⟨word, old, layer⟩
      · exact .inl (older before origin (Word.mem_layers_reserve layer))
  | declareVariable name =>
      obtain ⟨-, rfl⟩ := declareVariable_eq_ok apply_eq
      exact .inl ⟨word, present, layer⟩

/-- A change gives no variable a content but that of one that nothing was stored to. -/
theorem mem_bindings_of_apply
    {change : Change}
    (apply_eq : change.apply dictionary = .ok later)
    {binding : String × Value}
    (present : binding ∈ later.store.bindings) :
    binding ∈ dictionary.store.bindings ∨ binding.2 = .nil := by
  have revised : ∀ {name : String} {revision : Revision},
      dictionary.revise name revision = .ok later → binding ∈ dictionary.store.bindings := by
    intro name revision revise_eq
    rw [(revise_eq_ok_iff.mp revise_eq).store_eq] at present
    exact (List.mem_filter.mp present).1
  cases change with
  | define name body => exact .inl (revised apply_eq)
  | defer name => exact .inl (revised apply_eq)
  | declareVariable name =>
      obtain ⟨-, rfl⟩ := declareVariable_eq_ok apply_eq
      exact Store.mem_bindings_declare present

end Dictionary

/-- A change that brings in code only respects where values are kept. -/
theorem Machine.Carries.withDictionary
    {machine : Machine}
    {datum code : Value → Prop}
    (carries : machine.Carries datum code)
    (unset : datum .nil)
    {change : Dictionary.Change}
    (coded : ∀ name body, change = .define name body → ∀ value ∈ body, code value)
    {later : Dictionary}
    (apply_eq : change.apply machine.dictionary = .ok later) :
    (machine.withDictionary later).Carries datum code := by
  refine ⟨⟨carries.workspace.stack, fun binding present => ?_, ?_⟩, carries.frames⟩
  · rcases Dictionary.mem_bindings_of_apply apply_eq present with old | content_eq
    · exact carries.workspace.store binding old
    · rw [content_eq]
      exact unset
  · intro word inWords body inLayers value present
    rcases Dictionary.mem_layers_of_apply apply_eq inWords inLayers with
      ⟨before, inBefore, old⟩ | ⟨name, change_eq⟩
    · exact carries.workspace.bodies before inBefore body old value present
    · exact coded name body change_eq value present

namespace Reader

/-! ## What is read is code -/

variable {dictionary : Dictionary} {tokens rest : List Token} {value : Value}

/-- A text stands for a truth value, an integer, a word or a variable. -/
theorem resolve_eq_ok
    {text : String}
    (resolve_eq : resolve dictionary text = .ok value) :
    (∃ truth, value = .bool truth) ∨
      (∃ number, Numeral.isNumeral text = true ∧ Numeral.read text = .ok number ∧
        value = .int number) ∨
      (∃ reference, dictionary.reference? text = some reference ∧ value = .wordRef reference) ∨
      dictionary.store.contains text = true ∧ value = .variableRef text := by
  unfold resolve at resolve_eq
  split at resolve_eq
  · rename_i truth truth_eq
    exact .inl ⟨truth, (Except.ok.inj resolve_eq).symm⟩
  · split at resolve_eq
    · rename_i numeral
      split at resolve_eq
      · rename_i number read_eq
        exact .inr (.inl ⟨number, numeral, read_eq, (Except.ok.inj resolve_eq).symm⟩)
      · simp at resolve_eq
    · split at resolve_eq
      · rename_i reference reference_eq
        exact .inr (.inr (.inl ⟨reference, reference_eq, (Except.ok.inj resolve_eq).symm⟩))
      · split at resolve_eq
        · rename_i declared
          exact .inr (.inr (.inr ⟨declared, (Except.ok.inj resolve_eq).symm⟩))
        · simp at resolve_eq

/-- What a text stands for is code: a reference is bound to a layer that is there. -/
theorem isCode_of_resolve
    {text : String}
    (resolve_eq : resolve dictionary text = .ok value) :
    dictionary.IsCode value := by
  rcases resolve_eq_ok resolve_eq with
    ⟨truth, rfl⟩ | ⟨number, numeral, read_eq, rfl⟩ | ⟨reference, reference_eq, rfl⟩ |
      ⟨declared, rfl⟩
  · exact Dictionary.isCode_of_admits trivial (by simp)
  · exact Dictionary.isCode_of_admits (Numeral.isWritable_of_read numeral read_eq) (by simp)
  · exact Dictionary.isCode_of_admits (Dictionary.knows_of_reference? reference_eq) (by simp)
  · exact Dictionary.isCode_of_admits (.inl declared) (by simp)

/-- What is read from accepted tokens has a property, as far as single tokens go. -/
structure Yields
    (dictionary : Dictionary)
    (accepted : Token → Prop)
    (holds : Value → Prop) : Prop where
  resolved : ∀ text value,
    accepted (.word text) → resolve dictionary text = .ok value → holds value
  literal : ∀ characters, accepted (.literal characters) → holds (.text characters)
  quoted : ∀ content, (∀ value ∈ content, holds value) → holds (.quotation content)

section Yields

variable {accepted : Token → Prop} {holds : Value → Prop}

/-- A quotation that is read has the property if what it is made of has. -/
theorem Yields.readQuotation
    (yields : Yields dictionary accepted holds)
    (written : ∀ token ∈ tokens, accepted token)
    {content : List Value}
    {outer : List (List Value)}
    (held : ∀ value ∈ content, holds value)
    (outerHeld : ∀ enclosing ∈ outer, ∀ value ∈ enclosing, holds value)
    (read_eq : readQuotation dictionary content outer tokens = .ok (value, rest)) :
    holds value := by
  induction tokens generalizing content outer with
  | nil => simp [Reader.readQuotation] at read_eq
  | cons token tokens inductionHypothesis =>
      rw [List.forall_mem_cons] at written
      have later := @inductionHypothesis written.2
      cases token with
      | directive _ | header _ | terminator => simp [Reader.readQuotation] at read_eq
      | openQuotation =>
          simp only [Reader.readQuotation] at read_eq
          exact later (by simp) (List.forall_mem_cons.mpr ⟨held, outerHeld⟩) read_eq
      | closeQuotation =>
          have closed : holds (.quotation content.reverse) :=
            yields.quoted _ fun member present => held member (List.mem_reverse.mp present)
          simp only [Reader.readQuotation] at read_eq
          split at read_eq
          · simp only [Except.ok.injEq, Prod.mk.injEq] at read_eq
            rw [← read_eq.1]
            exact closed
          · rename_i enclosing outer
            rw [List.forall_mem_cons] at outerHeld
            exact later (List.forall_mem_cons.mpr ⟨closed, outerHeld.1⟩) outerHeld.2 read_eq
      | literal characters =>
          simp only [Reader.readQuotation] at read_eq
          have literal := yields.literal characters written.1
          exact later (List.forall_mem_cons.mpr ⟨literal, held⟩) outerHeld read_eq
      | word characters =>
          simp only [Reader.readQuotation] at read_eq
          split at read_eq
          · simp at read_eq
          · rename_i first resolve_eq
            have resolved := yields.resolved characters first written.1 resolve_eq
            exact later (List.forall_mem_cons.mpr ⟨resolved, held⟩) outerHeld read_eq

/-- A value that is read has the property. -/
theorem Yields.readValue
    (yields : Yields dictionary accepted holds)
    {token : Token}
    (written : ∀ member ∈ token :: tokens, accepted member)
    (read_eq : readValue dictionary token tokens = .ok (value, rest)) :
    holds value := by
  rw [List.forall_mem_cons] at written
  unfold Reader.readValue at read_eq
  split at read_eq
  · simp only [Except.ok.injEq, Prod.mk.injEq] at read_eq
    rw [← read_eq.1]
    exact yields.literal _ written.1
  · exact yields.readQuotation written.2 (by simp) (by simp) read_eq
  · rename_i characters
    cases resolve_eq : resolve dictionary characters with
    | error stop => simp [resolve_eq, Except.map] at read_eq
    | ok resolved =>
        simp only [resolve_eq, Except.map, Except.ok.injEq, Prod.mk.injEq] at read_eq
        rw [← read_eq.1]
        exact yields.resolved characters resolved written.1 resolve_eq
  · simp at read_eq

/-- The values of a body that is read have the property. -/
theorem Yields.readBody
    (yields : Yields dictionary accepted holds)
    (written : ∀ token ∈ tokens, accepted token)
    {name : String}
    {body : List Value}
    {result : Body}
    (held : ∀ value ∈ body, holds value)
    (read_eq : readBody dictionary name body tokens = .ok (result, rest)) :
    ∀ value ∈ result, holds value := by
  fun_induction Reader.readBody dictionary name body tokens with
  | case1 | case3 | case4 | case5 => simp at read_eq
  | case2 =>
      simp only [Except.ok.injEq, Prod.mk.injEq] at read_eq
      rw [← read_eq.1]
      exact fun member present => held member (List.mem_reverse.mp present)
  | case6 body token tokens _ _ _ value remaining value_eq inductionHypothesis =>
      have follow := (readValue_append value_eq).1
      refine inductionHypothesis (fun member present => ?_) ?_ read_eq
      · exact written member (.tail token (follow.subset present))
      · exact List.forall_mem_cons.mpr ⟨yields.readValue written value_eq, held⟩

/-- The values of a definition that is read have the property. -/
theorem Yields.readDefinition
    (yields : Yields dictionary accepted holds)
    (written : ∀ token ∈ tokens, accepted token)
    {name : String}
    {body : Body}
    (read_eq : readDefinition dictionary name tokens = .ok (body, rest)) :
    ∀ value ∈ body, holds value := by
  unfold Reader.readDefinition at read_eq
  split at read_eq
  · simp at read_eq
  · exact yields.readBody written (by simp) read_eq

end Yields

/-- What is read from any tokens is code. -/
theorem yields_isCode (dictionary : Dictionary) :
    Yields dictionary (fun _ => True) dictionary.IsCode where
  resolved _ _ _ := isCode_of_resolve
  literal _ _ := Dictionary.isCode_of_admits trivial (by simp)
  quoted _ := Dictionary.isCode_quotation

end Reader
end Concatenative

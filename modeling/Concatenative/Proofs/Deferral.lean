import Concatenative.Proofs.History
import Concatenative.Proofs.Recursion

/-!
# Reserved words

A word is reserved so that code can refer to it before it is defined.  The reservation
leaves no trace: once the word is defined, the dictionary is the one that the definition
alone would have led to.  Until then the reserved layer stays where it is, under the number
of its word and as the newest of its layers, whatever other names are defined, reserved or
declared.  So every reference that was taken to it meanwhile leads to the body that it is
given in the end.
-/

namespace Concatenative

namespace Word

variable {word : Word}

/-- A word that is reserved is not changed by being reserved again. -/
theorem reserve_of_isPending (pending : word.isPending = true) : word.reserve = word := by
  rw [reserve, if_pos pending]

/-- A definition fills the layer that a reservation adds. -/
theorem define_reserve (word : Word) (body : Body) : word.reserve.define body = word.define body := by
  by_cases pending : word.isPending = true
  · rw [reserve_of_isPending pending]
  · have reserved : word.reserve = { word with layers := word.layers ++ [none] } := by
      rw [reserve, if_neg pending]
    rw [define, if_pos isPending_reserve, define, if_neg pending, reserved]
    simp only [List.dropLast_concat]

/-- The layer that a definition fills keeps its number. -/
theorem current_define_of_isPending
    (pending : word.isPending = true)
    (body : Body) :
    (word.define body).current = word.current := by
  rw [current, current, length_define, if_pos pending]

/-- The newest layer of a reserved word has no body. -/
theorem body?_current_of_isPending (pending : word.isPending = true) :
    word.body? word.current = none := by
  have last_eq : word.layers[word.current]? = some none := by
    have layers_eq := layers_of_isPending pending
    rw [current, layers_eq, List.length_append, List.length_singleton, Nat.add_sub_cancel]
    exact List.getElem?_concat_length
  change word.layers[word.current]?.join = none
  rw [last_eq, Option.join_some]

end Word

theorem Store.erase_erase (store : Store) (name : String) :
    (store.erase name).erase name = store.erase name := by
  simp only [erase, List.filter_filter, Bool.and_self]

namespace Dictionary

variable {dictionary later : Dictionary} {name : String} {reference : WordRef} {body : Body}

/-! ## Changes of one word, one after the other -/

/-- Two changes of the word with a name are one change of it. -/
theorem changeWord_changeWord
    {first : Word → Word}
    (named : ∀ word, (first word).name = word.name)
    (second : Word → Word)
    (words : List Word) :
    changeWord name second (changeWord name first words) =
      changeWord name (fun word => second (first word)) words := by
  induction words with
  | nil => simp only [changeWord, named, if_true]
  | cons word words inductionHypothesis =>
      by_cases same : word.name = name
      · simp only [changeWord, same, named, if_true]
      · simp only [changeWord, same, if_false, inductionHypothesis]

/-- Two revisions of a word are one revision of it, if that does to the word what they do. -/
theorem exists_revise_revise_eq
    {first second merged : Revision}
    (merges : ∀ word, merged.apply word = second.apply (first.apply word))
    (revise_eq : dictionary.revise name first = .ok later) :
    ∃ last, later.revise name second = .ok last ∧ dictionary.revise name merged = .ok last := by
  have updates := revise_eq_ok_iff.mp revise_eq
  obtain ⟨last, last_eq⟩ := later.exists_revise_eq updates.free second
  have laterUpdates := revise_eq_ok_iff.mp last_eq
  refine ⟨last, last_eq, revise_eq_ok_iff.mpr ⟨updates.free, ?_, ?_⟩⟩
  · rw [laterUpdates.words_eq, updates.words_eq, changeWord_changeWord first.name_apply,
      funext merges]
  · rw [laterUpdates.store_eq, updates.store_eq, Store.erase_erase]

/-- The word with a name is what a revision of it leads to. -/
theorem exists_lookup_of_revise
    {revision : Revision}
    (revise_eq : dictionary.revise name revision = .ok later) :
    ∃ number,
      later.lookup name = some (.compiled number (revision.apply (dictionary.wordNamed name))) := by
  have named_eq := wordNamed_of_revise revise_eq name
  rw [if_pos rfl] at named_eq
  have present : name ∈ later.words.map Word.name := by
    rw [(revise_eq_ok_iff.mp revise_eq).words_eq]
    exact (mem_map_name_changeWord revision.name_apply).mpr (.inr rfl)
  obtain ⟨word, inWords, rfl⟩ := List.mem_map.mp present
  obtain ⟨index, word_eq⟩ := List.getElem?_of_mem inWords
  rw [wordNamed_eq inWords] at named_eq
  refine ⟨index + 1, ?_⟩
  rw [← named_eq]
  exact lookup_of_getElem? word_eq

/-! ## What references lead to -/

/-- Executing a reference enters a body, whatever the machine holds besides the dictionary. -/
def Denotes (dictionary : Dictionary) (reference : WordRef) (body : Body) : Prop :=
  ∀ machine : Machine, machine.dictionary = dictionary →
    machine.execute (.wordRef reference) = machine.enter body

/-- Executing a reference fails because its layer was reserved and never filled. -/
def LeavesUnresolved (dictionary : Dictionary) (reference : WordRef) : Prop :=
  ∀ machine : Machine, machine.dictionary = dictionary →
    ∃ failure, failure.cause.kind = .unresolvedDeferredWord ∧
      machine.execute (.wordRef reference) = .stopped machine (.failure failure)

/-- A reference leads to the newest layer of its word, and that layer is reserved. -/
def Reserves (dictionary : Dictionary) (reference : WordRef) : Prop :=
  ∃ number word,
    dictionary.lookup word.name = some (.compiled number word) ∧
    word.isPending = true ∧
    reference = ⟨number, word.name, word.current⟩

/-- References that are the same lead to one place. -/
theorem place_eq_of_sameAs
    {copy : WordRef}
    (same : copy.sameAs reference = true) :
    copy.place = reference.place := by
  have both : copy.id = reference.id ∧ copy.layer = reference.layer := by
    simpa [WordRef.sameAs] using same
  rw [WordRef.place, WordRef.place, both.1, both.2]

theorem denotes_of_bodyAt?
    (body_eq : dictionary.bodyAt? reference.place = some body) :
    dictionary.Denotes reference body := by
  rintro machine rfl
  obtain ⟨entry, entry_eq, found_eq⟩ := Option.bind_eq_some_iff.mp body_eq
  cases entry with
  | primitive primitive => nomatch found_eq
  | compiled number word =>
      apply Machine.execute_of_done
      exact Workspace.react_of_body entry_eq found_eq

/-- A body that a reference leads to stays in its place. -/
theorem Extends.bodyAt?_eq
    (extends_later : dictionary.Extends later)
    {place : Place}
    (body_eq : dictionary.bodyAt? place = some body) :
    later.bodyAt? place = some body := by
  obtain ⟨number, word, layer, entry_eq, -, place_eq, layer_eq⟩ := exists_layer_of_bodyAt? body_eq
  obtain ⟨laterEntry, later_eq, -, -, kept⟩ := extends_later.exists_entry entry_eq
  have layer_eq := kept layer body layer_eq
  cases laterEntry with
  | primitive primitive => simp [Entry.layers] at layer_eq
  | compiled laterNumber laterWord =>
      simp only [bodyAt?, later_eq, Option.bind_some]
      exact Word.body?_eq_some_iff.mpr ⟨layer, place_eq, layer_eq⟩

/-! ## Reserved layers -/

namespace Reserves

theorem reference?_eq (reserves : dictionary.Reserves reference) :
    dictionary.reference? reference.name = some reference := by
  obtain ⟨number, word, lookup_eq, -, rfl⟩ := reserves
  rw [reference?, lookup_eq]
  rfl

/-- A copy of a reference to a reserved layer cannot be executed. -/
theorem leavesUnresolved
    (reserves : dictionary.Reserves reference)
    {copy : WordRef}
    (same : copy.sameAs reference = true) :
    dictionary.LeavesUnresolved copy := by
  obtain ⟨number, word, lookup_eq, pending, rfl⟩ := reserves
  rintro machine rfl
  obtain ⟨id_eq, layer_eq⟩ := Place.mk.inj (place_eq_of_sameAs same)
  have entry_eq : machine.dictionary.entry? copy.id = some (.compiled number word) := by
    rw [id_eq]
    exact (name_and_entry?_of_lookup lookup_eq).2
  have body_eq : word.body? copy.layer = none := by
    rw [layer_eq]
    exact Word.body?_current_of_isPending pending
  have react_eq := Workspace.react_of_pending entry_eq body_eq
  exact ⟨{ cause := .neverDefined copy.name }, rfl, Machine.execute_of_stopped react_eq⟩

/-- A reservation leads to a reserved layer of the word with its name. -/
theorem of_defer
    (defer_eq : dictionary.defer name = .ok later) :
    ∃ reference, reference.name = name ∧ later.Reserves reference := by
  obtain ⟨number, lookup_eq⟩ := exists_lookup_of_revise defer_eq
  have name_eq : (dictionary.wordNamed name).reserve.name = name :=
    (Revision.reserve.name_apply _).trans name_wordNamed
  refine ⟨⟨number, name, (dictionary.wordNamed name).reserve.current⟩, rfl, number,
    (dictionary.wordNamed name).reserve, ?_, Word.isPending_reserve, ?_⟩
  · rwa [name_eq]
  · rw [name_eq]

/-- A reserved layer stays what it is until its word is defined. -/
theorem apply
    (reserves : dictionary.Reserves reference)
    {change : Change}
    (otherwise : ∀ body, change ≠ .define reference.name body)
    (apply_eq : change.apply dictionary = .ok later) :
    later.Reserves reference := by
  obtain ⟨number, word, lookup_eq, pending, rfl⟩ := reserves
  by_cases same : word.name = change.name
  · cases change with
    | define name body =>
        have name_eq : word.name = name := same
        exact absurd (by rw [name_eq]) (otherwise body)
    | defer name =>
        have name_eq : word.name = name := same
        subst name_eq
        obtain ⟨after, revise_eq, after_eq⟩ := lookup_revise lookup_eq .reserve
        have later_eq : after = later := Except.ok.inj (revise_eq.symm.trans apply_eq)
        rw [Revision.apply, Word.reserve_of_isPending pending, later_eq] at after_eq
        exact ⟨number, word, after_eq, pending, rfl⟩
    | declareVariable name =>
        -- The name is that of a word, so the declaration is refused.
        have name_eq : word.name = name := same
        subst name_eq
        have free := (declareVariable_eq_ok apply_eq).1
        simp [contains_eq, lookup_eq] at free
  · have entry_eq := (name_and_entry?_of_lookup lookup_eq).2
    have kept := ((agreesBesides_apply apply_eq).entries number (.compiled number word) same).mpr
      entry_eq
    exact ⟨number, word, lookup_of_entry?_eq kept, pending, rfl⟩

/-- A definition fills the reserved layer of its word. -/
theorem define
    (reserves : dictionary.Reserves reference)
    (body : Body) :
    ∃ later, dictionary.define reference.name body = .ok later ∧
      later.reference? reference.name = some reference ∧
      later.bodyAt? reference.place = some body := by
  obtain ⟨number, word, lookup_eq, pending, rfl⟩ := reserves
  obtain ⟨later, define_eq, later_eq⟩ := lookup_define lookup_eq body
  have current_eq := Word.current_define_of_isPending pending body
  refine ⟨later, define_eq, ?_, ?_⟩
  · simp only [reference?, later_eq, Option.map_some, Entry.id, Entry.current, current_eq]
  · have entry_eq : later.entry? number = some (.compiled number (word.define body)) :=
      (name_and_entry?_of_lookup later_eq).2
    have filled : (word.define body).layers[(word.define body).current]? = some (some body) :=
      Word.getElem?_current_define body
    rw [current_eq] at filled
    simp only [bodyAt?, WordRef.place, entry_eq, Option.bind_some]
    exact Word.body?_eq_some_iff.mpr ⟨word.current, rfl, filled⟩

end Reserves

end Dictionary

namespace Session

open Dictionary (Change)

variable {session : Session}

/-- A change past the loader succeeds and replaces the dictionary, or changes nothing. -/
theorem perform_change_cases (session : Session) (change : Change) :
    (∃ later, change.apply session.dictionary = .ok later ∧
      session.perform (.change change) = .done (session.withDictionary later) ()) ∨
    ∃ cause, change.apply session.dictionary = .error cause ∧
      session.perform (.change change) = .failed session cause := by
  cases apply_eq : change.apply session.dictionary with
  | ok later =>
      refine .inl ⟨later, rfl, ?_⟩
      simp only [perform, changeDictionary, apply_eq]
  | error cause =>
      refine .inr ⟨cause, rfl, ?_⟩
      simp only [perform, changeDictionary, apply_eq]

/-- Two revisions of a word are one revision of it, or are refused alike. -/
theorem changeDictionary_revise_andThen
    (session : Session)
    (name : String)
    {first second merged : Revision}
    (merges : ∀ word, merged.apply word = second.apply (first.apply word)) :
    (session.changeDictionary (session.dictionary.revise name first)).andThen
        (fun changed _ => changed.changeDictionary (changed.dictionary.revise name second)) =
      session.changeDictionary (session.dictionary.revise name merged) := by
  rcases session.dictionary.revise_cases name first with
    ⟨primitive, first_eq⟩ | ⟨middle, first_eq, -⟩
  · rw [first_eq, Dictionary.revise_of_isSome primitive merged]
    rfl
  · obtain ⟨last, second_eq, merged_eq⟩ := Dictionary.exists_revise_revise_eq merges first_eq
    have middle_eq : (session.withDictionary middle).dictionary = middle := rfl
    rw [first_eq, merged_eq, changeDictionary, Outcome.andThen_done, middle_eq, second_eq]
    rfl

/-- A definition after a reservation comes to the definition. -/
theorem define_after_defer
    (session : Session)
    (name : String)
    (body : Body) :
    (session.perform (.change (.defer name))).andThen
        (fun reserved _ => reserved.perform (.change (.define name body))) =
      session.perform (.change (.define name body)) :=
  session.changeDictionary_revise_andThen name fun word => (word.define_reserve body).symm

/-- A word is reserved once. -/
theorem defer_after_defer
    (session : Session)
    (name : String) :
    (session.perform (.change (.defer name))).andThen
        (fun reserved _ => reserved.perform (.change (.defer name))) =
      session.perform (.change (.defer name)) :=
  session.changeDictionary_revise_andThen name fun _ =>
    (Word.reserve_of_isPending Word.isPending_reserve).symm

/-- A reserved layer stays what it is through changes that do not define its word. -/
theorem reserves_after
    {reference : WordRef}
    (reserves : session.dictionary.Reserves reference)
    (changes : List Change)
    (otherwise : ∀ change ∈ changes, ∀ body, change ≠ .define reference.name body) :
    (session.after (changes.map .change)).dictionary.Reserves reference := by
  induction changes generalizing session with
  | nil => exact reserves
  | cons change changes inductionHypothesis =>
      have others := fun other present =>
        otherwise other (List.mem_cons_of_mem change present)
      refine inductionHypothesis ?_ others
      change (session.perform (.change change)).state.dictionary.Reserves reference
      obtain ⟨later, apply_eq, perform_eq⟩ | ⟨cause, -, perform_eq⟩ :=
        session.perform_change_cases change
      · rw [perform_eq]
        exact reserves.apply (otherwise change List.mem_cons_self) apply_eq
      · rw [perform_eq]
        exact reserves

/--
A reference stands for a reserved word: its name leads to it, copies of it cannot be
executed, and each definition of the word would give all copies their body for good.
-/
structure AwaitsDefinition (session : Session) (reference : WordRef) : Prop where
  standing : session.dictionary.reference? reference.name = some reference
  unresolved : ∀ copy : WordRef, copy.sameAs reference = true →
    session.dictionary.LeavesUnresolved copy
  filled : ∀ body, ∃ later,
    session.perform (.change (.define reference.name body)) = .done later () ∧
    later.dictionary.reference? reference.name = some reference ∧
    ∀ copy : WordRef, copy.sameAs reference = true →
      ∀ operations, (later.after operations).dictionary.Denotes copy body

theorem awaitsDefinition_of_reserves
    {reference : WordRef}
    (reserves : session.dictionary.Reserves reference) :
    session.AwaitsDefinition reference where
  standing := reserves.reference?_eq
  unresolved _ same := reserves.leavesUnresolved same
  filled body := by
    obtain ⟨later, define_eq, standing, body_eq⟩ := reserves.define body
    refine ⟨session.withDictionary later, ?_, standing, fun copy same operations => ?_⟩
    · simp only [perform, Change.apply, define_eq]
      rfl
    · apply Dictionary.denotes_of_bodyAt?
      rw [Dictionary.place_eq_of_sameAs same]
      exact (extends_after (session.withDictionary later) operations).bodyAt?_eq body_eq

/--
A reservation makes no difference to the definition that follows it, nor to another
reservation, and a primitive can neither be reserved nor defined.  From the reservation to
the next definition of the word, whatever else is defined, reserved or declared, one
reference stands for the word, and all its copies come to denote what the word is defined
as.
-/
theorem deferral_is_transparent
    (session : Session)
    (name : String) :
    (∀ body,
      (session.perform (.change (.defer name))).andThen
          (fun reserved _ => reserved.perform (.change (.define name body))) =
        session.perform (.change (.define name body))) ∧
    (session.perform (.change (.defer name))).andThen
        (fun reserved _ => reserved.perform (.change (.defer name))) =
      session.perform (.change (.defer name)) ∧
    ((Primitive.ofName? name).isSome →
      ∃ failure, failure.cause.kind = .reservedWord ∧
        session.perform (.change (.defer name)) = .stopped session (.failure failure) ∧
        ∀ body, session.perform (.change (.define name body)) =
          .stopped session (.failure failure)) ∧
    (Primitive.ofName? name = none →
      ∃ reserved reference,
        session.perform (.change (.defer name)) = .done reserved () ∧
        reference.name = name ∧
        ∀ changes : List Change,
          (∀ change ∈ changes, ∀ body, change ≠ .define name body) →
          (reserved.after (changes.map .change)).AwaitsDefinition reference) := by
  refine ⟨session.define_after_defer name, session.defer_after_defer name, fun primitive => ?_,
    fun compiled => ?_⟩
  · have refused : ∀ revision, session.dictionary.revise name revision =
        .error (.primitiveName name) := Dictionary.revise_of_isSome primitive
    refine ⟨{ cause := .primitiveName name }, rfl, ?_, fun body => ?_⟩
    · simp only [perform, Change.apply, Dictionary.defer, refused]
      rfl
    · simp only [perform, Change.apply, Dictionary.define, refused]
      rfl
  · obtain ⟨later, apply_eq, perform_eq⟩ | ⟨cause, apply_eq, -⟩ :=
      session.perform_change_cases (.defer name)
    · obtain ⟨reference, rfl, reserves⟩ :=
        Dictionary.Reserves.of_defer apply_eq
      have reserved : (session.withDictionary later).dictionary.Reserves reference := reserves
      refine ⟨_, reference, perform_eq, rfl, fun changes otherwise => ?_⟩
      exact awaitsDefinition_of_reserves (reserves_after reserved changes otherwise)
    · obtain ⟨later, revise_eq⟩ := session.dictionary.exists_revise_eq compiled .reserve
      cases revise_eq.symm.trans apply_eq

/--
A word with an older layer is reserved again.  Meanwhile a variable becomes a word that calls
it, a primitive is to be defined, and the reserved word is to become a variable.
-/
theorem deferral_is_transparent_overtaken :
    ∃ (session reserved : Session) (changes : List Change) (reference : WordRef),
      session.IsReachable ∧
      session.perform (.change (.defer "odd")) = .done reserved () ∧
      session.dictionary.words.map (fun word => (word.name, word.layers.length)) = [("odd", 1)] ∧
      session.dictionary.store.contains "even" = true ∧
      (reserved.after (changes.map .change)).dictionary.words.map
        (fun word => (word.name, word.layers.length)) = [("odd", 2), ("even", 1)] ∧
      (reserved.after (changes.map .change)).dictionary.deferred = ["odd"] ∧
      (reserved.after (changes.map .change)).AwaitsDefinition reference := by
  let environment : Environment := ⟨.empty [], 9⟩
  let session := (start environment false .standard).after
    [.execute environment "<input>" ": odd 1 ; :variable even"]
  let changes : List Change :=
    [.define "even" [.int 1, .wordRef ⟨1, "odd", 1⟩], .define "swap" [], .declareVariable "odd",
      .defer "odd"]
  have reachable : session.IsReachable := ⟨environment, false, .standard, _, rfl⟩
  obtain ⟨-, -, -, accepted⟩ := deferral_is_transparent session "odd"
  obtain ⟨reserved, reference, perform_eq, -, awaits⟩ := accepted (by decide)
  have reserved_eq : reserved = session.after [.change (.defer "odd")] := by
    simp only [after, List.foldl_cons, List.foldl_nil, perform_eq]
    rfl
  refine ⟨session, reserved, changes, reference, reachable, perform_eq, by decide +kernel,
    by decide +kernel, ?_, ?_, awaits changes (by simp [changes])⟩
  · rw [reserved_eq]
    decide +kernel
  · rw [reserved_eq]
    decide +kernel

end Session
end Concatenative

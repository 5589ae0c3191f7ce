import Concatenative.Proofs.Representation

/-!
# The history of a dictionary

A dictionary only grows.  Whatever is done to a session later, also by operations that fail,
a word keeps its number and its name, a layer that is defined keeps its body, and a layer
that is pending waits as the newest one of its word until it is filled.  A single change
touches the word and the variable with its own name and nothing else.
-/

namespace Concatenative

theorem Word.Extends.trans
    {word later last : Word}
    (first : word.Extends later)
    (second : later.Extends last) :
    word.Extends last where
  name_eq := second.name_eq.trans first.name_eq
  length_le := first.length_le.trans second.length_le
  kept layer body defined := second.kept layer body (first.kept layer body defined)

/-- A layer of a sound word without a body is the newest one. -/
theorem Word.IsSound.eq_length_of_pending
    {word : Word}
    (sound : word.IsSound)
    {layer : Nat}
    (pending : word.layers[layer]? = some none) :
    layer + 1 = word.layers.length := by
  obtain ⟨bound, layer_eq⟩ := List.getElem?_eq_some_iff.mp pending
  by_contra older
  have inside : layer < word.layers.dropLast.length := by
    rw [List.length_dropLast]
    omega
  have filled := sound.filled _ (List.getElem_mem inside)
  rw [List.getElem_dropLast, layer_eq] at filled
  nomatch filled

namespace Store

variable {store : Store} {name other : String}

theorem get?_erase_of_ne (differs : other ≠ name) :
    (store.erase name).get? other = store.get? other := by
  obtain ⟨bindings⟩ := store
  unfold erase Table.get?
  induction bindings with
  | nil => rfl
  | cons binding rest inductionHypothesis =>
      obtain ⟨first, content⟩ := binding
      by_cases same : first = name
      · have apart : (other == name) = false := by simpa using differs
        subst same
        simp only [List.filter_cons, bne_self_eq_false, Bool.false_eq_true, if_false,
          List.lookup_cons, apart]
        exact inductionHypothesis
      · have kept : (first != name) = true := by simpa using same
        simp only [List.filter_cons, kept, if_true, List.lookup_cons, inductionHypothesis]

theorem get?_declare_of_ne (differs : other ≠ name) :
    (store.declare name).get? other = store.get? other := by
  unfold declare
  split
  · rfl
  · have apart : (other == name) = false := by simpa using differs
    simp [Table.get?, List.lookup_append, List.lookup_cons, apart]

end Store

namespace Dictionary

variable {dictionary later last : Dictionary}

/-! ## Later states -/

/-- What was a compiled word stays one. -/
theorem Extends.mem_names
    (extends_later : dictionary.Extends later)
    {name : String}
    (present : name ∈ dictionary.words.map Word.name) :
    name ∈ later.words.map Word.name := by
  obtain ⟨word, inWords, rfl⟩ := List.mem_map.mp present
  obtain ⟨index, word_eq⟩ := List.getElem?_of_mem inWords
  obtain ⟨laterWord, later_eq, extended⟩ := extends_later.words index word word_eq
  exact List.mem_map.mpr ⟨laterWord, List.mem_of_getElem? later_eq, extended.name_eq⟩

theorem Extends.refl (dictionary : Dictionary) : dictionary.Extends dictionary where
  words _ word word_eq := ⟨word, word_eq, .refl word⟩
  store _ declared := .inl declared

theorem Extends.trans
    (first : dictionary.Extends later)
    (second : later.Extends last) :
    dictionary.Extends last where
  words index word word_eq := by
    obtain ⟨laterWord, later_eq, extended⟩ := first.words index word word_eq
    obtain ⟨lastWord, last_eq, extendedAgain⟩ := second.words index laterWord later_eq
    exact ⟨lastWord, last_eq, extended.trans extendedAgain⟩
  store name declared := by
    rcases first.store name declared with still | overtaken
    · exact second.store name still
    · exact .inr (second.mem_names overtaken)

/-- Contents of variables do not matter. -/
theorem SameNames.extends (same : SameNames dictionary later) : dictionary.Extends later where
  words _ word word_eq := ⟨word, same.words_eq ▸ word_eq, .refl word⟩
  store name declared := .inl ((same.contains_eq name).trans declared)

/--
What a later state of a dictionary keeps of it: words under their numbers and names, and the
layers of each in their places.
-/
structure KeepsHistory (dictionary later : Dictionary) : Prop where
  /-- A word stays a word under its number, and its name is never that of a variable again. -/
  words : ∀ name entry, dictionary.lookup name = some entry →
    later.store.contains name = false ∧
      ∃ laterEntry, later.lookup name = some laterEntry ∧ laterEntry.id = entry.id
  nextId_le : dictionary.nextId ≤ later.nextId
  /--
  A layer that is defined keeps its body, and a layer that is pending is filled or stays the
  newest one.
  -/
  entries : ∀ id entry, dictionary.entry? id = some entry →
    ∃ laterEntry, later.entry? id = some laterEntry ∧ laterEntry.name = entry.name ∧
      (∀ (layer : Nat) body, entry.layers[layer]? = some (some body) →
        laterEntry.layers[layer]? = some (some body)) ∧
      ∀ layer : Nat, entry.layers[layer]? = some none →
        (laterEntry.layers[layer]? = some none ∧ layer + 1 = laterEntry.layers.length) ∨
          ∃ body, laterEntry.layers[layer]? = some (some body)

/-- A later state has an entry for every entry, under the same number and name. -/
theorem Extends.exists_entry
    (extends_later : dictionary.Extends later)
    {id : Int}
    {entry : Entry}
    (entry_eq : dictionary.entry? id = some entry) :
    ∃ laterEntry, later.entry? id = some laterEntry ∧ laterEntry.name = entry.name ∧
      entry.layers.length ≤ laterEntry.layers.length ∧
      ∀ (layer : Nat) body, entry.layers[layer]? = some (some body) →
        laterEntry.layers[layer]? = some (some body) := by
  cases entry with
  | primitive primitive =>
      have found : later.entry? id = some (.primitive primitive) :=
        entry?_eq_primitive_iff.mpr (entry?_eq_primitive_iff.mp entry_eq)
      exact ⟨_, found, rfl, Nat.le_refl _, fun _ _ kept => kept⟩
  | compiled number word =>
      obtain ⟨index, rfl, rfl, word_eq⟩ := entry?_eq_compiled_iff.mp entry_eq
      obtain ⟨laterWord, later_eq, extended⟩ := extends_later.words index word word_eq
      have found : later.entry? (index + 1) = some (.compiled (index + 1) laterWord) :=
        entry?_eq_compiled_iff.mpr ⟨index, rfl, rfl, later_eq⟩
      exact ⟨_, found, extended.name_eq, extended.length_le, extended.kept⟩

/-- A well-formed dictionary that extends another keeps its history. -/
theorem Extends.keepsHistory
    (extends_later : dictionary.Extends later)
    (wellFormed : later.WellFormed) :
    dictionary.KeepsHistory later where
  words name entry lookup_eq := by
    obtain ⟨name_eq, entry_eq⟩ := name_and_entry?_of_lookup lookup_eq
    obtain ⟨laterEntry, later_eq, laterName_eq, -⟩ := extends_later.exists_entry entry_eq
    have found := lookup_of_entry?_eq later_eq
    rw [laterName_eq, name_eq] at found
    refine ⟨?_, laterEntry, found, id_of_entry?_eq later_eq⟩
    by_contra declared
    have apart := wellFormed.store_apart name (by simpa using declared)
    simp [contains_eq, found] at apart
  nextId_le := by
    rw [nextId_eq, nextId_eq]
    refine Nat.succ_le_succ (Nat.le_of_not_lt fun shorter => ?_)
    obtain ⟨laterWord, later_eq, -⟩ := extends_later.words later.words.length _
      (List.getElem?_eq_getElem shorter)
    simp at later_eq
  entries id entry entry_eq := by
    obtain ⟨laterEntry, later_eq, name_eq, length_le, kept⟩ :=
      extends_later.exists_entry entry_eq
    refine ⟨laterEntry, later_eq, name_eq, kept, fun layer pending => ?_⟩
    obtain ⟨bound, -⟩ := List.getElem?_eq_some_iff.mp pending
    have laterBound := Nat.lt_of_lt_of_le bound length_le
    cases layer_eq : laterEntry.layers[layer] with
    | some body => exact .inr ⟨body, List.getElem?_eq_some_iff.mpr ⟨laterBound, layer_eq⟩⟩
    | none =>
        have laterPending := List.getElem?_eq_some_iff.mpr ⟨laterBound, layer_eq⟩
        refine .inl ⟨laterPending, ?_⟩
        cases laterEntry with
        | primitive primitive => simp [Entry.layers] at laterPending
        | compiled number word =>
            obtain ⟨index, -, -, word_eq⟩ := entry?_eq_compiled_iff.mp later_eq
            have sound := later.areSound.words_sound word (List.mem_of_getElem? word_eq)
            exact sound.eq_length_of_pending laterPending

/-! ## Single changes -/

/-- Two states of a dictionary differ at most in the word and the variable with a name. -/
structure AgreesBesides (name : String) (dictionary later : Dictionary) : Prop where
  entries : ∀ id entry, entry.name ≠ name →
    (later.entry? id = some entry ↔ dictionary.entry? id = some entry)
  contents : ∀ other, other ≠ name → later.store.get? other = dictionary.store.get? other

/-- A word with another name is not changed. -/
theorem getElem?_changeWord_eq_some_iff
    {name : String}
    {change : Word → Word}
    (named : ∀ word, (change word).name = word.name)
    {word : Word}
    (differs : word.name ≠ name)
    (words : List Word)
    (index : Nat) :
    (changeWord name change words)[index]? = some word ↔ words[index]? = some word := by
  induction words generalizing index with
  | nil =>
      have fresh : change ⟨name, []⟩ ≠ word := by
        rintro rfl
        exact differs (named _)
      cases index <;> simp [changeWord, fresh]
  | cons first words inductionHypothesis =>
      rw [changeWord]
      split
      · rename_i same
        cases index with
        | zero =>
            have before : first ≠ word := by
              rintro rfl
              exact differs same
            have after : change first ≠ word := by
              rintro rfl
              exact differs ((named first).trans same)
            simp [before, after]
        | succ index => simp
      · cases index with
        | zero => simp
        | succ index => simpa using inductionHypothesis index

theorem agreesBesides_revise
    {name : String}
    {revision : Revision}
    (revise_eq : dictionary.revise name revision = .ok later) :
    AgreesBesides name dictionary later := by
  have updates := revise_eq_ok_iff.mp revise_eq
  refine ⟨fun id entry differs => ?_, fun other differs => ?_⟩
  · cases entry with
    | primitive primitive => simp only [entry?_eq_primitive_iff]
    | compiled number word =>
        simp only [entry?_eq_compiled_iff, updates.words_eq,
          getElem?_changeWord_eq_some_iff revision.name_apply differs]
  · rw [updates.store_eq]
    exact Store.get?_erase_of_ne differs

/-- A change touches nothing but the word and the variable with its own name. -/
theorem agreesBesides_apply
    {change : Change}
    (apply_eq : change.apply dictionary = .ok later) :
    AgreesBesides change.name dictionary later := by
  cases change with
  | define name body => exact agreesBesides_revise apply_eq
  | defer name => exact agreesBesides_revise apply_eq
  | declareVariable name =>
      obtain ⟨-, rfl⟩ := declareVariable_eq_ok apply_eq
      exact ⟨fun _ _ _ => .rfl, fun other differs => Store.get?_declare_of_ne differs⟩

end Dictionary

namespace Session

/-! ## Histories of sessions -/

/-- A session that is reached from a new one by any operations. -/
def IsReachable (session : Session) : Prop :=
  ∃ environment withPrelude limit operations,
    session = (start environment withPrelude limit).after operations

variable {session : Session}

theorem IsReachable.after
    (reachable : session.IsReachable)
    (operations : List Operation) :
    (session.after operations).IsReachable := by
  obtain ⟨environment, withPrelude, limit, earlier, rfl⟩ := reachable
  refine ⟨environment, withPrelude, limit, earlier ++ operations, ?_⟩
  simp only [Session.after, List.foldl_append]

theorem IsReachable.wellFormed (reachable : session.IsReachable) :
    session.dictionary.WellFormed := by
  obtain ⟨environment, withPrelude, limit, operations, rfl⟩ := reachable
  exact wellFormed_after environment withPrelude limit operations

/-- Loading extends a dictionary further. -/
theorem isKept_extends (origin : Dictionary) :
    IsKept (fun machine => origin.Extends machine.dictionary) fun _ _ => True where
  printed _ _ held := held
  changed _ _ _ held _ apply_eq := held.trans (Dictionary.extends_apply apply_eq)
  dispatched machine _ _ value _ fuel held _ _ :=
    ⟨held.trans (machine.sameNames_run fuel [value]).extends, fun _ _ => trivial⟩
  static _ _ _ _ := trivial

/-- Whatever is done to a session extends its dictionary. -/
theorem extends_after (session : Session) (operations : List Operation) :
    session.dictionary.Extends (session.after operations).dictionary :=
  (isKept_extends session.dictionary).after
    (fun _ _ _ held apply_eq => held.trans (Dictionary.extends_apply apply_eq))
    (.refl session.dictionary) operations

/-- A change past the loader touches nothing but the word and the variable with its name. -/
theorem agreesBesides_after_change (session : Session) (change : Dictionary.Change) :
    Dictionary.AgreesBesides change.name session.dictionary
      (session.after [.change change]).dictionary := by
  simp only [Session.after, List.foldl_cons, List.foldl_nil, perform, changeDictionary]
  split
  · exact ⟨fun _ _ _ => .rfl, fun _ _ => rfl⟩
  · rename_i later apply_eq
    exact Dictionary.agreesBesides_apply apply_eq

/--
The history of a dictionary is kept by all later operations, failing ones included, and a
single change leaves all other words and variables as they are.
-/
theorem keepsHistory_after
    (reachable : session.IsReachable)
    (operations : List Operation) :
    session.dictionary.KeepsHistory (session.after operations).dictionary ∧
      ∀ change, Dictionary.AgreesBesides change.name session.dictionary
        (session.after [.change change]).dictionary := by
  have wellFormed := (reachable.after operations).wellFormed
  exact ⟨(extends_after session operations).keepsHistory wellFormed,
    agreesBesides_after_change session⟩

/--
A variable becomes a word, a reservation is filled, a word is defined again past the loader,
and a file is missing.
-/
theorem keepsHistory_after_redefinition :
    ∃ session later : Session,
      session.IsReachable ∧
      session.dictionary.store.contains "total" = true ∧
      session.dictionary.deferred = ["next"] ∧
      later.dictionary.contains "total" = true ∧
      later.dictionary.deferred = [] ∧
      later.dictionary.words.map (·.layers.length) = [2, 1, 1] ∧
      session.dictionary.KeepsHistory later.dictionary := by
  let environment : Environment := ⟨.empty [], 9⟩
  let session := (start environment false .standard).after
    [.execute environment "<input>" ": twice 2 * ; :defer next :variable total"]
  let operations : List Operation :=
    [.execute environment "<input>" ": total 0 ; : next total twice ; next missing",
      .change (.define "twice" [.int 3]),
      .change (.declareVariable "next"),
      .loadFile environment "missing.qf"]
  have reachable : session.IsReachable := ⟨environment, false, .standard, _, rfl⟩
  exact ⟨session, session.after operations, reachable, by decide +kernel, by decide +kernel,
    by decide +kernel, by decide +kernel, by decide +kernel,
    (keepsHistory_after reachable operations).1⟩

end Session
end Concatenative

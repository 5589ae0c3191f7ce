import Concatenative.Dictionary.Basic
import Concatenative.Proofs.Index

/-!
# Well-formed dictionaries

The tables of a dictionary are those of its compiled words, which have their places, counted
from 1, as their numbers.  So much is due to the operations that built the index: names and
numbers are in bijection, every word has a layer, and no layer below the newest is pending.
A dictionary is well formed when, besides, no name is both a word and a variable, and every
change keeps it so.
-/

namespace Concatenative

namespace Store

variable {store : Store} {name other : String}

/-- A variable is declared when a binding has its name. -/
theorem contains_iff : store.contains name = true ↔ name ∈ store.bindings.map Prod.fst :=
  Table.contains_iff

/-- The content of a variable is bound to it. -/
theorem mem_of_get?
    {content : Value}
    (get_eq : store.get? name = some content) :
    (name, content) ∈ store.bindings := by
  unfold Table.get? at get_eq
  obtain ⟨before, after, bindings_eq, -⟩ := List.lookup_eq_some_iff.mp get_eq
  simp [bindings_eq]

/-- Declaring a variable adds its name only. -/
theorem contains_declare :
    (store.declare name).contains other = true ↔ store.contains other = true ∨ other = name := by
  unfold declare
  split
  · rename_i declared
    constructor
    · exact .inl
    · rintro (present | rfl)
      · exact present
      · exact declared
  · simp only [contains_iff, List.map_append, List.mem_append, List.map_cons, List.map_nil,
      List.mem_singleton]

/-- Nothing is stored to a variable that is declared. -/
theorem mem_bindings_declare
    {binding : String × Value}
    (present : binding ∈ (store.declare name).bindings) :
    binding ∈ store.bindings ∨ binding.2 = .nil := by
  unfold declare at present
  split at present
  · exact .inl present
  · rcases List.mem_append.mp present with old | new
    · exact .inl old
    · rw [List.mem_singleton.mp new]
      exact .inr rfl

/-- Storing to a variable declares none. -/
@[simp] theorem contains_set (content : Value) :
    (store.set name content).contains other = store.contains other := by
  rw [Bool.eq_iff_iff, contains_iff, contains_iff]
  simp [set, Table.modify]

/-- After storing, a variable has its old content or the one stored. -/
theorem mem_bindings_set
    {content : Value}
    {binding : String × Value}
    (present : binding ∈ (store.set name content).bindings) :
    binding ∈ store.bindings ∨ binding.2 = content := by
  simp only [set, Table.modify, List.mem_map] at present
  obtain ⟨⟨declared, old⟩, old_mem, rfl⟩ := present
  simp only
  split
  · exact .inr rfl
  · exact .inl old_mem

/-- Forgetting a variable forgets no other. -/
theorem contains_erase :
    (store.erase name).contains other = true ↔ store.contains other = true ∧ other ≠ name := by
  simp [contains_iff, erase]

end Store

namespace Dictionary

/-! ## Names and numbers -/

variable {dictionary : Dictionary} {name : String} {entry : Entry}

/-- The index of a dictionary is that of its words. -/
theorem index_eq (dictionary : Dictionary) : dictionary.index = .ofWords dictionary.words := by
  obtain ⟨words, -, built_eq⟩ := dictionary.built.exists_eq_ofWords
  rw [Dictionary.words, built_eq, Index.words_ofWords]

/-- The words of a dictionary are sound. -/
theorem areSound (dictionary : Dictionary) : AreSound dictionary.words := by
  obtain ⟨words, sound, built_eq⟩ := dictionary.built.exists_eq_ofWords
  rw [Dictionary.words, built_eq, Index.words_ofWords]
  exact sound

/-- The tables of a dictionary agree. -/
theorem agrees (dictionary : Dictionary) : dictionary.index.Agrees :=
  dictionary.built.agrees

/-- A dictionary is determined by its words and its variables. -/
@[ext] theorem ext
    {left right : Dictionary}
    (words_eq : left.words = right.words)
    (store_eq : left.store = right.store) :
    left = right := by
  have index_eq : left.index = right.index := by
    rw [left.index_eq, right.index_eq, words_eq]
  cases left
  cases right
  exact (Dictionary.mk.injEq _ _ _ _ _ _).mpr ⟨index_eq, store_eq⟩

theorem words_initial : initial.words = [] := rfl

/-- The number of the next word is behind those of the words that are there. -/
theorem nextId_eq (dictionary : Dictionary) :
    dictionary.nextId = dictionary.words.length + 1 := by
  rw [nextId, index_eq]
  rfl

/-- The entries are the primitives and the compiled words. -/
theorem entries_eq (dictionary : Dictionary) :
    dictionary.entries = Index.entriesOf dictionary.words := by
  rw [entries, index_eq, Index.values_entries_ofWords]

theorem entry?_eq_some_iff {id : Int} :
    dictionary.entry? id = some entry ↔ entry ∈ dictionary.entries ∧ entry.id = id := by
  unfold entry?
  rw [index_eq, Index.get?_entries_eq_some_iff, entries_eq]

/-- The entries are those that their numbers lead to. -/
theorem mem_entries_iff :
    entry ∈ dictionary.entries ↔ dictionary.entry? entry.id = some entry := by
  rw [entry?_eq_some_iff, and_iff_left rfl]

/-- The numbers of the compiled words are their places, counted from 1. -/
theorem entry?_eq_compiled_iff {id : Int} {number : Nat} {word : Word} :
    dictionary.entry? id = some (.compiled number word) ↔
      ∃ index : Nat, id = index + 1 ∧ number = index + 1 ∧
        dictionary.words[index]? = some word := by
  rw [entry?_eq_some_iff, entries_eq, Index.mem_entriesOf_compiled_iff]
  constructor
  · rintro ⟨⟨index, rfl, word_eq⟩, rfl⟩
    exact ⟨index, rfl, rfl, word_eq⟩
  · rintro ⟨index, rfl, rfl, word_eq⟩
    exact ⟨⟨index, rfl, word_eq⟩, rfl⟩

/-- The primitives are found by their own numbers. -/
theorem entry?_eq_primitive_iff {id : Int} {primitive : Primitive} :
    dictionary.entry? id = some (.primitive primitive) ↔ primitive.id = id := by
  rw [entry?_eq_some_iff, entries_eq]
  exact and_iff_right (Index.primitive_mem_entriesOf primitive dictionary.words)

/-- An entry is found by its own number. -/
theorem id_of_entry?_eq {id : Int} (found : dictionary.entry? id = some entry) : entry.id = id :=
  (dictionary.agrees.id_of_entry id entry found).1

/-- A name leads to the first entry that has it, the primitives coming first. -/
theorem lookup_eq (dictionary : Dictionary) (name : String) :
    dictionary.lookup name = dictionary.entries.find? fun entry => entry.name == name := by
  rw [lookup, index_eq, Index.lookup_ofWords, entries_eq]

/-- The primitives are found by their own names. -/
theorem lookup_of_ofName?
    {primitive : Primitive}
    (name_eq : Primitive.ofName? name = some primitive) :
    dictionary.lookup name = some (.primitive primitive) := by
  rw [lookup_eq, entries_eq, Index.find?_entriesOf, name_eq]

/-- What a name leads to has that name and is found by its number. -/
theorem name_and_entry?_of_lookup (found : dictionary.lookup name = some entry) :
    entry.name = name ∧ dictionary.entry? entry.id = some entry := by
  obtain ⟨id, id_eq, entry_eq⟩ := Option.bind_eq_some_iff.mp found
  obtain ⟨other, other_eq, named, rfl⟩ := dictionary.agrees.entry_of_id name id id_eq
  rw [other_eq] at entry_eq
  obtain rfl := Option.some.inj entry_eq
  exact ⟨named, other_eq⟩

/-- Every entry is found by its name. -/
theorem lookup_of_entry?_eq
    {id : Int}
    (found : dictionary.entry? id = some entry) :
    dictionary.lookup entry.name = some entry := by
  rw [lookup, Index.lookup, (dictionary.agrees.id_of_entry id entry found).2]
  exact found

/-- A word is found by its name. -/
theorem lookup_of_getElem?
    {index : Nat}
    {word : Word}
    (word_eq : dictionary.words[index]? = some word) :
    dictionary.lookup word.name = some (.compiled (index + 1) word) :=
  lookup_of_entry?_eq (entry?_eq_compiled_iff.mpr ⟨index, rfl, rfl, word_eq⟩)

/-- A name is a word if it leads to an entry. -/
theorem contains_eq (dictionary : Dictionary) (name : String) :
    dictionary.contains name = (dictionary.lookup name).isSome := by
  rw [contains, Table.contains, lookup, Index.lookup]
  cases id_eq : dictionary.index.ids.get? name with
  | none => rfl
  | some id =>
      obtain ⟨entry, entry_eq, -⟩ := dictionary.agrees.entry_of_id name id id_eq
      rw [Option.bind_some, entry_eq]
      rfl

/-- Whether a name is a word hangs on the primitives and the compiled words. -/
theorem contains_iff :
    dictionary.contains name = true ↔
      (Primitive.ofName? name).isSome ∨ name ∈ dictionary.words.map Word.name := by
  rw [contains_eq, lookup_eq, entries_eq, Index.find?_entriesOf]
  cases Primitive.ofName? name with
  | some primitive => simp
  | none =>
      simp only [List.find?_isSome, Option.isSome_none, Bool.false_eq_true, false_or,
        List.mem_map, Index.mem_numbered]
      constructor
      · rintro ⟨entry, ⟨index, word, word_eq, rfl⟩, named⟩
        exact ⟨word, List.mem_of_getElem? word_eq, by simpa [Entry.name] using named⟩
      · rintro ⟨word, present, rfl⟩
        obtain ⟨index, word_eq⟩ := List.getElem?_of_mem present
        exact ⟨.compiled (1 + index) word, ⟨index, word, word_eq, rfl⟩, by simp [Entry.name]⟩

/-- The listing of all entries leaves none out and adds none. -/
theorem mem_sortedEntries : entry ∈ dictionary.sortedEntries ↔ entry ∈ dictionary.entries := by
  rw [sortedEntries, List.mem_filterMap]
  simp only [List.mem_mergeSort]
  constructor
  · rintro ⟨name, -, found⟩
    exact mem_entries_iff.mpr (name_and_entry?_of_lookup found).2
  · intro present
    have found := lookup_of_entry?_eq (mem_entries_iff.mp present)
    refine ⟨entry.name, ?_, found⟩
    have named : dictionary.index.ids.contains entry.name = true := by
      rw [← contains, contains_eq, found]
      rfl
    exact Table.contains_iff.mp named

/-! ## Well-formedness -/

/-- No name is both that of a word and that of a variable. -/
structure WellFormed (dictionary : Dictionary) : Prop where
  store_apart : ∀ name, dictionary.store.contains name = true → dictionary.contains name = false

theorem wellFormed_initial : WellFormed initial where
  store_apart := by simp [initial, Table.empty, Table.contains, Table.get?]

/-! ## Changes -/

/--
The word with a name was revised, which no primitive has; the word took its name over from
a variable.
-/
structure Updates (dictionary : Dictionary) (name : String) (revision : Revision)
    (later : Dictionary) : Prop where
  free : Primitive.ofName? name = none
  words_eq : later.words = changeWord name revision.apply dictionary.words
  store_eq : later.store = dictionary.store.erase name

/-- A revision is refused under the name of a primitive, and else changes a word. -/
theorem revise_cases (dictionary : Dictionary) (name : String) (revision : Revision) :
    ((Primitive.ofName? name).isSome = true ∧
        dictionary.revise name revision = .error (.primitiveName name)) ∨
      ∃ later, dictionary.revise name revision = .ok later ∧
        dictionary.Updates name revision later := by
  have index_eq := Index.revise_ofWords dictionary.words name revision
  rw [← dictionary.index_eq] at index_eq
  unfold revise
  split
  · rename_i cause revise_eq
    rw [index_eq] at revise_eq
    split at revise_eq
    · rename_i name_eq
      exact .inl ⟨by rw [name_eq, Option.isSome_some], by rw [Except.error.inj revise_eq]⟩
    · cases revise_eq
  · rename_i index revise_eq
    rw [index_eq] at revise_eq
    split at revise_eq
    · cases revise_eq
    · rename_i free
      have words_eq : index.words = changeWord name revision.apply dictionary.words := by
        rw [← Except.ok.inj revise_eq, Index.words_ofWords]
      exact .inr ⟨_, rfl, free, words_eq, rfl⟩

/-- The revisions that succeed are those that change a word. -/
theorem revise_eq_ok_iff {revision : Revision} {later : Dictionary} :
    dictionary.revise name revision = .ok later ↔
      dictionary.Updates name revision later := by
  rcases dictionary.revise_cases name revision with
    ⟨primitive, revise_eq⟩ | ⟨changed, revise_eq, updates⟩
  · rw [revise_eq]
    refine iff_of_false (by simp) fun updates => ?_
    rw [updates.free] at primitive
    cases primitive
  · rw [revise_eq, Except.ok.injEq]
    constructor
    · rintro rfl
      exact updates
    · intro other
      exact ext (updates.words_eq.trans other.words_eq.symm)
        (updates.store_eq.trans other.store_eq.symm)

/-- The names of primitives are refused. -/
theorem revise_of_isSome
    (primitive : (Primitive.ofName? name).isSome = true)
    (revision : Revision) :
    dictionary.revise name revision = .error (.primitiveName name) := by
  rcases dictionary.revise_cases name revision with
    ⟨-, revise_eq⟩ | ⟨changed, -, updates⟩
  · exact revise_eq
  · rw [updates.free] at primitive
    cases primitive

/-- All other names are accepted. -/
theorem exists_revise_eq
    (free : Primitive.ofName? name = none)
    (revision : Revision) :
    ∃ later, dictionary.revise name revision = .ok later := by
  rcases dictionary.revise_cases name revision with
    ⟨primitive, -⟩ | ⟨later, revise_eq, -⟩
  · rw [free] at primitive
    cases primitive
  · exact ⟨later, revise_eq⟩

/-- A declaration that succeeds adds a variable under a name that is no word. -/
theorem declareVariable_eq_ok
    {after : Dictionary}
    (declare_eq : dictionary.declareVariable name = .ok after) :
    dictionary.contains name = false ∧
      after = { dictionary with store := dictionary.store.declare name } := by
  unfold declareVariable at declare_eq
  split at declare_eq
  · simp at declare_eq
  · rename_i free
    simp only [Except.ok.injEq] at declare_eq
    exact ⟨eq_false_of_ne_true free, declare_eq.symm⟩

/-- Revising a word keeps the dictionary well formed. -/
theorem WellFormed.revise
    (wellFormed : dictionary.WellFormed)
    {revision : Revision}
    {after : Dictionary}
    (revise_eq : dictionary.revise name revision = .ok after) :
    after.WellFormed where
  store_apart other declared := by
    have updates := revise_eq_ok_iff.mp revise_eq
    rw [updates.store_eq, Store.contains_erase] at declared
    have apart := wellFormed.store_apart other declared.1
    rw [← Bool.not_eq_true, contains_iff] at apart ⊢
    simp only [updates.words_eq, mem_map_name_changeWord revision.name_apply]
    rintro (primitive | present | same)
    · exact apart (.inl primitive)
    · exact apart (.inr present)
    · exact declared.2 same

/-- A word is revised under its number and name. -/
theorem lookup_revise
    {number : Nat}
    {word : Word}
    (lookup_eq : dictionary.lookup word.name = some (.compiled number word))
    (revision : Revision) :
    ∃ later, dictionary.revise word.name revision = .ok later ∧
      later.lookup word.name = some (.compiled number (revision.apply word)) := by
  have entry_eq := (name_and_entry?_of_lookup lookup_eq).2
  obtain ⟨index, -, rfl, word_eq⟩ := entry?_eq_compiled_iff.mp entry_eq
  have free := dictionary.areSound.names_apart word (List.mem_of_getElem? word_eq)
  obtain ⟨later, revise_eq⟩ := exists_revise_eq free revision
  have place : later.words[index]? = some (revision.apply word) := by
    rw [(revise_eq_ok_iff.mp revise_eq).words_eq]
    exact getElem?_changeWord_self dictionary.areSound.names_nodup word_eq
  have changed := lookup_of_getElem? place
  rw [revision.name_apply] at changed
  exact ⟨later, revise_eq, changed⟩

/-- The definition of a word changes that word. -/
theorem lookup_define
    {number : Nat}
    {word : Word}
    (lookup_eq : dictionary.lookup word.name = some (.compiled number word))
    (body : Body) :
    ∃ later, dictionary.define word.name body = .ok later ∧
      later.lookup word.name = some (.compiled number (word.define body)) :=
  lookup_revise lookup_eq (.define body)

/-- Declaring a variable keeps the dictionary well formed. -/
theorem WellFormed.declareVariable
    (wellFormed : dictionary.WellFormed)
    {after : Dictionary}
    (declare_eq : dictionary.declareVariable name = .ok after) :
    after.WellFormed := by
  obtain ⟨free, rfl⟩ := declareVariable_eq_ok declare_eq
  refine ⟨fun other declared => ?_⟩
  rcases Store.contains_declare.mp declared with old | rfl
  · exact wellFormed.store_apart other old
  · exact free

/-! ## Later states of a dictionary -/

/--
The later state of a dictionary: every word keeps its number and what is defined of it,
and a variable stays one unless a word takes its name over.
-/
structure Extends (dictionary later : Dictionary) : Prop where
  words : ∀ (index : Nat) (word : Word), dictionary.words[index]? = some word →
    ∃ laterWord, later.words[index]? = some laterWord ∧ word.Extends laterWord
  store : ∀ name, dictionary.store.contains name = true →
    later.store.contains name = true ∨ name ∈ later.words.map Word.name

/-- The revision of a word extends the dictionary. -/
theorem extends_revise
    {revision : Revision}
    {after : Dictionary}
    (revise_eq : dictionary.revise name revision = .ok after) :
    dictionary.Extends after := by
  have updates := revise_eq_ok_iff.mp revise_eq
  constructor
  · intro index word word_eq
    rw [updates.words_eq]
    rcases getElem?_changeWord word_eq with kept | ⟨-, changed⟩
    · exact ⟨word, kept, .refl word⟩
    · exact ⟨revision.apply word, changed, (Word.isSoundChange_apply revision).extends_change word⟩
  · intro other declared
    rw [updates.words_eq, updates.store_eq, mem_map_name_changeWord revision.name_apply]
    by_cases same : other = name
    · exact .inr (.inr same)
    · exact .inl (Store.contains_erase.mpr ⟨declared, same⟩)

/-- The declaration of a variable extends the dictionary. -/
theorem extends_declareVariable
    {after : Dictionary}
    (declare_eq : dictionary.declareVariable name = .ok after) :
    dictionary.Extends after := by
  obtain ⟨-, rfl⟩ := declareVariable_eq_ok declare_eq
  constructor
  · exact fun index word word_eq => ⟨word, word_eq, .refl word⟩
  · exact fun other declared => .inl (Store.contains_declare.mpr (.inl declared))

end Dictionary
end Concatenative

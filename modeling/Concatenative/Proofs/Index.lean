import Concatenative.Dictionary.Index
import Concatenative.Proofs.Word
import Mathlib.Data.List.Basic
import Mathlib.Data.List.Nodup

/-!
# The tables of an index keep in step

The operations on an index change its tables one by one.  Here they are shown to keep in
step: the tables of every index that is built are those of a list of words, numbered by
their places from 1, and an operation on the index is a change in that list.  The list is
what everything else is proved about.
-/

namespace Concatenative

namespace Table

variable {κ ν μ : Type} [DecidableEq κ]

/-- A table of values under keys of their own leads to the first value with a key. -/
theorem get?_map (key : ν → κ) (content : ν → μ) (values : List ν) (sought : κ) :
    (Table.mk (values.map fun value => (key value, content value))).get? sought =
      (values.find? fun value => key value == sought).map content := by
  unfold get?
  induction values with
  | nil => rfl
  | cons value values inductionHypothesis =>
      rw [List.map_cons, List.lookup_cons, List.find?_cons]
      by_cases same : key value = sought
      · simp [same]
      · have other : (sought == key value) = false := by simpa using Ne.symm same
        rw [other, beq_eq_false_iff_ne.mpr same]
        exact inductionHypothesis

/-- There are values under the keys. -/
theorem contains_iff {table : Table κ ν} {key : κ} :
    table.contains key = true ↔ key ∈ table.keys := by
  rw [contains, get?, List.lookup_isSome_iff, keys, List.mem_map]
  constructor
  · rintro ⟨binding, present, same⟩
    exact ⟨binding, present, (eq_of_beq same).symm⟩
  · rintro ⟨binding, present, rfl⟩
    exact ⟨binding, present, beq_self_eq_true _⟩

/-- A value under a new key is put behind the others. -/
theorem set_of_not_mem_keys
    {table : Table κ ν}
    {key : κ}
    (fresh : key ∉ table.keys)
    (value : ν) :
    table.set key value = ⟨table.bindings ++ [(key, value)]⟩ := by
  have absent : table.contains key = false :=
    eq_false_of_ne_true fun present => fresh (contains_iff.mp present)
  rw [set, absent]
  rfl

end Table

namespace Index

open Dictionary

/-! ## The index of a list of words -/

/-- Compiled words under consecutive numbers. -/
def numbered (first : Nat) (words : List Word) : List Entry :=
  (words.zipIdx first).map fun (word, number) => .compiled number word

/-- The primitives, and compiled words that are numbered from 1. -/
def entriesOf (words : List Word) : List Entry :=
  Primitive.all.map .primitive ++ numbered 1 words

/-- The index in which words have their places, counted from 1, as their numbers. -/
def ofWords (words : List Word) : Index where
  ids := ⟨(entriesOf words).map fun entry => (entry.name, entry.id)⟩
  entries := ⟨(entriesOf words).map fun entry => (entry.id, entry)⟩
  nextId := words.length + 1

theorem ofWords_nil : ofWords [] = initial := rfl

variable {words : List Word} {name : String} {change : Word → Word}

/-! ## Numbers -/

theorem numbered_cons (first : Nat) (word : Word) (words : List Word) :
    numbered first (word :: words) = .compiled first word :: numbered (first + 1) words := by
  rw [numbered, List.zipIdx_cons, List.map_cons]
  rfl

theorem numbered_append (first : Nat) (front back : List Word) :
    numbered first (front ++ back) =
      numbered first front ++ numbered (first + front.length) back := by
  rw [numbered, List.zipIdx_append, List.map_append]
  rfl

/-- The numbers are consecutive. -/
theorem map_id_numbered (first : Nat) (words : List Word) :
    (numbered first words).map Entry.id = (List.range' first words.length).map Nat.cast := by
  rw [← List.zipIdx_map_snd, numbered, List.map_map, List.map_map]
  rfl

/-- The words have the numbers of their places. -/
theorem getElem?_numbered (first index : Nat) (words : List Word) :
    (numbered first words)[index]? = words[index]?.map (.compiled (first + index)) := by
  rw [numbered, List.getElem?_map, List.getElem?_zipIdx, Option.map_map]
  rfl

theorem mem_numbered {first : Nat} {entry : Entry} :
    entry ∈ numbered first words ↔
      ∃ index word, words[index]? = some word ∧ entry = .compiled (first + index) word := by
  simp only [List.mem_iff_getElem?, getElem?_numbered, Option.map_eq_some_iff, @eq_comm _ entry]

/-- The numbers of the compiled words are positive. -/
theorem id_pos_of_mem_numbered
    {entry : Entry}
    (present : entry ∈ numbered 1 words) :
    0 < entry.id := by
  obtain ⟨index, word, -, rfl⟩ := mem_numbered.mp present
  simp only [Entry.id]
  omega

/-- No two entries have one number. -/
theorem nodup_ids (words : List Word) : ((entriesOf words).map Entry.id).Nodup := by
  rw [entriesOf, List.map_append, List.nodup_append]
  refine ⟨by decide, ?_, ?_⟩
  · rw [map_id_numbered]
    exact (List.nodup_range' 1).map fun _ _ same => Int.ofNat.inj same
  · intro left isLeft right isRight same
    obtain ⟨first, present, rfl⟩ := List.mem_map.mp isLeft
    obtain ⟨primitive, -, rfl⟩ := List.mem_map.mp present
    obtain ⟨second, compiled, rfl⟩ := List.mem_map.mp isRight
    have negative : (Entry.primitive primitive).id < 0 := primitive.id_neg
    have positive := id_pos_of_mem_numbered compiled
    omega

/-! ## What the tables lead to -/

theorem get?_ids (words : List Word) (name : String) :
    (ofWords words).ids.get? name =
      ((entriesOf words).find? fun entry => entry.name == name).map Entry.id :=
  Table.get?_map Entry.name Entry.id _ name

/-- A number leads to the entry that has it. -/
theorem get?_entries_eq_some_iff {id : Int} {entry : Entry} :
    (ofWords words).entries.get? id = some entry ↔ entry ∈ entriesOf words ∧ entry.id = id := by
  have get_eq : (ofWords words).entries.get? id =
      (entriesOf words).find? fun entry => entry.id == id := by
    rw [ofWords, Table.get?_map Entry.id (fun entry => entry), Option.map_id']
  rw [get_eq]
  constructor
  · intro found
    exact ⟨List.mem_of_find?_eq_some found, by simpa using List.find?_some found⟩
  · rintro ⟨present, rfl⟩
    have inside : ((entriesOf words).find? fun other => other.id == entry.id).isSome :=
      List.find?_isSome.mpr ⟨entry, present, beq_self_eq_true entry.id⟩
    obtain ⟨other, found⟩ := Option.isSome_iff_exists.mp inside
    have same : other.id = entry.id := by simpa using List.find?_some found
    rw [found, List.inj_on_of_nodup_map (nodup_ids words) (List.mem_of_find?_eq_some found)
      present same]

/-- A name leads to the first entry that has it. -/
theorem lookup_ofWords (words : List Word) (name : String) :
    (ofWords words).lookup name = (entriesOf words).find? fun entry => entry.name == name := by
  rw [lookup, get?_ids]
  cases found_eq : (entriesOf words).find? fun entry => entry.name == name with
  | none => rfl
  | some entry =>
      exact get?_entries_eq_some_iff.mpr ⟨List.mem_of_find?_eq_some found_eq, rfl⟩

/-- Among the entries, primitives are found first. -/
theorem find?_entriesOf (words : List Word) (name : String) :
    ((entriesOf words).find? fun entry => entry.name == name) =
      match Primitive.ofName? name with
      | some primitive => some (.primitive primitive)
      | none => (numbered 1 words).find? fun entry => entry.name == name := by
  have primitives : ((Primitive.all.map Entry.primitive).find? fun entry => entry.name == name) =
      (Primitive.ofName? name).map .primitive := by
    rw [List.find?_map]
    rfl
  rw [entriesOf, List.find?_append, primitives]
  cases Primitive.ofName? name <;> rfl

/-! ## Changes of the tables -/

/-- Changes the word of the entry that has a number. -/
def changeAt (id : Int) (change : Word → Word) (entries : List Entry) : List Entry :=
  entries.map fun entry => if entry.id = id then entry.mapWord change else entry

/-- Entries that do not have the number are left as they are. -/
theorem changeAt_of_forall_ne
    {entries : List Entry}
    {id : Int}
    (others : ∀ entry ∈ entries, entry.id ≠ id) :
    changeAt id change entries = entries := by
  refine (List.map_congr_left fun entry present => ?_).trans entries.map_id
  rw [if_neg (others entry present)]
  rfl

/-- Changing the entry with a number is changing the word in its place. -/
theorem changeAt_numbered (first index : Nat) (words : List Word) :
    changeAt (first + index : Nat) change (numbered first words) =
      numbered first (words.modify index change) := by
  induction words generalizing first index with
  | nil => simp [numbered, changeAt]
  | cons head words inductionHypothesis =>
      cases index with
      | zero =>
          have others : ∀ entry ∈ numbered (first + 1) words, entry.id ≠ (first : Int) := by
            intro entry present
            obtain ⟨place, word, -, rfl⟩ := mem_numbered.mp present
            simp only [Entry.id]
            omega
          rw [List.modify_zero_cons, numbered_cons, numbered_cons, changeAt, List.map_cons,
            Nat.add_zero, ← changeAt, changeAt_of_forall_ne others, Entry.id, if_pos rfl,
            Entry.mapWord]
      | succ index =>
          have differs : (Entry.compiled first head).id ≠ (first + (index + 1) : Nat) := by
            simp only [Entry.id]
            omega
          have place_eq : first + (index + 1) = first + 1 + index := by omega
          rw [List.modify_succ_cons, numbered_cons, numbered_cons, changeAt, List.map_cons,
            ← changeAt, if_neg differs, place_eq, inductionHypothesis]

theorem changeAt_entriesOf (words : List Word) (index : Nat) :
    changeAt (index + 1 : Nat) change (entriesOf words) =
      entriesOf (words.modify index change) := by
  have primitives : ∀ entry ∈ Primitive.all.map Entry.primitive,
      entry.id ≠ (index + 1 : Nat) := by
    intro entry present
    obtain ⟨primitive, -, rfl⟩ := List.mem_map.mp present
    have negative : (Entry.primitive primitive).id < 0 := primitive.id_neg
    omega
  have apart : changeAt (index + 1 : Nat) change (Primitive.all.map Entry.primitive) = _ :=
    changeAt_of_forall_ne primitives
  have compiled : changeAt (1 + index : Nat) change (numbered 1 words) = _ :=
    changeAt_numbered 1 index words
  rw [changeAt] at apart compiled
  rw [entriesOf, changeAt, List.map_append, apart, Nat.add_comm index 1, compiled, entriesOf]

/-- Changing the word with a number leaves the tables in step. -/
theorem changeEntry_ofWords
    (named : ∀ word, (change word).name = word.name)
    (words : List Word)
    (index : Nat) :
    (ofWords words).changeEntry (index + 1 : Nat) change = ofWords (words.modify index change) := by
  have name_eq : ∀ entry : Entry, (entry.mapWord change).name = entry.name := by
    intro entry
    cases entry with
    | primitive _ => rfl
    | compiled _ word => exact named word
  have id_eq : ∀ entry : Entry, (entry.mapWord change).id = entry.id := by
    intro entry
    cases entry <;> rfl
  have ids_eq : (entriesOf (words.modify index change)).map (fun entry => (entry.name, entry.id)) =
      (entriesOf words).map fun entry => (entry.name, entry.id) := by
    rw [← changeAt_entriesOf, changeAt, List.map_map]
    refine List.map_congr_left fun entry _ => ?_
    rw [Function.comp_apply]
    split <;> simp [name_eq, id_eq]
  have entries_eq : (entriesOf (words.modify index change)).map (fun entry => (entry.id, entry)) =
      ((entriesOf words).map fun entry => (entry.id, entry)).map fun (present, entry) =>
        (present, if present = (index + 1 : Nat) then entry.mapWord change else entry) := by
    rw [← changeAt_entriesOf, changeAt, List.map_map, List.map_map]
    refine List.map_congr_left fun entry _ => ?_
    simp only [Function.comp_apply]
    split <;> simp_all
  simp only [ofWords, changeEntry, Table.modify, ids_eq, entries_eq, List.length_modify]

/-- A name that no entry has gets the next number, in both tables. -/
theorem allocate_ofWords
    (fresh : ∀ entry ∈ entriesOf words, entry.name ≠ name) :
    (ofWords words).allocate name = ofWords (words ++ [⟨name, []⟩]) := by
  have added : entriesOf (words ++ [⟨name, []⟩]) =
      entriesOf words ++ [.compiled (words.length + 1) ⟨name, []⟩] := by
    rw [entriesOf, numbered_append, entriesOf, List.append_assoc, Nat.add_comm 1]
    rfl
  have freshName : name ∉ (ofWords words).ids.keys := by
    rw [Table.keys, ofWords, List.map_map]
    intro present
    obtain ⟨entry, inside, named⟩ := List.mem_map.mp present
    exact fresh entry inside named
  have freshId : ((words.length + 1 : Nat) : Int) ∉ (ofWords words).entries.keys := by
    rw [Table.keys, ofWords, List.map_map]
    intro present
    obtain ⟨entry, inside, same⟩ := List.mem_map.mp present
    simp only [Function.comp_apply] at same
    rcases List.mem_append.mp inside with builtin | compiled
    · obtain ⟨primitive, -, rfl⟩ := List.mem_map.mp builtin
      have negative : (Entry.primitive primitive).id < 0 := primitive.id_neg
      omega
    · obtain ⟨index, word, word_eq, rfl⟩ := mem_numbered.mp compiled
      have bound := (List.getElem?_eq_some_iff.mp word_eq).1
      simp only [Entry.id] at same
      omega
  have ids_eq := Table.set_of_not_mem_keys freshName (words.length + 1 : Nat)
  have entries_eq := Table.set_of_not_mem_keys freshId
    (.compiled (words.length + 1) ⟨name, []⟩)
  have nextId_eq : (ofWords words).nextId = words.length + 1 := rfl
  rw [allocate, nextId_eq, ids_eq, entries_eq]
  simp only [ofWords, added, List.map_append, List.map_singleton, List.length_append,
    List.length_singleton, Entry.name, Entry.id]

/-- The compiled entry that is found under a name is that of the first word with the name. -/
theorem exists_of_find?_numbered
    {entry : Entry}
    (found : ((numbered 1 words).find? fun entry => entry.name == name) = some entry) :
    ∃ (index : Nat) (word : Word),
      entry = .compiled (index + 1) word ∧ words[index]? = some word ∧ word.name = name ∧
      ∀ earlier < index, ∀ other, words[earlier]? = some other → other.name ≠ name := by
  obtain ⟨named, index, bound, entry_eq, first⟩ := List.find?_eq_some_iff_getElem.mp found
  have place := (getElem?_numbered 1 index words).symm.trans
    (List.getElem?_eq_some_iff.mpr ⟨bound, entry_eq⟩)
  obtain ⟨word, word_eq, rfl⟩ := Option.map_eq_some_iff.mp place
  refine ⟨index, word, by rw [Nat.add_comm], word_eq, by simpa [Entry.name] using named, ?_⟩
  intro earlier less other other_eq
  have differs := first earlier less
  have otherPlace : (numbered 1 words)[earlier]? = some (.compiled (1 + earlier) other) := by
    rw [getElem?_numbered, other_eq, Option.map_some]
  rw [(List.getElem?_eq_some_iff.mp otherPlace).2] at differs
  simpa [Entry.name] using differs

/-- Where a name leads nowhere it is given to a new word. -/
theorem userWord_of_absent
    (absent : ((entriesOf words).find? fun entry => entry.name == name) = none) :
    (ofWords words).userWord name =
      .ok ((words.length + 1 : Nat), ofWords (words ++ [⟨name, []⟩])) := by
  have fresh : ∀ entry ∈ entriesOf words, entry.name ≠ name := by
    simpa [List.find?_eq_none] using absent
  unfold userWord
  rw [get?_ids, absent]
  simp only [Option.map_none, allocate_ofWords fresh]
  rfl

/-- The entry that a name leads to is also found by its number. -/
theorem get?_entries_of_find?
    {entry : Entry}
    (found : ((entriesOf words).find? fun entry => entry.name == name) = some entry) :
    (ofWords words).entries.get? entry.id = some entry :=
  get?_entries_eq_some_iff.mpr ⟨List.mem_of_find?_eq_some found, rfl⟩

/-- The name of a primitive is refused. -/
theorem userWord_of_primitive
    {primitive : Primitive}
    (found : ((entriesOf words).find? fun entry => entry.name == name) =
      some (.primitive primitive)) :
    (ofWords words).userWord name = .error (.primitiveName name) := by
  unfold userWord
  rw [get?_ids, found]
  simp only [Option.map_some, get?_entries_of_find? found]

/-- The name of a compiled word leads to its number. -/
theorem userWord_of_compiled
    {number : Nat}
    {word : Word}
    (found : ((entriesOf words).find? fun entry => entry.name == name) =
      some (.compiled number word)) :
    (ofWords words).userWord name = .ok (number, ofWords words) := by
  unfold userWord
  rw [get?_ids, found]
  simp only [Option.map_some, get?_entries_of_find? found]
  rfl

/-! ## Operations -/

/-- A change of the word with a name is one in the list of the words. -/
theorem changeEntry_userWord_ofWords
    (named : ∀ word, (change word).name = word.name)
    (words : List Word)
    (name : String) :
    ((ofWords words).userWord name).map (fun (id, index) => index.changeEntry id change) =
      match Primitive.ofName? name with
      | some _ => .error (.primitiveName name)
      | none => .ok (ofWords (changeWord name change words)) := by
  have found := find?_entriesOf words name
  cases primitive_eq : Primitive.ofName? name with
  | some primitive =>
      rw [primitive_eq] at found
      rw [userWord_of_primitive found]
      rfl
  | none =>
      simp only [primitive_eq] at found
      cases compiled_eq : (numbered 1 words).find? fun entry => entry.name == name with
      | none =>
          rw [compiled_eq] at found
          have fresh : ∀ word ∈ words, word.name ≠ name := by
            intro word present
            obtain ⟨index, word_eq⟩ := List.getElem?_of_mem present
            have inside : .compiled (1 + index) word ∈ numbered 1 words :=
              mem_numbered.mpr ⟨index, word, word_eq, rfl⟩
            simpa [Entry.name] using List.find?_eq_none.mp compiled_eq _ inside
          have changed := changeEntry_ofWords named (words ++ [⟨name, []⟩]) words.length
          rw [modify_length_append] at changed
          rw [userWord_of_absent found, changeWord_of_forall_ne fresh, ← changed]
          rfl
      | some entry =>
          obtain ⟨index, word, rfl, word_eq, name_eq, first⟩ :=
            exists_of_find?_numbered compiled_eq
          rw [compiled_eq] at found
          rw [userWord_of_compiled found, changeWord_eq_modify word_eq name_eq first,
            ← changeEntry_ofWords named]
          rfl

/-- A revision is a change in the list of the words. -/
theorem revise_ofWords (words : List Word) (name : String) (revision : Revision) :
    (ofWords words).revise name revision =
      match Primitive.ofName? name with
      | some _ => .error (.primitiveName name)
      | none => .ok (ofWords (changeWord name revision.apply words)) :=
  changeEntry_userWord_ofWords revision.name_apply words name

/-! ## Indices that are built -/

/-- An index that is built is that of sound words, in the order of their numbers. -/
theorem IsBuilt.exists_eq_ofWords
    {index : Index}
    (built : index.IsBuilt) :
    ∃ words, AreSound words ∧ index = ofWords words := by
  induction built with
  | initial => exact ⟨[], areSound_nil, ofWords_nil.symm⟩
  | @revise index later name revision _ revise_eq inductionHypothesis =>
      obtain ⟨words, sound, rfl⟩ := inductionHypothesis
      rw [revise_ofWords] at revise_eq
      split at revise_eq
      · cases revise_eq
      · rename_i free
        refine ⟨_, sound.changeWord (Word.isSoundChange_apply revision) free, ?_⟩
        exact (Except.ok.inj revise_eq).symm

/-- The entries are read off the index. -/
theorem values_entries_ofWords (words : List Word) :
    (ofWords words).entries.values = entriesOf words := by
  rw [Table.values, ofWords, List.map_map]
  exact List.map_id _

/-- The words are read off the index. -/
theorem words_ofWords (words : List Word) : (ofWords words).words = words := by
  have primitives : (Primitive.all.map Entry.primitive).filterMap Entry.word? = [] := rfl
  have compiled (first : Nat) : (numbered first words).filterMap Entry.word? = words := by
    induction words generalizing first with
    | nil => rfl
    | cons word words inductionHypothesis =>
        rw [numbered_cons, List.filterMap_cons, Entry.word?, inductionHypothesis]
  rw [Index.words, values_entries_ofWords, entriesOf, List.filterMap_append, primitives,
    compiled, List.nil_append]

/-! ## Agreement -/

/-- The names are those of the primitives and of the compiled words. -/
theorem map_name_entriesOf (words : List Word) :
    (entriesOf words).map Entry.name =
      Primitive.all.map Primitive.name ++ words.map Word.name := by
  have compiled : (numbered 1 words).map Entry.name = words.map Word.name := by
    rw [← List.zipIdx_map_fst 1 words, numbered, List.map_map, List.map_map, List.zipIdx_map_fst]
    rfl
  rw [entriesOf, List.map_append, List.map_map, compiled]
  rfl

/-- No two entries have one name. -/
theorem nodup_names (sound : AreSound words) : ((entriesOf words).map Entry.name).Nodup := by
  rw [map_name_entriesOf, List.nodup_append]
  refine ⟨by decide, sound.names_nodup, ?_⟩
  rintro name isPrimitive other isCompiled rfl
  obtain ⟨primitive, -, rfl⟩ := List.mem_map.mp isPrimitive
  obtain ⟨word, present, named⟩ := List.mem_map.mp isCompiled
  have free := sound.names_apart word present
  rw [named] at free
  simp at free

/-- A name leads to the number of the entry that has it. -/
theorem get?_ids_eq_some_iff
    (sound : AreSound words)
    {id : Int} :
    (ofWords words).ids.get? name = some id ↔
      ∃ entry ∈ entriesOf words, entry.name = name ∧ entry.id = id := by
  rw [get?_ids, Option.map_eq_some_iff]
  constructor
  · rintro ⟨entry, found, id_eq⟩
    exact ⟨entry, List.mem_of_find?_eq_some found, by simpa using List.find?_some found, id_eq⟩
  · rintro ⟨entry, present, rfl, rfl⟩
    have inside : ((entriesOf words).find? fun other => other.name == entry.name).isSome :=
      List.find?_isSome.mpr ⟨entry, present, beq_self_eq_true entry.name⟩
    obtain ⟨other, found⟩ := Option.isSome_iff_exists.mp inside
    have same : other.name = entry.name := by simpa using List.find?_some found
    refine ⟨other, found, ?_⟩
    rw [List.inj_on_of_nodup_map (nodup_names sound) (List.mem_of_find?_eq_some found) present
      same]

/-- The compiled words among the entries have the numbers of their places. -/
theorem mem_entriesOf_compiled_iff {number : Nat} {word : Word} :
    .compiled number word ∈ entriesOf words ↔
      ∃ index : Nat, number = index + 1 ∧ words[index]? = some word := by
  rw [entriesOf, List.mem_append, mem_numbered]
  constructor
  · rintro (builtin | ⟨index, other, word_eq, entry_eq⟩)
    · obtain ⟨primitive, -, clash⟩ := List.mem_map.mp builtin
      cases clash
    · obtain ⟨rfl, rfl⟩ := Entry.compiled.inj entry_eq
      exact ⟨index, Nat.add_comm 1 index, word_eq⟩
  · rintro ⟨index, rfl, word_eq⟩
    exact .inr ⟨index, word, word_eq, by rw [Nat.add_comm]⟩

/-- All primitives are among the entries. -/
theorem primitive_mem_entriesOf (primitive : Primitive) (words : List Word) :
    .primitive primitive ∈ entriesOf words :=
  List.mem_append_left _ (List.mem_map_of_mem primitive.mem_all)

/--
The tables and the counter of an index agree.  The type of an index does not say so: it is
what the operations keep, each of which changes the tables and the counter one by one.
-/
structure Agrees (index : Index) : Prop where
  /-- No name has two numbers. -/
  names_nodup : index.ids.keys.Nodup
  /-- No number has two entries. -/
  ids_nodup : index.entries.keys.Nodup
  /-- No number is that of two names. -/
  ids_injective : ∀ left right id,
    index.ids.get? left = some id → index.ids.get? right = some id → left = right
  /-- The number of a name has an entry, and the entry has that name and that number. -/
  entry_of_id : ∀ name id, index.ids.get? name = some id →
    ∃ entry, index.entries.get? id = some entry ∧ entry.name = name ∧ entry.id = id
  /-- The entry under a number has that number, and its name has that number too. -/
  id_of_entry : ∀ id entry, index.entries.get? id = some entry →
    entry.id = id ∧ index.ids.get? entry.name = some id
  /-- The numbers of compiled words are those from 1 up to the next one. -/
  compiled_ids : ∀ id,
    (∃ entry, index.entries.get? id = some entry ∧ entry.isPrimitive = false) ↔
      1 ≤ id ∧ id < index.nextId
  /-- The negative numbers are those of the primitives. -/
  primitive_ids : ∀ id entry,
    index.entries.get? id = some entry ∧ id < 0 ↔
      ∃ primitive : Primitive, primitive.id = id ∧ entry = .primitive primitive
  /-- Primitives have no layers, and compiled words have a layer. -/
  layered : ∀ id entry,
    index.entries.get? id = some entry → (entry.layers = [] ↔ entry.isPrimitive = true)
  /-- No layer but the newest is pending. -/
  filled : ∀ id entry,
    index.entries.get? id = some entry → ∀ layer ∈ entry.layers.dropLast, layer.isSome

theorem keys_ids_ofWords (words : List Word) :
    (ofWords words).ids.keys = (entriesOf words).map Entry.name := by
  rw [Table.keys, ofWords, List.map_map]
  rfl

/-- The compiled words have the numbers from 1 up to the next one. -/
theorem exists_compiled_iff (words : List Word) (id : Int) :
    (∃ entry, (ofWords words).entries.get? id = some entry ∧ entry.isPrimitive = false) ↔
      1 ≤ id ∧ id < (ofWords words).nextId := by
  simp only [get?_entries_eq_some_iff]
  constructor
  · rintro ⟨entry, ⟨present, rfl⟩, compiled⟩
    cases entry with
    | primitive primitive => simp [Entry.isPrimitive] at compiled
    | compiled number word =>
        obtain ⟨index, rfl, word_eq⟩ := mem_entriesOf_compiled_iff.mp present
        have bound := (List.getElem?_eq_some_iff.mp word_eq).1
        simp only [Entry.id, ofWords]
        omega
  · rintro ⟨positive, bound⟩
    obtain ⟨index, rfl⟩ : ∃ index : Nat, id = index + 1 := ⟨id.toNat - 1, by omega⟩
    have inside : index < words.length := by
      simp only [ofWords] at bound
      omega
    have present : .compiled (index + 1) words[index] ∈ entriesOf words :=
      mem_entriesOf_compiled_iff.mpr ⟨index, rfl, List.getElem?_eq_getElem inside⟩
    exact ⟨_, ⟨present, rfl⟩, rfl⟩

/-- The entries under negative numbers are the primitives, each under its own. -/
theorem get?_entries_neg_iff (words : List Word) (id : Int) (entry : Entry) :
    (ofWords words).entries.get? id = some entry ∧ id < 0 ↔
      ∃ primitive : Primitive, primitive.id = id ∧ entry = .primitive primitive := by
  rw [get?_entries_eq_some_iff]
  constructor
  · rintro ⟨⟨present, rfl⟩, negative⟩
    cases entry with
    | primitive primitive => exact ⟨primitive, rfl, rfl⟩
    | compiled number word =>
        simp only [Entry.id] at negative
        omega
  · rintro ⟨primitive, rfl, rfl⟩
    exact ⟨⟨primitive_mem_entriesOf primitive words, rfl⟩, primitive.id_neg⟩

/-- A compiled entry is one of the words. -/
theorem mem_of_get?_entries
    {id : Int}
    {number : Nat}
    {word : Word}
    (entry_eq : (ofWords words).entries.get? id = some (.compiled number word)) :
    word ∈ words := by
  have present := (get?_entries_eq_some_iff.mp entry_eq).1
  obtain ⟨index, -, word_eq⟩ := mem_entriesOf_compiled_iff.mp present
  exact List.mem_of_getElem? word_eq

/-- The tables of sound words agree. -/
theorem agrees_ofWords (sound : AreSound words) : Agrees (ofWords words) where
  names_nodup := by
    rw [keys_ids_ofWords]
    exact nodup_names sound
  ids_nodup := by
    have keys_eq : (ofWords words).entries.keys = (entriesOf words).map Entry.id := by
      rw [Table.keys, ofWords, List.map_map]
      rfl
    rw [keys_eq]
    exact nodup_ids words
  ids_injective left right id left_eq right_eq := by
    obtain ⟨first, firstPresent, rfl, rfl⟩ := (get?_ids_eq_some_iff sound).mp left_eq
    obtain ⟨second, secondPresent, rfl, same⟩ := (get?_ids_eq_some_iff sound).mp right_eq
    rw [List.inj_on_of_nodup_map (nodup_ids words) secondPresent firstPresent same]
  entry_of_id name id id_eq := by
    obtain ⟨entry, present, named, numbered⟩ := (get?_ids_eq_some_iff sound).mp id_eq
    exact ⟨entry, get?_entries_eq_some_iff.mpr ⟨present, numbered⟩, named, numbered⟩
  id_of_entry id entry entry_eq := by
    obtain ⟨present, numbered⟩ := get?_entries_eq_some_iff.mp entry_eq
    exact ⟨numbered, (get?_ids_eq_some_iff sound).mpr ⟨entry, present, rfl, numbered⟩⟩
  compiled_ids := exists_compiled_iff words
  primitive_ids := get?_entries_neg_iff words
  layered id entry entry_eq := by
    cases entry with
    | primitive primitive => simp [Entry.layers, Entry.isPrimitive]
    | compiled number word =>
        have wordSound := sound.words_sound word (mem_of_get?_entries entry_eq)
        simp [Entry.layers, Entry.isPrimitive, wordSound.layered]
  filled id entry entry_eq := by
    cases entry with
    | primitive primitive => simp [Entry.layers]
    | compiled number word =>
        exact (sound.words_sound word (mem_of_get?_entries entry_eq)).filled

/-- The tables of an index that is built agree. -/
theorem IsBuilt.agrees
    {index : Index}
    (built : index.IsBuilt) :
    index.Agrees := by
  obtain ⟨words, sound, rfl⟩ := built.exists_eq_ofWords
  exact agrees_ofWords sound

end Index
end Concatenative

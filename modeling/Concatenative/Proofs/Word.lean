import Concatenative.Dictionary.Entry

/-!
# Words

What is defined of a word stays: definitions and reservations leave the older layers in
place, and no layer below the newest is ever pending.  In a list of words a change goes to
the word with a name, which is added to the end if there is none.
-/

namespace Concatenative

namespace Primitive

@[simp] theorem ofName?_name (primitive : Primitive) :
    ofName? primitive.name = some primitive := by
  cases primitive <;> rfl

/-- The numbers of the primitives are negative. -/
theorem id_neg (primitive : Primitive) : primitive.id < 0 := by
  cases primitive <;> decide

/-- A primitive is found by its name only. -/
theorem name_of_ofName?
    {name : String}
    {primitive : Primitive}
    (found : ofName? name = some primitive) :
    primitive.name = name := by
  have passed := List.find?_some found
  simpa using passed

end Primitive

namespace Word

/-- Every layer but the newest has a body, and there is a newest. -/
structure IsSound (word : Word) : Prop where
  layered : word.layers ≠ []
  filled : ∀ layer ∈ word.layers.dropLast, layer.isSome

/-- The later state of a word: what is defined stays, under the same name. -/
structure Extends (word later : Word) : Prop where
  name_eq : later.name = word.name
  length_le : word.layers.length ≤ later.layers.length
  kept : ∀ (layer : Nat) (body : Body),
    word.layers[layer]? = some (some body) → later.layers[layer]? = some (some body)

theorem Extends.refl (word : Word) : word.Extends word :=
  ⟨rfl, Nat.le_refl _, fun _ _ kept => kept⟩

/-- A way to change a word that leaves a sound word behind, also from a word with no layers. -/
structure IsSoundChange (change : Word → Word) : Prop where
  isSound : ∀ word, word.layers = [] ∨ word.IsSound → (change word).IsSound
  extends_change : ∀ word, Extends word (change word)

theorem IsSoundChange.name_eq
    {change : Word → Word}
    (soundChange : IsSoundChange change)
    (word : Word) :
    (change word).name = word.name :=
  (soundChange.extends_change word).name_eq

/-- The newest layer of a pending word is the one without a body. -/
theorem layers_of_isPending
    {word : Word}
    (pending : word.isPending = true) :
    word.layers = word.layers.dropLast ++ [none] := by
  unfold isPending at pending
  split at pending
  · rename_i last_eq
    obtain ⟨older, layers_eq⟩ := List.getLast?_eq_some_iff.mp last_eq
    simp [layers_eq]
  · simp at pending

/-- The body of a layer is that in its place among the layers. -/
theorem body?_eq_some_iff {word : Word} {layer : Int} {body : Body} :
    word.body? layer = some body ↔
      ∃ index : Nat, layer = index ∧ word.layers[index]? = some (some body) := by
  cases layer with
  | negSucc index => simp [body?]
  | ofNat index =>
      simp only [body?, Option.join_eq_some_iff]
      constructor
      · exact fun layer_eq => ⟨index, rfl, layer_eq⟩
      · rintro ⟨other, same, layer_eq⟩
        rwa [Int.ofNat.inj same]

/-- The body of a layer is the body of one of the layers. -/
theorem mem_layers_of_body?
    {word : Word}
    {layer : Int}
    {body : Body}
    (body_eq : word.body? layer = some body) :
    some body ∈ word.layers := by
  obtain ⟨index, -, layer_eq⟩ := body?_eq_some_iff.mp body_eq
  exact List.mem_of_getElem? layer_eq

/-- A layer added to a word that is not pending leaves the word sound. -/
theorem isSound_append
    {word : Word}
    (sound : word.layers = [] ∨ word.IsSound)
    (settled : word.isPending = false)
    (layer : Option Body) :
    IsSound { word with layers := word.layers ++ [layer] } := by
  refine ⟨by simp, fun other present => ?_⟩
  simp only [List.dropLast_concat] at present
  rcases sound with empty | sound
  · simp [empty] at present
  · rw [← List.dropLast_concat_getLast sound.layered, List.mem_append] at present
    rcases present with before | last
    · exact sound.filled other before
    · simp only [List.mem_singleton] at last
      subst last
      cases last_eq : word.layers.getLast sound.layered with
      | some body => rfl
      | none => simp [isPending, List.getLast?_eq_some_getLast sound.layered, last_eq] at settled

theorem extends_append (word : Word) (layer : Option Body) :
    word.Extends { word with layers := word.layers ++ [layer] } := by
  refine ⟨rfl, by simp, fun index body found => ?_⟩
  obtain ⟨bound, -⟩ := List.getElem?_eq_some_iff.mp found
  simpa [List.getElem?_append_left bound] using found

/-- Defining a word keeps it sound. -/
theorem isSoundChange_define (body : Body) : IsSoundChange (·.define body) := by
  constructor
  · intro word sound
    unfold define
    split
    · rename_i pending
      refine ⟨by simp, fun layer present => ?_⟩
      rcases sound with empty | sound
      · simp [isPending, empty] at pending
      · exact sound.filled layer (by simpa using present)
    · rename_i settled
      exact isSound_append sound (by simpa using settled) (some body)
  · intro word
    unfold define
    split
    · rename_i pending
      refine ⟨rfl, ?_, fun index found present => ?_⟩
      · simp only [List.length_append, List.length_dropLast, List.length_singleton]
        omega
      · rw [layers_of_isPending pending] at present
        rcases Nat.lt_or_ge index word.layers.dropLast.length with before | newest
        · rw [List.getElem?_append_left before] at present ⊢
          exact present
        · rw [List.getElem?_append_right newest] at present
          simp [List.getElem?_singleton] at present
    · exact extends_append word (some body)

/-- A definition adds no layer but one with its body. -/
theorem mem_layers_define
    {word : Word}
    {body : Body}
    {layer : Option Body}
    (present : layer ∈ (word.define body).layers) :
    layer ∈ word.layers ∨ layer = some body := by
  unfold define at present
  split at present
  · rcases List.mem_append.mp present with before | new
    · exact .inl ((List.dropLast_subset _) before)
    · exact .inr (List.mem_singleton.mp new)
  · rcases List.mem_append.mp present with before | new
    · exact .inl before
    · exact .inr (List.mem_singleton.mp new)

/-- A reservation adds no layer with a body. -/
theorem mem_layers_reserve
    {word : Word}
    {body : Body}
    (present : some body ∈ word.reserve.layers) :
    some body ∈ word.layers := by
  unfold reserve at present
  split at present
  · exact present
  · simpa using present

/-- Reserving a layer of a word keeps it sound. -/
theorem isSoundChange_reserve : IsSoundChange reserve := by
  constructor
  · intro word sound
    unfold reserve
    split
    · rename_i pending
      rcases sound with empty | sound
      · simp [isPending, empty] at pending
      · exact sound
    · rename_i settled
      exact isSound_append sound (by simpa using settled) none
  · intro word
    unfold reserve
    split
    · exact .refl word
    · exact extends_append word none

/-- Revising a word keeps it sound. -/
theorem isSoundChange_apply (revision : Revision) : IsSoundChange revision.apply := by
  cases revision with
  | define body => exact isSoundChange_define body
  | reserve => exact isSoundChange_reserve

/-- A word whose newest layer has a body gets another layer by a definition. -/
theorem define_of_latest?
    {word : Word}
    {latest : Body}
    (latest_eq : word.latest? = some latest)
    (body : Body) :
    word.define body = { word with layers := word.layers ++ [some body] } := by
  have settled : ¬word.isPending = true := by
    intro pending
    rw [latest?, layers_of_isPending pending] at latest_eq
    simp at latest_eq
  rw [define, if_neg settled]

/-- The body of the newest layer is that of a layer. -/
theorem mem_layers_of_latest?
    {word : Word}
    {latest : Body}
    (latest_eq : word.latest? = some latest) :
    some latest ∈ word.layers := by
  rw [latest?, Option.join_eq_some_iff] at latest_eq
  exact List.mem_of_getLast? latest_eq

end Word

/-- Revising a word leaves it its name. -/
theorem Revision.name_apply (revision : Revision) (word : Word) :
    (revision.apply word).name = word.name :=
  (Word.isSoundChange_apply revision).name_eq word

namespace Dictionary

variable {words : List Word} {name : String} {change : Word → Word}

/-! ## Changes of a list of words -/

/-- Changes the word with a name; a word that is not there yet is added without layers first. -/
def changeWord (name : String) (change : Word → Word) : List Word → List Word
  | [] => [change ⟨name, []⟩]
  | word :: rest =>
      if word.name = name then change word :: rest else word :: changeWord name change rest

/-- It is the first word with the name that is changed. -/
theorem changeWord_eq_modify
    {index : Nat}
    {word : Word}
    (word_eq : words[index]? = some word)
    (named : word.name = name)
    (first : ∀ earlier < index, ∀ other, words[earlier]? = some other → other.name ≠ name) :
    changeWord name change words = words.modify index change := by
  induction words generalizing index with
  | nil => simp at word_eq
  | cons head words inductionHypothesis =>
      cases index with
      | zero =>
          obtain rfl : head = word := by simpa using word_eq
          rw [changeWord, if_pos named, List.modify_zero_cons]
      | succ index =>
          have differs : head.name ≠ name := first 0 (Nat.succ_pos index) head rfl
          rw [changeWord, if_neg differs, List.modify_succ_cons]
          rw [inductionHypothesis word_eq fun earlier less other other_eq =>
            first (earlier + 1) (Nat.succ_lt_succ less) other other_eq]

/-- The word behind the others is the one to change. -/
theorem modify_length_append (words : List Word) (word : Word) (change : Word → Word) :
    (words ++ [word]).modify words.length change = words ++ [change word] := by
  induction words with
  | nil => rfl
  | cons head words inductionHypothesis =>
      rw [List.cons_append, List.length_cons, List.modify_succ_cons, inductionHypothesis,
        List.cons_append]

/-- A new name is added behind the others. -/
theorem changeWord_of_forall_ne
    (fresh : ∀ word ∈ words, word.name ≠ name) :
    changeWord name change words = words ++ [change ⟨name, []⟩] := by
  induction words with
  | nil => rfl
  | cons head words inductionHypothesis =>
      rw [List.forall_mem_cons] at fresh
      rw [changeWord, if_neg fresh.1, inductionHypothesis fresh.2, List.cons_append]

/-- Changing a word leaves every word in its place. -/
theorem getElem?_changeWord
    {index : Nat}
    {word : Word}
    (word_eq : words[index]? = some word) :
    (changeWord name change words)[index]? = some word ∨
      word.name = name ∧ (changeWord name change words)[index]? = some (change word) := by
  induction words generalizing index with
  | nil => simp at word_eq
  | cons first words inductionHypothesis =>
      simp only [changeWord]
      cases index with
      | zero =>
          simp only [List.getElem?_cons_zero, Option.some.injEq] at word_eq
          subst word_eq
          split <;> simp_all
      | succ index =>
          simp only [List.getElem?_cons_succ] at word_eq
          split
          · exact .inl (by simpa using word_eq)
          · simpa using inductionHypothesis word_eq

/-- Where no two words share a name, it is the word with the name that is changed. -/
theorem getElem?_changeWord_self
    {index : Nat}
    {word : Word}
    (names_nodup : (words.map Word.name).Nodup)
    (word_eq : words[index]? = some word) :
    (changeWord word.name change words)[index]? = some (change word) := by
  induction words generalizing index with
  | nil => simp at word_eq
  | cons first words inductionHypothesis =>
      rw [List.map_cons, List.nodup_cons] at names_nodup
      simp only [changeWord]
      cases index with
      | zero =>
          simp only [List.getElem?_cons_zero, Option.some.injEq] at word_eq
          subst word_eq
          rw [if_pos rfl, List.getElem?_cons_zero]
      | succ index =>
          simp only [List.getElem?_cons_succ] at word_eq
          have other : first.name ≠ word.name := by
            intro name_eq
            apply names_nodup.1
            rw [name_eq]
            exact List.mem_map_of_mem (List.mem_of_getElem? word_eq)
          rw [if_neg other, List.getElem?_cons_succ]
          exact inductionHypothesis names_nodup.2 word_eq

/-- The words after a change are those before it and the changed one. -/
theorem mem_changeWord
    {word : Word}
    (present : word ∈ changeWord name change words) :
    word ∈ words ∨
      ∃ before, before.name = name ∧ (before ∈ words ∨ before.layers = []) ∧
        word = change before := by
  induction words with
  | nil =>
      simp only [changeWord, List.mem_singleton] at present
      exact .inr ⟨⟨name, []⟩, rfl, .inr rfl, present⟩
  | cons first words inductionHypothesis =>
      simp only [changeWord] at present
      split at present
      · rename_i named
        rcases List.mem_cons.mp present with equal | later
        · exact .inr ⟨first, named, .inl List.mem_cons_self, equal⟩
        · exact .inl (List.mem_cons_of_mem first later)
      · rcases List.mem_cons.mp present with equal | later
        · exact .inl (equal ▸ List.mem_cons_self)
        · rcases inductionHypothesis later with kept | ⟨before, named, origin, word_eq⟩
          · exact .inl (List.mem_cons_of_mem first kept)
          · refine .inr ⟨before, named, ?_, word_eq⟩
            exact origin.imp_left (List.mem_cons_of_mem first)

/-- A change adds a name to the end, unless the name is there already. -/
theorem map_name_changeWord
    (name : String)
    (words : List Word)
    (named : ∀ word, (change word).name = word.name) :
    (changeWord name change words).map Word.name =
      if name ∈ words.map Word.name then words.map Word.name
      else words.map Word.name ++ [name] := by
  induction words with
  | nil => simp [changeWord, named]
  | cons first words inductionHypothesis =>
      simp only [changeWord]
      by_cases same : first.name = name
      · simp [same, named]
      · have other : name ≠ first.name := fun equal => same equal.symm
        simp only [same, if_false, List.map_cons, inductionHypothesis, List.mem_cons, other,
          false_or]
        split <;> simp

/-- The names after a change are those before it and the changed one. -/
theorem mem_map_name_changeWord
    {other : String}
    (named : ∀ word, (change word).name = word.name) :
    other ∈ (changeWord name change words).map Word.name ↔
      other ∈ words.map Word.name ∨ other = name := by
  rw [map_name_changeWord name words named]
  split
  · rename_i present
    constructor
    · exact .inl
    · rintro (found | rfl)
      · exact found
      · exact present
  · simp

/-! ## Words that an index keeps -/

/-- The names are unambiguous, and only the newest layer of a word can be pending. -/
structure AreSound (words : List Word) : Prop where
  names_nodup : (words.map Word.name).Nodup
  names_apart : ∀ word ∈ words, Primitive.ofName? word.name = none
  words_sound : ∀ word ∈ words, word.IsSound

theorem areSound_nil : AreSound [] where
  names_nodup := List.nodup_nil
  names_apart := by simp
  words_sound := by simp

/-- Changing a word soundly, under a name that no primitive has, keeps the words sound. -/
theorem AreSound.changeWord
    (sound : AreSound words)
    (soundChange : Word.IsSoundChange change)
    (free : Primitive.ofName? name = none) :
    AreSound (changeWord name change words) := by
  have named : ∀ word, (change word).name = word.name :=
    soundChange.name_eq
  constructor
  · rw [map_name_changeWord name words named]
    split
    · exact sound.names_nodup
    · rename_i absent
      rw [List.nodup_append]
      refine ⟨sound.names_nodup, by simp, fun left present right single => ?_⟩
      simp only [List.mem_singleton] at single
      intro equal
      exact absent (single ▸ equal ▸ present)
  · intro word present
    rcases mem_changeWord present with kept | ⟨before, rfl, -, rfl⟩
    · exact sound.names_apart word kept
    · rw [named]
      exact free
  · intro word present
    rcases mem_changeWord present with kept | ⟨before, -, origin, rfl⟩
    · exact sound.words_sound word kept
    · apply soundChange.isSound
      rcases origin with present | empty
      · exact .inr (sound.words_sound before present)
      · exact .inl empty

end Dictionary

end Concatenative

import Concatenative.Proofs.Closedness
import Mathlib.Data.List.Nodup

/-!
# What the notes tell

A session notes each definition and each reservation, so its notes tell how the layers of
its words came about: which of them were reserved and filled later, which were added by a
definition, and which were there before a definition was made.

Code is bound to layers as it is read, so the body of a definition that adds a layer refers
to layers which the notes taken before the definition tell of.
-/

namespace Concatenative

namespace Session

/-! ## Layers that notes tell of -/

namespace Note

/-- Whether a note is about the definition of a word. -/
def defines (name : String) : Note → Bool
  | defined other _ _ => other == name
  | _ => false

/-- Whether a note is about the reservation of some word. -/
def isReservation : Note → Bool
  | directive keyword _ => keyword == Directive.deferWord.keyword
  | _ => false

/-- Whether a note is about the reservation of a word. -/
def reserves (name : String) : Note → Bool
  | directive keyword argument => keyword == Directive.deferWord.keyword && argument == name
  | _ => false

theorem defines_of_isIncidental
    {note : Note}
    (incidental : note.isIncidental = true)
    (name : String) :
    note.defines name = false := by
  cases note with
  | defined => nomatch incidental
  | loading | directive | including | loadingFile => rfl

theorem isReservation_of_isIncidental
    {note : Note}
    (incidental : note.isIncidental = true) :
    note.isReservation = false := by
  cases note with
  | directive keyword argument =>
      have keyword_eq : keyword = Directive.includeFile.keyword := by
        simpa [isIncidental] using incidental
      subst keyword_eq
      rfl
  | defined | loading | including | loadingFile => rfl

theorem reserves_of_isReservation
    {note : Note}
    (reservation_eq : note.isReservation = false)
    (name : String) :
    note.reserves name = false := by
  cases note with
  | directive keyword argument =>
      rw [isReservation] at reservation_eq
      rw [reserves, reservation_eq, Bool.false_and]
  | defined | loading | including | loadingFile => rfl

end Note

/-- Whether notes, newest first, tell of a layer of a word that waits for a definition. -/
def isReservedIn (name : String) : List Note → Bool
  | [] => false
  | note :: older => note.reserves name || !note.defines name && isReservedIn name older

/--
The number of layers of a word that notes, newest first, tell of.  A definition or a
reservation adds a layer unless one is reserved.
-/
def layerCount (name : String) : List Note → Nat
  | [] => 0
  | note :: older =>
      if (note.defines name || note.reserves name) && !isReservedIn name older then
        layerCount name older + 1
      else layerCount name older

section Layers

variable {name : String} {notes older : List Note} {note : Note}

theorem layerCount_le_cons : layerCount name notes ≤ layerCount name (note :: notes) := by
  rw [layerCount]
  split <;> omega

/-- Later notes take no layers away. -/
theorem layerCount_mono (suffix : older <:+ notes) :
    layerCount name older ≤ layerCount name notes := by
  obtain ⟨newer, rfl⟩ := suffix
  induction newer with
  | nil => exact Nat.le_refl _
  | cons note newer inductionHypothesis => exact inductionHypothesis.trans layerCount_le_cons

end Layers

end Session

/-- A reference occurs in a body, at any depth. -/
def WordRef.OccursIn (reference : WordRef) (body : Body) : Prop :=
  ∃ value ∈ body, (Value.wordRef reference).Within value

/-- A reference is to a primitive, or to a layer that notes tell of. -/
def WordRef.IsToldBy (reference : WordRef) (notes : List Session.Note) : Prop :=
  (∃ primitive : Primitive, primitive.id = reference.id) ∨
    0 ≤ reference.layer ∧ reference.layer < Session.layerCount reference.name notes

namespace Word

open Session (Note isReservedIn layerCount)

/--
A layer was given its body when some notes had been taken.  Unless the word was reserved at
that time, the layer was added to those there were, and its body refers to what was there.
-/
def IsDefinedAfter (word : Word) (layer : Nat) (older : List Note) : Prop :=
  ∃ body, word.layers[layer]? = some (some body) ∧
    (isReservedIn word.name older = false →
      layer = layerCount word.name older ∧
        ∀ reference : WordRef, reference.OccursIn body → reference.IsToldBy older)

/-- Notes, newest first, tell how the layers of a word came about. -/
structure IsToldBy (word : Word) (notes : List Note) : Prop where
  length_eq : word.layers.length = layerCount word.name notes
  isPending_eq : word.isPending = isReservedIn word.name notes
  /-- A layer that has a body was defined at some time. -/
  noted : ∀ (layer : Nat) body, word.layers[layer]? = some (some body) →
    ∃ id, .defined word.name id layer ∈ notes
  defined : ∀ newer id layer older, notes = newer ++ .defined word.name id layer :: older →
    word.IsDefinedAfter layer older

variable {word : Word} {notes : List Note}

/-! ## Changes to a word -/

theorem length_define (body : Body) :
    (word.define body).layers.length =
      if word.isPending then word.layers.length else word.layers.length + 1 := by
  unfold define
  split
  · rename_i pending
    conv => rhs; rw [layers_of_isPending pending]
    simp
  · simp

@[simp] theorem isPending_define (body : Body) : (word.define body).isPending = false := by
  unfold define
  split <;> simp [isPending]

/-- The newest layer after a definition is the one that it gives its body. -/
theorem getElem?_current_define (body : Body) :
    (word.define body).layers[(word.define body).current]? = some (some body) := by
  unfold define
  split <;> simp [current]

/-- A definition leaves all layers in place but the newest one. -/
theorem getElem?_define
    {body other : Body}
    {layer : Nat}
    (layer_eq : (word.define body).layers[layer]? = some (some other)) :
    word.layers[layer]? = some (some other) ∨
      layer = (word.define body).current ∧ other = body := by
  obtain ⟨older, layers_eq, kept⟩ : ∃ older, (word.define body).layers = older ++ [some body] ∧
      ∀ index < older.length, older[index]? = word.layers[index]? := by
    unfold define
    split
    · refine ⟨word.layers.dropLast, rfl, fun index bound => ?_⟩
      rw [List.getElem?_dropLast, if_pos (by simpa using bound)]
    · exact ⟨word.layers, rfl, fun _ _ => rfl⟩
  rw [current, layers_eq, List.length_append, List.length_singleton, Nat.add_sub_cancel]
  rw [layers_eq] at layer_eq
  rcases Nat.lt_trichotomy layer older.length with before | rfl | beyond
  · rw [List.getElem?_append_left before, kept layer before] at layer_eq
    exact .inl layer_eq
  · exact .inr ⟨rfl, by simpa [eq_comm] using layer_eq⟩
  · have outside : (older ++ [some body]).length ≤ layer := by
      simp only [List.length_append, List.length_singleton]
      omega
    simp [List.getElem?_eq_none outside] at layer_eq

theorem length_reserve :
    word.reserve.layers.length =
      if word.isPending then word.layers.length else word.layers.length + 1 := by
  unfold reserve
  split <;> simp

@[simp] theorem isPending_reserve : word.reserve.isPending = true := by
  unfold reserve
  split
  · assumption
  · simp [isPending]

theorem getElem?_reserve
    {body : Body}
    {layer : Nat}
    (layer_eq : word.reserve.layers[layer]? = some (some body)) :
    word.layers[layer]? = some (some body) := by
  unfold reserve at layer_eq
  split at layer_eq
  · exact layer_eq
  · rcases Nat.lt_or_ge layer word.layers.length with before | newest
    · rwa [List.getElem?_append_left before] at layer_eq
    · rw [List.getElem?_append_right newest] at layer_eq
      simp [List.getElem?_singleton] at layer_eq

/-! ## Notes of changes -/

/-- What a layer was given stays as the word is extended. -/
theorem IsDefinedAfter.extend
    {layer : Nat}
    {older : List Note}
    (defined : word.IsDefinedAfter layer older)
    {later : Word}
    (extended : word.Extends later) :
    later.IsDefinedAfter layer older := by
  obtain ⟨body, layer_eq, referred⟩ := defined
  refine ⟨body, extended.kept layer body layer_eq, ?_⟩
  rwa [extended.name_eq]

namespace IsToldBy

theorem empty (name : String) : IsToldBy ⟨name, []⟩ [] where
  length_eq := rfl
  isPending_eq := rfl
  noted _ _ layer_eq := by simp at layer_eq
  defined newer _ _ _ notes_eq := by simp at notes_eq

/-- A definition is the newest thing noted, or it was noted before. -/
theorem defined_of_cons
    (told : word.IsToldBy notes)
    {note : Note}
    {newer older : List Note}
    {id : Int}
    {layer : Nat}
    (notes_eq : note :: notes = newer ++ .defined word.name id layer :: older) :
    note = .defined word.name id layer ∧ notes = older ∨ word.IsDefinedAfter layer older := by
  cases newer with
  | nil => exact .inl (List.cons.inj notes_eq)
  | cons newest newer => exact .inr (told.defined newer id layer older (List.cons.inj notes_eq).2)

/-- A note about something else tells nothing new. -/
theorem skip
    (told : word.IsToldBy notes)
    {note : Note}
    (undefined : note.defines word.name = false)
    (unreserved : note.reserves word.name = false) :
    word.IsToldBy (note :: notes) where
  length_eq := by
    rw [layerCount, undefined, unreserved]
    exact told.length_eq
  isPending_eq := by
    rw [isReservedIn, undefined, unreserved]
    exact told.isPending_eq
  noted layer body layer_eq := by
    obtain ⟨id, present⟩ := told.noted layer body layer_eq
    exact ⟨id, List.mem_cons_of_mem note present⟩
  defined newer id layer older notes_eq := by
    rcases told.defined_of_cons notes_eq with ⟨rfl, -⟩ | before
    · simp [Note.defines] at undefined
    · exact before

/-- The note of a definition tells of the layer that the definition adds or fills. -/
theorem define
    (told : word.IsToldBy notes)
    {body : Body}
    (referred : ∀ reference : WordRef, reference.OccursIn body → reference.IsToldBy notes)
    (id : Int) :
    (word.define body).IsToldBy
      (.defined word.name id (word.define body).current :: notes) := by
  have extended : word.Extends (word.define body) :=
    (isSoundChange_define body).extends_change word
  have defines : (Note.defined word.name id (word.define body).current).defines word.name = true :=
    beq_self_eq_true word.name
  refine ⟨?_, ?_, fun layer other layer_eq => ?_, fun newer oldId layer older notes_eq => ?_⟩
  · rw [extended.name_eq, length_define, layerCount, defines, ← told.isPending_eq,
      ← told.length_eq]
    cases word.isPending <;> rfl
  · rw [extended.name_eq, isPending_define, isReservedIn, defines]
    rfl
  · rw [extended.name_eq]
    rcases getElem?_define layer_eq with old | ⟨rfl, -⟩
    · obtain ⟨oldId, present⟩ := told.noted layer other old
      exact ⟨oldId, List.mem_cons_of_mem _ present⟩
    · exact ⟨id, List.mem_cons_self⟩
  · rw [extended.name_eq] at notes_eq
    rcases told.defined_of_cons notes_eq with ⟨note_eq, rfl⟩ | before
    · obtain ⟨-, -, rfl⟩ := Note.defined.inj note_eq
      refine ⟨body, getElem?_current_define body, ?_⟩
      rw [extended.name_eq, ← told.isPending_eq, ← told.length_eq]
      intro settled
      refine ⟨?_, referred⟩
      rw [current, length_define, settled]
      rfl
    · exact before.extend extended

/-- The note of a reservation tells of the layer that it adds, unless one was reserved. -/
theorem reserve (told : word.IsToldBy notes) :
    word.reserve.IsToldBy (.directive Directive.deferWord.keyword word.name :: notes) := by
  have extended : word.Extends word.reserve := isSoundChange_reserve.extends_change word
  have reserves : (Note.directive Directive.deferWord.keyword word.name).reserves word.name =
      true := by
    simp [Note.reserves]
  refine ⟨?_, ?_, fun layer body layer_eq => ?_, fun newer id layer older notes_eq => ?_⟩
  · rw [extended.name_eq, length_reserve, layerCount, reserves, ← told.isPending_eq,
      ← told.length_eq]
    cases word.isPending <;> rfl
  · rw [extended.name_eq, isPending_reserve, isReservedIn, reserves]
    rfl
  · rw [extended.name_eq]
    obtain ⟨id, present⟩ := told.noted layer body (getElem?_reserve layer_eq)
    exact ⟨id, List.mem_cons_of_mem _ present⟩
  · rw [extended.name_eq] at notes_eq
    rcases told.defined_of_cons notes_eq with ⟨note_eq, -⟩ | before
    · nomatch note_eq
    · exact before.extend extended

end IsToldBy

end Word

namespace Dictionary

/-! ## Words by their names -/

/-- The compiled word with a name, without layers if there is none. -/
def wordNamed (dictionary : Dictionary) (name : String) : Word :=
  (dictionary.words.find? fun word => word.name == name).getD ⟨name, []⟩

variable {dictionary later : Dictionary} {name : String}

@[simp] theorem name_wordNamed : (dictionary.wordNamed name).name = name := by
  unfold wordNamed
  cases found_eq : dictionary.words.find? fun word => word.name == name with
  | none => rfl
  | some word => simpa using List.find?_some found_eq

/-- A word is found by its name. -/
theorem wordNamed_eq
    {word : Word}
    (present : word ∈ dictionary.words) :
    dictionary.wordNamed word.name = word := by
  unfold wordNamed
  cases found_eq : dictionary.words.find? fun other => other.name == word.name with
  | none => simpa using List.find?_eq_none.mp found_eq word present
  | some other =>
      have name_eq : other.name = word.name := by simpa using List.find?_some found_eq
      exact List.inj_on_of_nodup_map dictionary.areSound.names_nodup
        (List.mem_of_find?_eq_some found_eq) present name_eq

theorem SameNames.wordNamed_eq (same : SameNames dictionary later) :
    later.wordNamed name = dictionary.wordNamed name := by
  simp only [wordNamed, same.words_eq]

/-- A word is changed under its name, and the others are found as before. -/
theorem find?_changeWord
    {change : Word → Word}
    (named : ∀ word, (change word).name = word.name)
    (other : String)
    (words : List Word) :
    (changeWord name change words).find? (fun word => word.name == other) =
      if other = name then
        some (change ((words.find? fun word => word.name == name).getD ⟨name, []⟩))
      else words.find? fun word => word.name == other := by
  induction words with
  | nil =>
      by_cases same : other = name
      · simp [changeWord, named, same]
      · have apart : (name == other) = false := beq_eq_false_iff_ne.mpr (Ne.symm same)
        simp [changeWord, named, same, apart]
  | cons word words inductionHypothesis =>
      rw [changeWord]
      split
      · rename_i word_eq
        by_cases same : other = name
        · simp [named, same, word_eq]
        · have apart : (name == other) = false := beq_eq_false_iff_ne.mpr (Ne.symm same)
          simp [named, same, word_eq, apart]
      · rename_i differs
        by_cases found : word.name = other
        · have apart : other ≠ name := found ▸ differs
          simp [found, apart]
        · simp [found, differs, inductionHypothesis]

/-- A revision is one of the word with the name, and the others are as before. -/
theorem wordNamed_of_revise
    {revision : Revision}
    (revise_eq : dictionary.revise name revision = .ok later)
    (other : String) :
    later.wordNamed other =
      if other = name then revision.apply (dictionary.wordNamed name)
      else dictionary.wordNamed other := by
  simp only [wordNamed, (revise_eq_ok_iff.mp revise_eq).words_eq,
    find?_changeWord revision.name_apply]
  split <;> rfl

/-! ## Notes of changes to a dictionary -/

/--
Notes tell of the words with all names that a word may have, also of those that are not there
yet.
-/
def IsToldBy (dictionary : Dictionary) (notes : List Session.Note) : Prop :=
  ∀ name, Reader.isLiteral name = false → Primitive.ofName? name = none →
    (dictionary.wordNamed name).IsToldBy notes

namespace IsToldBy

variable {notes : List Session.Note} {note : Session.Note}

/-- A note about no word tells nothing new. -/
theorem skip
    (told : dictionary.IsToldBy notes)
    (silent : ∀ other, Reader.isLiteral other = false → Primitive.ofName? other = none →
      note.defines other = false ∧ note.reserves other = false) :
    dictionary.IsToldBy (note :: notes) := by
  intro other unread compiled
  obtain ⟨undefined, unreserved⟩ := silent other unread compiled
  apply (told other unread compiled).skip
  · rwa [name_wordNamed]
  · rwa [name_wordNamed]

/-- A note about one word tells what is done to that word. -/
theorem revise
    (told : dictionary.IsToldBy notes)
    {revision : Revision}
    (revise_eq : dictionary.revise name revision = .ok later)
    (changed : (dictionary.wordNamed name).IsToldBy notes →
      (revision.apply (dictionary.wordNamed name)).IsToldBy (note :: notes))
    (silent : ∀ other, other ≠ name → note.defines other = false ∧ note.reserves other = false) :
    later.IsToldBy (note :: notes) := by
  intro other unread compiled
  have toldOther := told other unread compiled
  rw [wordNamed_of_revise revise_eq]
  split
  · rename_i same
    exact changed (same ▸ toldOther)
  · rename_i differs
    obtain ⟨undefined, unreserved⟩ := silent other differs
    apply toldOther.skip
    · rwa [name_wordNamed]
    · rwa [name_wordNamed]

/-- The note of a definition tells what the definition does. -/
theorem define
    (told : dictionary.IsToldBy notes)
    {body : Body}
    (define_eq : dictionary.define name body = .ok later)
    (referred : ∀ reference : WordRef, reference.OccursIn body → reference.IsToldBy notes)
    (id : Int) :
    later.IsToldBy (.defined name id (later.wordNamed name).current :: notes) := by
  have changed_eq := wordNamed_of_revise define_eq name
  rw [if_pos rfl] at changed_eq
  refine told.revise define_eq (fun toldWord => ?_) fun other differs => ⟨?_, rfl⟩
  · have defined := toldWord.define referred id
    rw [name_wordNamed] at defined
    rwa [changed_eq]
  · exact beq_eq_false_iff_ne.mpr (Ne.symm differs)

/-- The note of a reservation tells what the reservation does. -/
theorem defer
    (told : dictionary.IsToldBy notes)
    (defer_eq : dictionary.defer name = .ok later) :
    later.IsToldBy (.directive Directive.deferWord.keyword name :: notes) := by
  refine told.revise defer_eq (fun toldWord => ?_) fun other differs => ⟨rfl, ?_⟩
  · have reserved := toldWord.reserve
    rwa [name_wordNamed] at reserved
  · simpa [Session.Note.reserves] using Ne.symm differs

/-- A reservation that is refused is one of a name that no word may have. -/
theorem refuse
    (told : dictionary.IsToldBy notes)
    (refused : Reader.isLiteral name = true ∨ (Primitive.ofName? name).isSome) :
    dictionary.IsToldBy (.directive Directive.deferWord.keyword name :: notes) := by
  apply told.skip
  intro other unread compiled
  have differs : name ≠ other := by
    rintro rfl
    rcases refused with literal | primitive
    · simp [unread] at literal
    · simp [compiled] at primitive
  exact ⟨rfl, by simpa [Session.Note.reserves] using differs⟩

/-- Where names are in order, notes tell of every word. -/
theorem of_mem
    (told : dictionary.IsToldBy notes)
    (plain : Reader.HasPlainNames dictionary)
    {word : Word}
    (present : word ∈ dictionary.words) :
    word.IsToldBy notes := by
  have known : dictionary.contains word.name = true :=
    contains_iff.mpr (.inr (List.mem_map_of_mem present))
  have free := dictionary.areSound.names_apart word present
  have toldWord := told word.name (plain _ (.inl known)) free
  rwa [wordNamed_eq present] at toldWord

/-- Where names are in order, notes tell of every layer that a known reference leads to. -/
theorem of_knows
    (told : dictionary.IsToldBy notes)
    (plain : Reader.HasPlainNames dictionary)
    {reference : WordRef}
    (known : dictionary.Knows reference) :
    reference.IsToldBy notes := by
  obtain ⟨entry, entry_eq, name_eq, layer_eq⟩ := known.exists_entry
  cases entry with
  | primitive primitive => exact .inl ⟨primitive, entry?_eq_primitive_iff.mp entry_eq⟩
  | compiled number word =>
      obtain ⟨index, -, -, word_eq⟩ := entry?_eq_compiled_iff.mp entry_eq
      have toldWord := told.of_mem plain (List.mem_of_getElem? word_eq)
      simp only [Entry.isPrimitive, Bool.false_eq_true, false_or, Entry.layers,
        toldWord.length_eq] at layer_eq
      rw [Entry.name] at name_eq
      rw [name_eq] at layer_eq
      exact .inr layer_eq

end IsToldBy

end Dictionary

namespace Session

/-! ## Sessions and their notes -/

/-- The notes of a session tell how the layers of its words came about. -/
structure IsChronicled (session : Session) : Prop where
  plain : Reader.HasPlainNames session.dictionary
  told : session.dictionary.IsToldBy session.notes

variable {session : Session}

/-- A definition fails, or it changes the word and is noted with the layer that it gives a body. -/
theorem define_cases
    (session : Session)
    (name : String)
    (body : Body) :
    (∃ cause, session.define name body = .failed session cause) ∨
      ∃ later id, session.dictionary.define name body = .ok later ∧
        session.define name body =
          .done ((session.withDictionary later).note
            (.defined name id (later.wordNamed name).current)) () := by
  cases define_eq : session.dictionary.define name body with
  | error cause =>
      left
      refine ⟨cause, ?_⟩
      simp only [Session.define, changeDictionary, define_eq, Outcome.andThen_failed]
  | ok later =>
      right
      have named : name ∈ later.words.map Word.name := by
        rw [(Dictionary.revise_eq_ok_iff.mp define_eq).words_eq,
          Dictionary.mem_map_name_changeWord (Revision.define body).name_apply]
        exact .inr rfl
      obtain ⟨word, present, rfl⟩ := List.mem_map.mp named
      obtain ⟨index, word_eq⟩ := List.getElem?_of_mem present
      have lookup_eq : (session.withDictionary later).dictionary.lookup word.name =
          some (.compiled (index + 1) word) :=
        Dictionary.lookup_of_getElem? word_eq
      refine ⟨later, index + 1, rfl, ?_⟩
      rw [Dictionary.wordNamed_eq present]
      simp only [Session.define, changeDictionary, define_eq, Outcome.andThen_done, lookup_eq]
      rfl

namespace IsChronicled

/-- A definition is noted, and its body refers to what was noted before. -/
theorem isToldBy_define
    (chronicled : session.IsChronicled)
    {name : String}
    {tokens rest : List Token}
    {body : Body}
    (read_eq : Reader.readDefinition session.dictionary name tokens = .ok (body, rest)) :
    (session.define name body).state.dictionary.IsToldBy
      (session.define name body).state.notes := by
  rcases define_cases session name body with
    ⟨cause, failed_eq⟩ | ⟨later, id, define_eq, done_eq⟩
  · rw [failed_eq]
    exact chronicled.told
  · rw [done_eq]
    refine chronicled.told.define define_eq ?_ id
    rintro reference ⟨value, present, within⟩
    have yields := Reader.yields_isCode session.dictionary
    have coded := yields.readDefinition (fun _ _ => trivial) read_eq value present
    exact chronicled.told.of_knows chronicled.plain (coded _ within)

/-- A reservation is noted, whether it is carried out or refused. -/
theorem isToldBy_defer
    (chronicled : session.IsChronicled)
    (inclusion : Inclusion)
    (name : String) :
    let deferred := (session.note (.directive Directive.deferWord.keyword name)).applyDirective
      inclusion .deferWord name
    deferred.state.dictionary.IsToldBy deferred.state.notes := by
  simp only [applyDirective]
  split
  · rename_i stop check_eq
    apply chronicled.told.refuse
    left
    by_contra unread
    simp [Reader.checkName, unread] at check_eq
  · simp only [changeDictionary]
    split
    · rename_i cause defer_eq
      apply chronicled.told.refuse
      right
      by_contra compiled
      have absent : Primitive.ofName? name = none := by simpa using compiled
      obtain ⟨later, revise_eq⟩ := session.dictionary.exists_revise_eq absent .reserve
      cases revise_eq.symm.trans defer_eq
    · rename_i later defer_eq
      exact chronicled.told.defer defer_eq

/-- The declaration of a variable and its note are about no word. -/
theorem isToldBy_declareVariable
    (chronicled : session.IsChronicled)
    (inclusion : Inclusion)
    (name : String) :
    let declared := (session.note
      (.directive Directive.declareVariable.keyword name)).applyDirective inclusion
        .declareVariable name
    declared.state.dictionary.IsToldBy declared.state.notes := by
  have noted : session.dictionary.IsToldBy
      (.directive Directive.declareVariable.keyword name :: session.notes) :=
    chronicled.told.skip fun _ _ _ => ⟨rfl, rfl⟩
  simp only [applyDirective]
  split
  · exact noted
  · simp only [changeDictionary]
    split
    · exact noted
    · rename_i later declare_eq
      obtain ⟨-, rfl⟩ := Dictionary.declareVariable_eq_ok declare_eq
      exact noted

end IsChronicled

/-- Loading notes all that it does to the words. -/
theorem isMaintained_isChronicled : IsMaintained IsChronicled fun _ _ => True := by
  have named := isKept_hasPlainNames.isMaintained
  exact
    { surrounded := fun _ _ _ chronicled => ⟨chronicled.plain, chronicled.told⟩
      accounted := fun _ _ _ _ _ => trivial
      noted := fun _ note chronicled incidental => by
        refine ⟨chronicled.plain, chronicled.told.skip ?_⟩
        intro other _ _
        exact ⟨Note.defines_of_isIncidental incidental other,
          Note.reserves_of_isReservation (Note.isReservation_of_isIncidental incidental) other⟩
      printed := fun _ _ chronicled => ⟨chronicled.plain, chronicled.told⟩
      defined := fun session name tokens body rest chronicled written read_eq => by
        refine ⟨⟨?_, chronicled.isToldBy_define read_eq⟩, fun _ _ => trivial⟩
        exact (named.defined session _ _ _ _ chronicled.plain written read_eq).1
      directed := fun session inclusion directive name chronicled written otherwise => by
        refine ⟨⟨?_, ?_⟩, fun _ _ => trivial⟩
        · exact (named.directed session _ _ _ chronicled.plain written otherwise).1
        · cases directive with
          | includeFile => exact absurd rfl otherwise
          | declareVariable => exact chronicled.isToldBy_declareVariable inclusion name
          | deferWord => exact chronicled.isToldBy_defer inclusion name
      dispatched := fun session _ _ value _ fuel chronicled written read_eq => by
        refine ⟨⟨?_, ?_⟩, fun _ _ => trivial⟩
        · exact (named.dispatched session _ _ _ _ fuel chronicled.plain written read_eq).1
        · intro other unread compiled
          have same : session.dictionary.SameNames
              (session.onMachine fun machine => machine.dispatch fuel value).state.dictionary :=
            session.machine.sameNames_run fuel [value]
          rw [same.wordNamed_eq]
          exact chronicled.told other unread compiled
      static := fun _ _ _ _ => trivial }

theorem isChronicled_initial (limit : DepthLimit) : (initial limit).IsChronicled where
  plain := hasPlainNames_initial
  told name _ _ := .empty name

theorem isChronicled_of_isReached (reached : session.IsReached) : session.IsChronicled :=
  isMaintained_isChronicled.of_isReached isChronicled_initial reached

end Session

end Concatenative

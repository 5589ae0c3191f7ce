import Concatenative.Proofs.Alike
import Concatenative.Proofs.Closedness

/-!
# Early binding

Code that is read is bound to the layers that are there.  Definitions and reservations add
layers and words, so they do not touch code that was there before: it runs as it would have
run without them.  Only a listing of the words can tell the difference, by what it prints,
and by where it stops if a new body holds a numeral over the limit.
-/

namespace Concatenative

/-! ## Definitions that add layers -/

namespace Word

variable {word later : Word}

/-- A definition of a word that was not pending leaves its layers in place. -/
theorem prefix_define
    (prolonged : word.layers <+: later.layers)
    (settled : word.isPending = false)
    (body : Body) :
    word.layers <+: (later.define body).layers := by
  unfold define
  split
  · rename_i pending
    rw [layers_of_isPending pending, List.prefix_concat_iff] at prolonged
    rcases prolonged with same | shorter
    · -- The pending layer would be one of the earlier word.
      simp [isPending, same] at settled
    · exact shorter.trans (List.prefix_append _ _)
  · exact prolonged.trans (List.prefix_append _ _)

theorem prefix_reserve (prolonged : word.layers <+: later.layers) :
    word.layers <+: later.reserve.layers := by
  unfold reserve
  split
  · exact prolonged
  · exact prolonged.trans (List.prefix_append _ _)

/-- A revision of a word that was not pending leaves its layers in place. -/
theorem prefix_apply
    (prolonged : word.layers <+: later.layers)
    (settled : word.isPending = false)
    (revision : Revision) :
    word.layers <+: (revision.apply later).layers := by
  cases revision with
  | define body => exact prefix_define prolonged settled body
  | reserve => exact prefix_reserve prolonged

end Word

/-- A variable that is not declared is not forgotten. -/
theorem Store.erase_of_not_contains
    {store : Store}
    {name : String}
    (undeclared : store.contains name = false) :
    store.erase name = store := by
  unfold erase
  congr 1
  refine List.filter_eq_self.mpr fun binding present => ?_
  rw [bne_iff_ne]
  rintro rfl
  rw [← Bool.not_eq_true, contains_iff] at undeclared
  exact undeclared (List.mem_map_of_mem present)

namespace Dictionary

variable {dictionary later : Dictionary}

theorem Prolongs.refl (dictionary : Dictionary) : dictionary.Prolongs dictionary :=
  fun _ word word_eq => ⟨word, word_eq, rfl, List.prefix_refl word.layers⟩

/--
A word is defined or reserved, under a name that is no variable and no pending word.
-/
structure Change.IsLayering (dictionary : Dictionary) (change : Change) : Prop where
  isWord : ∀ name, change ≠ .declareVariable name
  undeclared : dictionary.store.contains change.name = false
  settled : change.name ∉ dictionary.deferred

/-- A word whose newest layer is pending is deferred. -/
theorem mem_deferred
    {word : Word}
    (present : word ∈ dictionary.words)
    (pending : word.isPending = true) :
    word.name ∈ dictionary.deferred := by
  obtain ⟨index, word_eq⟩ := List.getElem?_of_mem present
  have entry_eq : dictionary.entry? (index + 1) = some (.compiled (index + 1) word) :=
    entry?_eq_compiled_iff.mpr ⟨index, rfl, rfl, word_eq⟩
  have listed : .compiled (index + 1) word ∈ dictionary.entries :=
    (entry?_eq_some_iff.mp entry_eq).1
  exact List.mem_map.mpr ⟨_, List.mem_filter.mpr ⟨listed, pending⟩, rfl⟩

/-- Revising a word prolongs those that are not pending. -/
theorem Prolongs.revise
    (prolongs : dictionary.Prolongs later)
    {name : String}
    {revision : Revision}
    (settled : name ∉ dictionary.deferred)
    {last : Dictionary}
    (revise_eq : later.revise name revision = .ok last) :
    dictionary.Prolongs last := by
  intro index word word_eq
  obtain ⟨laterWord, later_eq, name_eq, prolonged⟩ := prolongs index word word_eq
  rw [(revise_eq_ok_iff.mp revise_eq).words_eq]
  rcases getElem?_changeWord later_eq with kept | ⟨changed, changed_eq⟩
  · exact ⟨laterWord, kept, name_eq, prolonged⟩
  · refine ⟨revision.apply laterWord, changed_eq,
      (revision.name_apply laterWord).trans name_eq, ?_⟩
    refine Word.prefix_apply prolonged ?_ revision
    rw [← Bool.not_eq_true]
    intro pending
    apply settled
    rw [← changed, name_eq]
    exact mem_deferred (List.mem_of_getElem? word_eq) pending

/-- Definitions that add layers prolong the words and leave the variables as they are. -/
theorem Prolongs.apply
    (prolongs : dictionary.Prolongs later)
    (store_eq : later.store = dictionary.store)
    {change : Change}
    (layering : change.IsLayering dictionary)
    {last : Dictionary}
    (apply_eq : change.apply later = .ok last) :
    dictionary.Prolongs last ∧ last.store = dictionary.store := by
  have erased : later.store.erase change.name = dictionary.store := by
    rw [store_eq]
    exact Store.erase_of_not_contains layering.undeclared
  cases change with
  | define name body =>
      exact ⟨prolongs.revise layering.settled apply_eq,
        (revise_eq_ok_iff.mp apply_eq).store_eq.trans erased⟩
  | defer name =>
      exact ⟨prolongs.revise layering.settled apply_eq,
        (revise_eq_ok_iff.mp apply_eq).store_eq.trans erased⟩
  | declareVariable name => exact absurd rfl (layering.isWord name)

theorem IsCode.isBound {value : Value} (coded : dictionary.IsCode value) :
    dictionary.IsBound value := by
  intro reference within
  obtain ⟨entry, entry_eq, -, layer_eq⟩ := Knows.exists_entry (coded _ within)
  exact ⟨entry, entry_eq, layer_eq⟩

theorem IsDatum.isBound {value : Value} (datum : dictionary.IsDatum value) :
    dictionary.IsBound value := by
  intro reference within
  rcases datum.within within with rfl | coded
  · exact datum.elim
  · exact coded.isBound reference .self

/-- No integer in code is over the limit on numerals. -/
theorem IsCode.isShort {value : Value} (coded : dictionary.IsCode value) : value.IsShort :=
  fun _ within => coded _ within

end Dictionary

/-- A run of the listing of the words ends if all of them can be listed. -/
theorem Machine.result_run_printWords_iff
    {machine : Machine}
    {reference : WordRef}
    (entry_eq : machine.dictionary.entry? reference.id = some (.primitive .printWords))
    (below : machine.calls.depth < machine.limit.value)
    {fuel : Nat} :
    (machine.run (fuel + 1) [.wordRef reference]).result = .ok () ↔
      machine.dictionary.IsListable := by
  have reacts : machine.toWorkspace.react (.wordRef reference) =
      Primitive.listWords machine.toWorkspace :=
    Workspace.react_of_primitive entry_eq
  rw [run_singleton below, ← Primitive.result_listWords_eq_ok_iff]
  rcases (Primitive.listWords machine.toWorkspace).done_or_stopped with
    ⟨workspace, body, list_eq⟩ | ⟨workspace, stop, list_eq⟩
  · have uncalled : Primitive.printWords.called? machine.stack = none := rfl
    have body_eq : body = [] := Primitive.effect_of_not_called uncalled list_eq
    have finished : (machine.withWorkspace workspace).calls.depth ≤ machine.calls.depth :=
      Nat.le_refl _
    rw [execute_of_done (reacts.trans list_eq), list_eq, body_eq, enter_nil, Outcome.andThen_done,
      runAbove_of_depth_le finished, Outcome.mapState_done]
    simp [Outcome.done]
  · rw [execute_of_stopped (reacts.trans list_eq), list_eq, Outcome.andThen_stopped,
      Outcome.mapState_stopped]
    simp [Outcome.stopped]

namespace Session

/-- The words of a closed machine can be listed. -/
theorem isListable_of_isClosed {machine : Machine} (closed : machine.IsClosed) :
    machine.dictionary.IsListable :=
  Dictionary.isListable_of_isShort fun word inWords body layer value present =>
    (closed.carries.workspace.bodies word inWords body layer value present).isShort

/-- Definitions that add layers change nothing but the words. -/
theorem withDictionary_after_layering
    {session : Session}
    {changes : List Dictionary.Change}
    (layering : ∀ change ∈ changes, change.IsLayering session.dictionary) :
    ∃ later, (session.after (changes.map .change)).machine = session.machine.withDictionary later ∧
      session.dictionary.Prolongs later ∧ later.store = session.dictionary.store := by
  let holds (current : Session) : Prop :=
    ∃ later, current.machine = session.machine.withDictionary later ∧
      session.dictionary.Prolongs later ∧ later.store = session.dictionary.store
  have held : holds session := ⟨session.dictionary, rfl, .refl _, rfl⟩
  refine @holds_after holds _ _ held fun operation present current currentHeld => ?_
  obtain ⟨change, inChanges, rfl⟩ := List.mem_map.mp present
  obtain ⟨later, machine_eq, prolongs, store_eq⟩ := currentHeld
  have dictionary_eq : current.dictionary = later := by
    rw [Session.dictionary, machine_eq]
    rfl
  simp only [perform, changeDictionary, dictionary_eq]
  split
  · exact ⟨later, machine_eq, prolongs, store_eq⟩
  · rename_i last apply_eq
    obtain ⟨prolonged, kept⟩ := prolongs.apply store_eq (layering change inChanges) apply_eq
    refine ⟨last, ?_, prolonged, kept⟩
    simp only [Outcome.done, withDictionary, machine_eq]
    rfl

/--
Definitions and reservations that add layers do not touch code whose references lead to
layers that were there.  It runs to the same end, for the same reason if it stops, with the
same stack and the same variables, and it prints the same.  A run that lists the words
prints something else, and it still runs to the same end if all words can be listed.
-/
theorem run_eq_of_layering
    {session : Session}
    (reached : session.IsReached)
    {changes : List Dictionary.Change}
    (layering : ∀ change ∈ changes, change.IsLayering session.dictionary)
    {later : Session}
    (later_eq : later = session.after (changes.map .change))
    {body : Body}
    (bound : ∀ value ∈ body, session.dictionary.IsBound value)
    (fuel : Nat) :
    (.printWords ∉ session.machine.executed fuel body ∨ later.dictionary.IsListable →
      (later.machine.run fuel body).result = (session.machine.run fuel body).result ∧
      (later.machine.run fuel body).state.stack =
        (session.machine.run fuel body).state.stack ∧
      (later.machine.run fuel body).state.dictionary.store =
        (session.machine.run fuel body).state.dictionary.store) ∧
    (.printWords ∉ session.machine.executed fuel body →
      (later.machine.run fuel body).state.output =
        (session.machine.run fuel body).state.output) := by
  have closed : session.machine.IsClosed :=
    isKept_isClosed.of_isReached Machine.isClosed_initial reached
  obtain ⟨dictionary, machine_eq, prolongs, store_eq⟩ := withDictionary_after_layering layering
  rw [← later_eq] at machine_eq
  have alike : ∀ printed : Prop, (¬printed → later.dictionary.IsListable) →
      Machine.Alike printed session.machine later.machine := by
    intro printed listable
    rw [Session.dictionary, machine_eq] at listable
    rw [machine_eq]
    exact
      { workspace := ⟨rfl, store_eq, fun _ => rfl⟩
        prolongs
        bound := closed.carries.imp (fun _ => Dictionary.IsDatum.isBound)
          fun _ => Dictionary.IsCode.isBound
        calls_eq := rfl
        limit_eq := rfl
        listable := fun unobserved => ⟨isListable_of_isClosed closed, listable unobserved⟩ }
  have silent : .printWords ∉ session.machine.executed fuel body →
      Outcome.Alike (Machine.Alike True) (session.machine.run fuel body)
        (later.machine.run fuel body) := by
    intro absent
    exact (alike True fun observed => absurd trivial observed).run bound
      fun listed => absurd listed absent
  constructor
  · rintro (absent | listable)
    · have same := silent absent
      exact ⟨same.result_eq, same.states.workspace.stack_eq, same.states.workspace.store_eq⟩
    · have same : Outcome.Alike (Machine.Alike False) (session.machine.run fuel body)
          (later.machine.run fuel body) :=
        (alike False fun _ => listable).run bound fun _ => id
      exact ⟨same.result_eq, same.states.workspace.stack_eq, same.states.workspace.store_eq⟩
  · intro absent
    exact (silent absent).states.workspace.output_eq trivial

/-- A listing of the words stops where a new body holds a numeral over the limit. -/
theorem exists_layering_that_ends_listing :
    ∃ (session : Session) (changes : List Dictionary.Change) (body : Body) (fuel : Nat),
      session.IsReached ∧
      (∀ change ∈ changes, change.IsLayering session.dictionary) ∧
      (∀ value ∈ body, session.dictionary.IsBound value) ∧
      (session.machine.run fuel body).result = .ok () ∧
      ((session.after (changes.map .change)).machine.run fuel body).result ≠ .ok () := by
  let environment : Environment := ⟨.empty [], 9⟩
  let session := start environment false .standard
  let vast : Value := .int Numeral.magnitudeBound
  let changes : List Dictionary.Change := [.define "vast" [vast]]
  let words : WordRef := ⟨Primitive.printWords.id, "words", 0⟩
  have reached : session.IsReached := ⟨environment, false, .standard, [], by simp, rfl⟩
  have closed := isKept_isClosed.of_isReached Machine.isClosed_initial reached
  have known : ∀ dictionary : Dictionary,
      dictionary.entry? words.id = some (.primitive .printWords) :=
    fun _ => Dictionary.entry?_eq_primitive_iff.mpr rfl
  refine ⟨session, changes, [.wordRef words], 1, reached, ?_, ?_, ?_, ?_⟩
  · intro change present
    rw [List.mem_singleton.mp present]
    exact ⟨nofun, rfl, by decide⟩
  · intro value present reference within
    rw [List.mem_singleton.mp present] at within
    cases within
    exact ⟨_, known _, .inl rfl⟩
  · rw [Machine.result_run_printWords_iff (known _) (by decide)]
    exact isListable_of_isClosed closed
  · rw [Ne, Machine.result_run_printWords_iff (known _) (by decide)]
    intro listable
    have listed : Entry.compiled 1 ⟨"vast", [some [vast]]⟩ ∈
        (session.after (changes.map .change)).dictionary.entries :=
      Dictionary.mem_entries_iff.mpr rfl
    exact absurd (listable _ listed) (by decide +kernel)

/-- A quotation still calls the first layer of a word that is defined and reserved again. -/
theorem run_eq_of_layering_redefinition :
    ∃ session later : Session,
      session.IsReached ∧
      session.dictionary.deferred = [] ∧
      later.dictionary.deferred = ["one"] ∧
      session.machine.executed 9 [.wordRef ⟨Primitive.call.id, "call", 0⟩] = [.call] ∧
      (later.machine.run 9 [.wordRef ⟨Primitive.call.id, "call", 0⟩]).state.stack =
        (session.machine.run 9 [.wordRef ⟨Primitive.call.id, "call", 0⟩]).state.stack := by
  let environment : Environment := ⟨.empty [], 9⟩
  let operations : List Operation := [.execute environment "<input>" ": one 1 ; [ one one ]"]
  let session := (start environment false .standard).after operations
  let changes : List Dictionary.Change := [.define "one" [.int 2], .defer "one"]
  have reached : session.IsReached :=
    ⟨environment, false, .standard, operations, by decide, rfl⟩
  have undeclared : session.dictionary.store.contains "one" = false := by decide +kernel
  have settled : "one" ∉ session.dictionary.deferred := by decide +kernel
  have layering : ∀ change ∈ changes, change.IsLayering session.dictionary := by
    intro change present
    simp only [changes, List.mem_cons, List.not_mem_nil, or_false] at present
    rcases present with rfl | rfl <;> exact ⟨nofun, undeclared, settled⟩
  have bound : ∀ value ∈ [Value.wordRef ⟨Primitive.call.id, "call", 0⟩],
      session.dictionary.IsBound value := by
    intro value present reference within
    rw [List.mem_singleton.mp present] at within
    cases within
    exact ⟨_, Dictionary.entry?_eq_primitive_iff.mpr rfl, .inl rfl⟩
  have executed : session.machine.executed 9 [.wordRef ⟨Primitive.call.id, "call", 0⟩] =
      [.call] := by
    decide +kernel
  have same := (run_eq_of_layering reached layering rfl bound 9).1 (.inl (by simp [executed]))
  exact ⟨session, _, reached, by decide +kernel, by decide +kernel, executed, same.2.1⟩

end Session
end Concatenative

import Concatenative.Proofs.Chronicle
import Concatenative.Proofs.Evaluation
import Mathlib.Logic.Relation

/-!
# Recursion

A layer that a definition adds refers to layers that were there before it, so words recur
only through layers that were reserved first and filled later.  In a session that reserves
nothing, the references between layers lead back in time, and a run that meets no primitive
which calls a quotation comes to an end.
-/

namespace Concatenative

/-- A layer of a word, by the numbers of both. -/
structure Place where
  id : Int
  layer : Int

/-- Where a reference leads. -/
def WordRef.place (reference : WordRef) : Place :=
  ⟨reference.id, reference.layer⟩

namespace Value

/-- Whether a value is anything but a reference to a primitive that calls a quotation. -/
def isNoCaller : Value → Bool
  | .wordRef reference => reference.id ∉ [Primitive.branch.id, Primitive.call.id]
  | _ => true

/-- A value neither is nor holds a reference to a primitive that calls a quotation. -/
def IsQuiet (value : Value) : Prop :=
  ∀ part : Value, part.Within value → part.isNoCaller = true

instance : DecidablePred IsQuiet :=
  decideWithin fun part => part.isNoCaller = true

end Value

namespace Dictionary

/-! ## References between layers -/

/-- The body of the layer at a place, if there is one. -/
def bodyAt? (dictionary : Dictionary) (place : Place) : Option Body :=
  (dictionary.entry? place.id).bind fun entry => entry.body? place.layer

/-- The body at one place refers, at any depth, to another place. -/
def RefersTo (dictionary : Dictionary) (source target : Place) : Prop :=
  ∃ body, dictionary.bodyAt? source = some body ∧
    ∃ reference : WordRef, reference.OccursIn body ∧ reference.place = target

/-- A body mentions a reference, in itself or in a body that it mentions a reference to. -/
inductive Mentions (dictionary : Dictionary) (body : Body) : WordRef → Prop
  | here {reference : WordRef} :
      reference.OccursIn body →
      Mentions dictionary body reference
  | through {reference target : WordRef} {inner : Body} :
      Mentions dictionary body reference →
      dictionary.bodyAt? reference.place = some inner →
      target.OccursIn inner →
      Mentions dictionary body target

/-- A body mentions no primitive that calls a quotation. -/
def CallsNoQuotation (dictionary : Dictionary) (body : Body) : Prop :=
  ∀ reference, dictionary.Mentions body reference →
    reference.id ≠ Primitive.branch.id ∧ reference.id ≠ Primitive.call.id

variable {dictionary : Dictionary} {place : Place} {body inner : Body} {reference : WordRef}

/-- The body at a place is that of a layer of a compiled word. -/
theorem exists_layer_of_bodyAt? (body_eq : dictionary.bodyAt? place = some body) :
    ∃ number word, ∃ layer : Nat, dictionary.entry? place.id = some (.compiled number word) ∧
      word ∈ dictionary.words ∧ place.layer = layer ∧
        word.layers[layer]? = some (some body) := by
  obtain ⟨entry, entry_eq, found_eq⟩ := Option.bind_eq_some_iff.mp body_eq
  cases entry with
  | primitive primitive => nomatch found_eq
  | compiled number word =>
      obtain ⟨index, -, -, word_eq⟩ := entry?_eq_compiled_iff.mp entry_eq
      obtain ⟨layer, place_eq, layer_eq⟩ := Word.body?_eq_some_iff.mp found_eq
      exact ⟨number, word, layer, entry_eq, List.mem_of_getElem? word_eq, place_eq, layer_eq⟩

theorem Mentions.of_inner
    (occurs : reference.OccursIn body)
    (inner_eq : dictionary.bodyAt? reference.place = some inner)
    {target : WordRef}
    (mentions : dictionary.Mentions inner target) :
    dictionary.Mentions body target := by
  induction mentions with
  | here deeper => exact .through (.here occurs) inner_eq deeper
  | through _ deeper_eq deepest inductionHypothesis =>
      exact .through inductionHypothesis deeper_eq deepest

theorem CallsNoQuotation.of_occursIn
    (callsNone : dictionary.CallsNoQuotation body)
    (occurs : reference.OccursIn body)
    (inner_eq : dictionary.bodyAt? reference.place = some inner) :
    dictionary.CallsNoQuotation inner :=
  fun target mentions => callsNone target (mentions.of_inner occurs inner_eq)

/-- Code calls no quotation where no value is, or holds, a reference to what does. -/
theorem callsNoQuotation_of_isQuiet
    (own : ∀ value ∈ body, value.IsQuiet)
    (others : ∀ word ∈ dictionary.words, ∀ layer ∈ word.layers, ∀ value ∈ layer.getD [],
      value.IsQuiet) :
    dictionary.CallsNoQuotation body := by
  intro reference mentions
  have quiet : ∀ {code : Body}, (∀ value ∈ code, value.IsQuiet) → reference.OccursIn code →
      reference.id ≠ Primitive.branch.id ∧ reference.id ≠ Primitive.call.id := by
    rintro code each ⟨value, present, within⟩
    simpa [Value.isNoCaller] using each value present _ within
  cases mentions with
  | here occurs => exact quiet own occurs
  | through _ inner_eq occurs =>
      obtain ⟨number, word, layer, -, inWords, -, layer_eq⟩ := exists_layer_of_bodyAt? inner_eq
      exact quiet (others word inWords _ (List.mem_of_getElem? layer_eq)) occurs

/-! ## Tasks that end -/

/-- A task comes to an end wherever it is executed with the words of a dictionary. -/
def Ends (dictionary : Dictionary) (task : Task) : Prop :=
  ∀ limit present workspace, dictionary.SameNames workspace.dictionary →
    ∃ outcome, Workspace.Evaluates limit present workspace task outcome ∧
      dictionary.SameNames outcome.state.dictionary

/-- Values that end one by one end one after the other. -/
theorem ends_values
    {first : Value}
    {later : List Value}
    (each : ∀ value ∈ first :: later, dictionary.Ends (.value value)) :
    dictionary.Ends (.values first later) := by
  induction later generalizing first with
  | nil =>
      intro limit present workspace same
      obtain ⟨outcome, evaluates, stillSame⟩ :=
        each first List.mem_cons_self limit present workspace same
      exact ⟨outcome, .last evaluates, stillSame⟩
  | cons second later inductionHypothesis =>
      intro limit present workspace same
      obtain ⟨outcome, evaluates, stillSame⟩ :=
        each first List.mem_cons_self limit (present + 1) workspace same
      rcases outcome.done_or_stopped with ⟨middle, result, rfl⟩ | ⟨after, stop, rfl⟩
      · have others := inductionHypothesis fun value present =>
          each value (List.mem_cons_of_mem first present)
        obtain ⟨last, evaluatesLast, lastSame⟩ := others limit present middle stillSame
        exact ⟨last, .next evaluates evaluatesLast, lastSame⟩
      · exact ⟨_, .stopped evaluates, stillSame⟩

theorem ends_body (each : ∀ value ∈ body, dictionary.Ends (.value value)) :
    dictionary.Ends (.body body) := by
  intro limit present workspace same
  cases body with
  | nil => exact ⟨_, .empty, same⟩
  | cons first later =>
      rcases Nat.lt_or_ge present limit.value with below | reached
      · obtain ⟨outcome, evaluates, stillSame⟩ :=
          ends_values each limit present workspace same
        exact ⟨outcome, .entered below evaluates, stillSame⟩
      · exact ⟨_, .exceeded reached, same⟩

/-- A value that calls no quotation ends if the body that it invokes does. -/
theorem ends_value
    {value : Value}
    (callsNone : ∀ reference, value = .wordRef reference →
      reference.id ≠ Primitive.branch.id ∧ reference.id ≠ Primitive.call.id)
    (invoked : ∀ reference inner, value = .wordRef reference →
      dictionary.bodyAt? reference.place = some inner → dictionary.Ends (.body inner)) :
    dictionary.Ends (.value value) := by
  intro limit present workspace same
  have stillSame := same.trans (workspace.sameNames_react value)
  rcases (workspace.react value).done_or_stopped with
    ⟨after, handed, react_eq⟩ | ⟨after, stop, react_eq⟩
  · rw [react_eq] at stillSame
    rcases Workspace.handed_of_react react_eq with rfl | ⟨reference, rfl, called | defined⟩
    · exact ⟨_, Workspace.evaluates_of_done react_eq .empty, stillSame⟩
    · obtain ⟨primitive, entry_eq, calls, -⟩ := called
      have id_eq := entry?_eq_primitive_iff.mp entry_eq
      obtain ⟨notBranch, notCall⟩ := callsNone reference rfl
      rcases List.mem_cons.mp calls with rfl | isCall
      · exact absurd id_eq.symm notBranch
      · rw [List.mem_singleton.mp isCall] at id_eq
        exact absurd id_eq.symm notCall
    · obtain ⟨number, word, entry_eq, body_eq⟩ := defined
      rw [same.entry?_eq] at entry_eq
      have handed_eq : dictionary.bodyAt? reference.place = some handed := by
        simp only [bodyAt?, WordRef.place, entry_eq]
        exact body_eq
      have ends := invoked reference handed rfl handed_eq
      obtain ⟨outcome, evaluates, outcomeSame⟩ := ends limit present after stillSame
      exact ⟨outcome, Workspace.evaluates_of_done react_eq evaluates, outcomeSame⟩
  · rw [react_eq] at stillSame
    exact ⟨_, Workspace.evaluates_of_stopped react_eq, stillSame⟩

/-- Code that calls no quotation ends if the bodies that it refers to do. -/
theorem CallsNoQuotation.ends
    (callsNone : dictionary.CallsNoQuotation body)
    (referred : ∀ (reference : WordRef) inner, reference.OccursIn body →
      dictionary.bodyAt? reference.place = some inner → dictionary.Ends (.body inner)) :
    dictionary.Ends (.body body) := by
  refine ends_body fun value present => ends_value ?_ ?_
  · rintro reference rfl
    exact callsNone reference (.here ⟨_, present, .self⟩)
  · rintro reference inner rfl inner_eq
    exact referred reference inner ⟨_, present, .self⟩ inner_eq

/-! ## Ranked dictionaries -/

section Ranked

variable {rank : Place → Nat}
  (ranked : ∀ {source target}, dictionary.RefersTo source target → rank target < rank source)

include ranked

/-- References that lead to lower ranks form no cycle. -/
theorem rank_lt_of_transGen
    {source target : Place}
    (reaches : Relation.TransGen dictionary.RefersTo source target) :
    rank target < rank source := by
  induction reaches with
  | single refers => exact ranked refers
  | tail _ refers inductionHypothesis => exact (ranked refers).trans inductionHypothesis

theorem CallsNoQuotation.ends_bodyAt
    {place : Place}
    {body : Body}
    (callsNone : dictionary.CallsNoQuotation body)
    (body_eq : dictionary.bodyAt? place = some body) :
    dictionary.Ends (.body body) := by
  -- A frame may open many others, but each is for a body at a place of lower rank.
  induction rank_eq : rank place using Nat.strong_induction_on generalizing place body with
  | _ bound inductionHypothesis =>
      apply callsNone.ends
      intro reference inner occurs inner_eq
      have lower := ranked ⟨body, body_eq, reference, occurs, rfl⟩
      rw [rank_eq] at lower
      exact inductionHypothesis _ lower (callsNone.of_occursIn occurs inner_eq) inner_eq rfl

/-- Where references lead to lower ranks, code that calls no quotation ends. -/
theorem CallsNoQuotation.ends_of_ranked
    {body : Body}
    (callsNone : dictionary.CallsNoQuotation body) :
    dictionary.Ends (.body body) := by
  apply callsNone.ends
  intro reference inner occurs inner_eq
  exact (callsNone.of_occursIn occurs inner_eq).ends_bodyAt ranked inner_eq

end Ranked

end Dictionary

/-- A run of a body that ends by the rules of the language ends. -/
theorem Machine.exists_ended_of_ends
    {machine : Machine}
    {body : Body}
    (ends : machine.dictionary.Ends (.body body)) :
    ∃ fuel, (machine.run fuel body).Ended := by
  obtain ⟨outcome, evaluates, -⟩ :=
    ends machine.limit machine.calls.depth machine.toWorkspace (.refl _)
  obtain ⟨fuel, run_eq⟩ := exists_run_eq_of_evaluates evaluates
  refine ⟨fuel, ?_⟩
  rw [run_eq, Outcome.ended_mapState]
  exact evaluates.ended

namespace Session

/-! ## Layers in time -/

/-- The number of notes, out of some that are newest first, that are older than a layer. -/
def creationTime (name : String) (layer : Nat) : List Note → Nat
  | [] => 0
  | _ :: older =>
      if layer < layerCount name older then creationTime name layer older else older.length

section Time

variable {name : String} {layer : Nat} {notes older : List Note}

/-- A layer that notes tell of is older than the notes that follow them. -/
theorem creationTime_lt
    (suffix : older <:+ notes)
    (there : layer < layerCount name older) :
    creationTime name layer notes < older.length := by
  induction notes generalizing older with
  | nil =>
      rw [List.suffix_nil.mp suffix] at there
      simp [layerCount] at there
  | cons note notes inductionHypothesis =>
      rw [creationTime]
      rcases List.suffix_cons_iff.mp suffix with rfl | shorter
      · rw [List.length_cons]
        split
        · rename_i earlier
          exact (inductionHypothesis List.suffix_rfl earlier).trans (Nat.lt_succ_self _)
        · exact Nat.lt_succ_self _
      · rw [if_pos (there.trans_le (layerCount_mono shorter))]
        exact inductionHypothesis shorter there

/-- A layer that notes do not tell of is no older than they are. -/
theorem le_creationTime
    {newer : List Note}
    {note : Note}
    (absent : layerCount name older ≤ layer) :
    older.length ≤ creationTime name layer (newer ++ note :: older) := by
  induction newer with
  | nil =>
      rw [List.nil_append, creationTime, if_neg (Nat.not_lt.mpr absent)]
  | cons newest newer inductionHypothesis =>
      rw [List.cons_append, creationTime]
      split
      · exact inductionHypothesis
      · simp only [List.length_append, List.length_cons]
        omega

end Time

/-- When the layer at a place came about, counted from 1; primitives were always there. -/
def creationRank (session : Session) (place : Place) : Nat :=
  match session.dictionary.entry? place.id with
  | some (.compiled _ word) => creationTime word.name place.layer.toNat session.notes + 1
  | _ => 0

/-- A session that never reserved a word. -/
def IsUndeferred (session : Session) : Prop :=
  ∀ note ∈ session.notes, note.isReservation = false

variable {session : Session}

theorem isReservedIn_of_isUndeferred
    (undeferred : session.IsUndeferred)
    {older : List Note}
    (suffix : older <:+ session.notes)
    (name : String) :
    isReservedIn name older = false := by
  induction older with
  | nil => rfl
  | cons note older inductionHypothesis =>
      have unreserved : note.reserves name = false :=
        Note.reserves_of_isReservation (undeferred note (suffix.subset List.mem_cons_self)) name
      rw [isReservedIn, unreserved,
        inductionHypothesis ((List.suffix_cons note older).trans suffix)]
      simp

/-- In a session that reserved no word, a body refers to what was noted before its layer. -/
theorem exists_older_of_bodyAt?
    (chronicled : session.IsChronicled)
    (undeferred : session.IsUndeferred)
    {source : Place}
    {body : Body}
    (body_eq : session.dictionary.bodyAt? source = some body) :
    ∃ older, older <:+ session.notes ∧ older.length < session.creationRank source ∧
      ∀ reference : WordRef, reference.OccursIn body → reference.IsToldBy older := by
  obtain ⟨number, word, layer, entry_eq, inWords, source_eq, layer_eq⟩ :=
    Dictionary.exists_layer_of_bodyAt? body_eq
  have toldWord := chronicled.told.of_mem chronicled.plain inWords
  obtain ⟨id, noted⟩ := toldWord.noted layer body layer_eq
  obtain ⟨newer, older, notes_eq⟩ := List.append_of_mem noted
  obtain ⟨found, found_eq, referred⟩ := toldWord.defined newer id layer older notes_eq
  obtain rfl : body = found := by simpa [layer_eq] using found_eq
  have suffix : older <:+ session.notes := by
    rw [notes_eq]
    exact (List.suffix_cons _ older).trans (List.suffix_append newer _)
  -- Nothing was reserved, so the layer came about with this definition.
  obtain ⟨number_eq, told⟩ := referred (isReservedIn_of_isUndeferred undeferred suffix _)
  refine ⟨older, suffix, ?_, told⟩
  rw [creationRank, entry_eq, source_eq, notes_eq]
  exact Nat.lt_succ_of_le (le_creationTime (Nat.le_of_eq number_eq.symm))

/-- Where a known reference leads was there when the notes that tell of it had been taken. -/
theorem creationRank_le
    {reference : WordRef}
    (known : session.dictionary.Knows reference)
    {older : List Note}
    (suffix : older <:+ session.notes)
    (told : reference.IsToldBy older) :
    session.creationRank reference.place ≤ older.length := by
  obtain ⟨entry, entry_eq, name_eq, -⟩ := known.exists_entry
  cases entry with
  | primitive primitive =>
      simp only [creationRank, WordRef.place, entry_eq]
      exact Nat.zero_le _
  | compiled number word =>
      simp only [creationRank, WordRef.place, entry_eq]
      rcases told with ⟨primitive, id_eq⟩ | ⟨nonnegative, there⟩
      · rw [Dictionary.entry?_eq_primitive_iff.mpr id_eq] at entry_eq
        nomatch entry_eq
      · have earlier : reference.layer.toNat < layerCount word.name older := by
          rw [← name_eq, Entry.name] at there
          omega
        exact creationTime_lt suffix earlier

/-- In a session that reserved no word, layers refer to older ones. -/
theorem creationRank_lt
    (chronicled : session.IsChronicled)
    (closed : session.machine.IsClosed)
    (undeferred : session.IsUndeferred)
    {source target : Place}
    (refers : session.dictionary.RefersTo source target) :
    session.creationRank target < session.creationRank source := by
  obtain ⟨body, body_eq, reference, ⟨value, present, within⟩, rfl⟩ := refers
  obtain ⟨number, word, layer, -, inWords, -, layer_eq⟩ :=
    Dictionary.exists_layer_of_bodyAt? body_eq
  have known : session.dictionary.Knows reference :=
    closed.carries.workspace.bodies word inWords body (List.mem_of_getElem? layer_eq) value
      present _ within
  obtain ⟨older, suffix, source_rank, told⟩ :=
    exists_older_of_bodyAt? chronicled undeferred body_eq
  have target_rank := creationRank_le known suffix (told reference ⟨value, present, within⟩)
  exact Nat.lt_of_le_of_lt target_rank source_rank

/--
In a session that loading reaches, the notes tell how the layers of all words came about, and
a layer that was added by a definition refers to primitives and to layers that were there
before it.  If the session never reserved a word, the references between layers form no
cycle, and every run of code that mentions no primitive which calls a quotation ends.
-/
theorem refersBack_of_isReached (reached : session.IsReached) :
    (∀ word ∈ session.dictionary.words, word.IsToldBy session.notes) ∧
      (session.IsUndeferred →
        (∀ place, ¬Relation.TransGen session.dictionary.RefersTo place place) ∧
        ∀ (machine : Machine) (body : Body),
          machine.dictionary = session.dictionary →
          session.dictionary.CallsNoQuotation body →
          ∃ fuel, (machine.run fuel body).Ended) := by
  have chronicled := isChronicled_of_isReached reached
  have closed := isKept_isClosed.of_isReached Machine.isClosed_initial reached
  refine ⟨fun word present => ?_, fun undeferred => ?_⟩
  · exact chronicled.told.of_mem chronicled.plain present
  have ranked : ∀ {source target}, session.dictionary.RefersTo source target →
      session.creationRank target < session.creationRank source :=
    creationRank_lt chronicled closed undeferred
  constructor
  · intro place cycle
    exact Nat.lt_irrefl _ (Dictionary.rank_lt_of_transGen ranked cycle)
  · intro machine body dictionary_eq callsNone
    apply Machine.exists_ended_of_ends
    rw [dictionary_eq]
    exact callsNone.ends_of_ranked ranked

/-- A word is defined by its previous definition, which pushes a quotation. -/
theorem refersBack_of_isReached_redefinition :
    ∃ session : Session,
      session.IsReached ∧
      session.IsUndeferred ∧
      session.dictionary.words.map (·.layers.length) = [2] ∧
      (∀ place, ¬Relation.TransGen session.dictionary.RefersTo place place) ∧
      session.dictionary.CallsNoQuotation [.wordRef ⟨1, "two", 1⟩] ∧
      ∃ fuel, (session.machine.run fuel [.wordRef ⟨1, "two", 1⟩]).Ended := by
  let environment : Environment := ⟨.empty [], 9⟩
  let operations : List Operation :=
    [.execute environment "<input>" ": two [ 1 + ] 2 ; : two two two * ;"]
  let session := (start environment false .standard).after operations
  have reached : session.IsReached :=
    ⟨environment, false, .standard, operations, by decide, rfl⟩
  have undeferred : session.IsUndeferred := by
    unfold IsUndeferred
    decide +kernel
  have callsNone : session.dictionary.CallsNoQuotation [.wordRef ⟨1, "two", 1⟩] := by
    apply Dictionary.callsNoQuotation_of_isQuiet
    · decide +kernel
    · decide +kernel
  have back := (refersBack_of_isReached reached).2 undeferred
  exact ⟨session, reached, undeferred, by decide +kernel, back.1, callsNone,
    back.2 _ _ rfl callsNone⟩

end Session

end Concatenative

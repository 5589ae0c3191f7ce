import Concatenative.Proofs.Closedness

/-!
# Texts and names of values

The values of a session are read from tokens, or are truth values and integers that a run
has made.  So every text that a session holds is one that a literal can have, every name
in a reference is one that a word can have, and every name of a word or of a variable is
one that a definition can have.
-/

namespace Concatenative

namespace Value

/-- The text of a value, or the name in it, is one that a token can have. -/
def HasTokenText : Value → Prop
  | text characters => (Token.literal characters).IsWellFormed
  | variableRef name => (Token.word name).IsWellFormed
  | wordRef reference => (Token.word reference.name).IsWellFormed
  | nil | bool _ | int _ | quotation _ => True

/-- All texts and names that occur in a value are such as tokens can have. -/
def IsLegible (value : Value) : Prop :=
  ∀ part : Value, part.Within value → part.HasTokenText

/-- Runs move legible values, and make such values only. -/
theorem discipline_isLegible : Discipline IsLegible IsLegible :=
  discipline_within fun value made => by
    rcases made with ⟨truth, rfl⟩ | ⟨number, rfl⟩ <;> trivial

end Value

namespace Reader

/-- What a word stands for is legible. -/
theorem isLegible_of_resolve
    {dictionary : Dictionary}
    {text : String}
    {value : Value}
    (written : (Token.word text).IsWellFormed)
    (resolve_eq : resolve dictionary text = .ok value) :
    value.IsLegible := by
  rcases resolve_eq_ok resolve_eq with
    ⟨truth, rfl⟩ | ⟨number, -, -, rfl⟩ | ⟨reference, reference_eq, rfl⟩ | ⟨-, rfl⟩
  · exact Value.forall_within_of_atomic trivial (by simp)
  · exact Value.forall_within_of_atomic trivial (by simp)
  · obtain ⟨entry, -, rfl⟩ := Option.map_eq_some_iff.mp reference_eq
    exact Value.forall_within_of_atomic written (by simp)
  · exact Value.forall_within_of_atomic written (by simp)

/-- What is read from well-formed tokens is legible. -/
theorem yields_isLegible (dictionary : Dictionary) :
    Yields dictionary Token.IsWellFormed Value.IsLegible where
  resolved text value := isLegible_of_resolve
  literal characters written := Value.forall_within_of_atomic written (by simp)
  quoted content := Value.forall_within_quotation trivial

end Reader

namespace Session

/-- The values of a session stay legible. -/
theorem isKept_isLegible :
    IsKept (Machine.Carries Value.IsLegible Value.IsLegible) fun _ _ => True where
  printed machine output carries :=
    ⟨carries.workspace.withStack carries.workspace.stack output, carries.frames⟩
  changed machine change dictionary carries loads apply_eq := by
    refine carries.withDictionary ?_ (fun name body change_eq => ?_) apply_eq
    · exact Value.forall_within_of_atomic trivial (by simp)
    · subst change_eq
      cases loads with
      | define written read_eq =>
          rw [List.forall_mem_cons] at written
          exact (Reader.yields_isLegible _).readDefinition written.2 read_eq
  dispatched machine token tokens value rest fuel carries written read_eq := by
    have legible := (Reader.yields_isLegible _).readValue written read_eq
    refine ⟨carries.run Value.discipline_isLegible (fun member present => ?_) fuel, ?_⟩
    · exact List.mem_singleton.mp present ▸ legible
    · exact fun _ _ => trivial
  static _ _ _ _ := trivial

/-- The name that a program gives a word or a variable is one that a definition can have. -/
theorem isSolid_of_loads
    {dictionary : Dictionary}
    {change : Dictionary.Change}
    (loads : Loads dictionary change) :
    Text.IsSolid change.name := by
  cases loads with
  | define written read_eq => exact written _ List.mem_cons_self
  | defer written check_eq => exact written.1
  | declareVariable written check_eq => exact written.1

section Reached

variable {session : Session}

/-- Every name of a session that loading reaches is one that a definition can have. -/
theorem isSolid_of_hasName
    (reached : session.IsReached)
    {name : String}
    (has : session.dictionary.HasName name) :
    Text.IsSolid name := by
  have kept := isKept_hasName fun _ _ => isSolid_of_loads
  refine kept.of_isReached (fun limit initial has => ?_) reached name has
  obtain ⟨primitive, rfl⟩ := exists_primitive_of_hasName_initial has
  cases primitive <;> decide

/-- All that a session holds that loading reaches is legible. -/
theorem isLegible_of_holds
    (reached : session.IsReached)
    {value : Value}
    (held : session.machine.toWorkspace.Holds value) :
    value.IsLegible := by
  have carries := (isKept_isLegible.of_isReached Machine.carries_initial reached).workspace
  intro part deeper
  cases held with
  | onStack present within => exact carries.stack _ present part (deeper.trans within)
  | inVariable present within => exact carries.store _ present part (deeper.trans within)
  | inBody inWords inLayers present within =>
      exact carries.bodies _ inWords _ inLayers _ present part (deeper.trans within)

end Reached

end Session
end Concatenative

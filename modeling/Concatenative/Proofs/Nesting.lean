import Concatenative.Proofs.Moment
import Concatenative.Proofs.Stopping

/-!
# Includes do not go on for ever

A file is refused exactly while it is being loaded under the same address.  So there are never
more files being loaded than twice those that can be read, and never more than those where no
file has two addresses, and a load goes on for ever only if a value that it runs does.
-/

namespace Concatenative
namespace Session

/-! ## Loads that end -/

namespace Moment

/-- Every value that is run from a moment on ends. -/
def RunsEnd (files : Files.Tree) (moment : Moment) : Prop :=
  ∀ later, Reaches files moment later →
    ∀ token rest value remaining,
      later.work = .tokens (token :: rest) →
      Reader.readValue later.session.dictionary token rest = .ok (value, remaining) →
      ∃ fuel, (later.session.machine.dispatch fuel value).Ended

section Termination

variable {files : Files.Tree} {origin : Session} {moment later : Moment}

theorem RunsEnd.leads
    (runsEnd : moment.RunsEnd files)
    (leads : moment.Leads files later) :
    later.RunsEnd files :=
  fun last reaches => runsEnd last (reaches.head leads)

/-- A form by itself ends if the value that it may run does. -/
theorem RunsEnd.exists_ended_loadForm
    {session : Session}
    {sources : List Source}
    {token : Token}
    {rest : List Token}
    (runsEnd : RunsEnd files ⟨session, sources, .tokens (token :: rest)⟩) :
    ∃ fuel, (session.loadForm fuel includeNothing token rest).Ended := by
  cases read_eq : Reader.readValue session.dictionary token rest with
  | error stop =>
      refine ⟨0, fun cut => ?_⟩
      rcases arises_of_loadForm cut with arises | ⟨-, value, remaining, value_eq, -⟩
      · exact arises.ne_exhausted rfl
      · rw [read_eq] at value_eq
        cases value_eq
  | ok read =>
      obtain ⟨value, remaining⟩ := read
      obtain ⟨fuel, ended⟩ := runsEnd _ .refl token rest value remaining rfl read_eq
      refine ⟨fuel, fun cut => ?_⟩
      rcases arises_of_loadForm cut with arises | ⟨-, other, later, other_eq, notEnded⟩
      · exact arises.ne_exhausted rfl
      · rw [read_eq] at other_eq
        obtain ⟨rfl, rfl⟩ := Prod.mk.inj (Except.ok.inj other_eq)
        exact notEnded ended

/-- The load of a source ends if that of its tokens does. -/
theorem IsSound.exists_ended_load
    {session : Session}
    {sources : List Source}
    {source : Source}
    (sound : IsSound files origin ⟨session, sources, .load source⟩)
    (ends : ∀ later, Leads files ⟨session, sources, .load source⟩ later →
      ∃ fuel, (later.goOn files fuel).Ended) :
    ∃ fuel, (goOn files fuel ⟨session, sources, .load source⟩).Ended := by
  simp only [goOn]
  by_cases loading : session.IsLoading files.home source
  · refine ⟨0, ?_⟩
    rw [load_of_isLoading sound.nests loading]
    simp
  cases read_eq : source.read files with
  | error stop =>
      refine ⟨0, ?_⟩
      rw [load_of_read_eq_error sound.nests loading read_eq]
      exact Source.ended_of_read_eq_error read_eq session
  | ok tokens =>
      obtain ⟨fuel, ended⟩ := ends _ (.opened loading read_eq)
      refine ⟨fuel, ?_⟩
      rw [load_of_read_eq_ok sound.nests loading read_eq]
      simpa [goOn] using ended

/-- A form ends if the value that it may run and the file that it may include do. -/
theorem RunsEnd.exists_ended_form
    {session : Session}
    {sources : List Source}
    {token : Token}
    {rest : List Token}
    (runsEnd : RunsEnd files ⟨session, sources, .tokens (token :: rest)⟩)
    (ends : ∀ later, Leads files ⟨session, sources, .tokens (token :: rest)⟩ later →
      ∃ fuel, (later.goOn files fuel).Ended) :
    ∃ fuel, (session.loadForm fuel (Environment.inclusion ⟨files, fuel⟩) token rest).Ended := by
  rcases loadForm_include_or_not token rest with
    ⟨keyword, argument, rfl, check_eq, include_eq⟩ | alone_eq
  · obtain ⟨fuel, ended⟩ := ends _ (.included check_eq rfl)
    refine ⟨fuel, ?_⟩
    rw [include_eq]
    exact ended.andThen fun after _ => Outcome.ended_done after rest.tail
  · obtain ⟨fuel, ended⟩ := runsEnd.exists_ended_loadForm
    exact ⟨fuel, alone_eq session fuel _ ▸ ended⟩

/-- Tokens are loaded to the end if their first form is, and then the others. -/
theorem IsSound.exists_ended_tokens
    {session : Session}
    {sources : List Source}
    {token : Token}
    {rest : List Token}
    (sound : IsSound files origin ⟨session, sources, .tokens (token :: rest)⟩)
    (runsEnd : RunsEnd files ⟨session, sources, .tokens (token :: rest)⟩)
    (ends : ∀ later, Leads files ⟨session, sources, .tokens (token :: rest)⟩ later →
      ∃ fuel, (later.goOn files fuel).Ended) :
    ∃ fuel, (goOn files fuel ⟨session, sources, .tokens (token :: rest)⟩).Ended := by
  obtain ⟨fuel, formEnded⟩ := runsEnd.exists_ended_form ends
  rcases (session.loadForm fuel (Environment.inclusion ⟨files, fuel⟩) token
    rest).done_or_stopped with ⟨after, later, form_eq⟩ | ⟨after, stop, form_eq⟩
  · have passes : Leads files ⟨session, sources, .tokens (token :: rest)⟩ _ := .passed form_eq
    have afterNests := (sound.leads passes).nests
    obtain ⟨more, ended⟩ := ends _ passes
    -- Both parts end with the fuel of both, since what has ended takes no notice of more.
    refine ⟨fuel + more, ?_⟩
    simp only [goOn, loadTokens_cons] at ended ⊢
    rw [loadForm_add_of_ended sound.nests formEnded more, form_eq, Outcome.andThen_done,
      Nat.add_comm, loadTokens_add_of_ended afterNests ended fuel]
    exact ended
  · refine ⟨fuel, ?_⟩
    rw [form_eq] at formEnded
    simp only [goOn, loadTokens_cons, form_eq]
    simpa using formEnded

/-- What is left to be done ends if every value that is run does. -/
theorem IsSound.exists_ended
    (sound : moment.IsSound files origin)
    (runsEnd : moment.RunsEnd files) :
    ∃ fuel, (moment.goOn files fuel).Ended := by
  induction moment, sound using IsSound.induction with
  | step moment sound inductionHypothesis =>
      have ends : ∀ later, Leads files moment later → ∃ fuel, (later.goOn files fuel).Ended :=
        fun later leads => inductionHypothesis later leads (runsEnd.leads leads)
      obtain ⟨session, sources, work⟩ := moment
      cases work with
      | load source => exact sound.exists_ended_load ends
      | tokens tokens =>
          cases tokens with
          | nil =>
              refine ⟨0, ?_⟩
              simp only [goOn, loadTokens_nil]
              exact Outcome.ended_done session ()
          | cons token rest => exact sound.exists_ended_tokens runsEnd ends
      | run => exact ⟨0, Outcome.ended_done session ()⟩

/-- What comes first in a load that ends has ended. -/
theorem Leads.exists_ended
    (leads : moment.Leads files later)
    (nests : moment.session.NestsIn files)
    (ends : ∃ fuel, (moment.goOn files fuel).Ended) :
    ∃ fuel, (later.goOn files fuel).Ended := by
  obtain ⟨fuel, ended⟩ := ends
  cases leads with
  | opened absent read_eq =>
      refine ⟨fuel, ?_⟩
      simp only [goOn, load_of_read_eq_ok nests absent read_eq] at ended ⊢
      simpa using ended
  | included check_eq path_eq =>
      refine ⟨fuel, ?_⟩
      simp only [goOn, loadTokens_cons, loadForm, check_eq, applyDirective] at ended ⊢
      subst path_eq
      exact ended.of_andThen.of_andThen
  | ran => exact ⟨0, Outcome.ended_done _ ()⟩
  | @passed session after sources token rest later more form_eq =>
      refine ⟨fuel, ?_⟩
      simp only [goOn, loadTokens_cons] at ended ⊢
      have passed : (session.loadForm more (Environment.inclusion ⟨files, more⟩) token
          rest).Ended := by simp [form_eq]
      have same : session.loadForm fuel (Environment.inclusion ⟨files, fuel⟩) token rest =
          .done after later := by
        rw [← loadForm_add_of_ended nests ended.of_andThen more, Nat.add_comm,
          loadForm_add_of_ended nests passed fuel, form_eq]
      rw [same, Outcome.andThen_done] at ended
      exact ended

/-- What is left to be done ends if and only if every value that is run does. -/
theorem IsSound.runsEnd_iff (sound : moment.IsSound files origin) :
    moment.RunsEnd files ↔ ∃ fuel, (moment.goOn files fuel).Ended := by
  refine ⟨sound.exists_ended, fun ends later reaches => ?_⟩
  intro token rest value remaining later_eq read_eq
  have laterEnds : ∃ fuel, (later.goOn files fuel).Ended := by
    clear later_eq read_eq
    induction reaches with
    | refl => exact ends
    | tail reaches leads inductionHypothesis =>
        exact leads.exists_ended (sound.reaches reaches).nests inductionHypothesis
  obtain ⟨fuel, ended⟩ := laterEnds
  refine ⟨fuel, ?_⟩
  simp only [goOn, later_eq, loadTokens_cons, loadForm_of_readValue read_eq] at ended
  exact ended.of_andThen.of_andThen

end Termination

end Moment

/-! ## Files that are refused -/

/-- No change to the dictionary takes notes back. -/
theorem keeps_notes_changeDictionary
    {older : List Note}
    {session : Session}
    (held : older <:+ session.notes)
    (result : Except Error.Cause Dictionary) :
    (session.changeDictionary result).Keeps (fun session => older <:+ session.notes)
      fun _ _ => True := by
  cases result with
  | error cause => exact ⟨held, fun _ _ => trivial⟩
  | ok dictionary => exact ⟨held, fun _ _ => trivial⟩

/-- Notes that were taken stay. -/
theorem isMaintained_notes (older : List Note) :
    IsMaintained (fun session => older <:+ session.notes) fun _ _ => True where
  surrounded _ _ _ held := held
  accounted _ _ _ _ _ := trivial
  noted _ note held _ := held.trans (List.suffix_cons note _)
  printed _ _ held := held
  defined session name _ body _ held _ _ := by
    refine Outcome.Keeps.andThen (keeps_notes_changeDictionary held _) fun after _ afterHeld => ?_
    split
    · exact ⟨afterHeld, fun _ _ => trivial⟩
    · exact ⟨afterHeld.trans (List.suffix_cons _ _), fun _ _ => trivial⟩
  directed session inclusion directive name held _ otherwise := by
    have noted : older <:+ (session.note (.directive directive.keyword name)).notes :=
      held.trans (List.suffix_cons _ _)
    unfold applyDirective
    split
    · exact absurd rfl otherwise
    · split
      · exact ⟨noted, fun _ _ => trivial⟩
      · exact keeps_notes_changeDictionary noted _
    · split
      · exact ⟨noted, fun _ _ => trivial⟩
      · exact keeps_notes_changeDictionary noted _
  dispatched _ _ _ _ _ _ held _ _ := ⟨held, fun _ _ => trivial⟩
  static _ _ _ _ := trivial

/-- Loading tokens takes no notes back. -/
theorem suffix_notes_loadTokens
    (session : Session)
    (environment : Environment)
    {tokens : List Token}
    (written : ∀ token ∈ tokens, token.IsWellFormed) :
    session.notes <:+
      (session.loadTokens environment.fuel environment.inclusion tokens).state.notes := by
  have maintained := isMaintained_notes session.notes
  have included := maintained.includeBy environment.files
    (maintained.loadNested environment environment.nesting)
  exact (maintained.loadTokens List.suffix_rfl environment.fuel included written).1

/-- A file is refused at once because it is being loaded. -/
def Refuses (session : Session) (environment : Environment) (path : String) : Prop :=
  session.loadPath environment path =
    .stopped session (.failure ⟨.circular path, session.source⟩)

/-- A file is refused if and only if it is being loaded under the same address. -/
theorem refuses_iff
    {files : Files.Tree}
    {session : Session}
    (nests : session.NestsIn files)
    (fuel : Nat)
    (path : String) :
    session.Refuses ⟨files, fuel⟩ path ↔
      Files.Path.address files.home path ∈ session.loading := by
  constructor
  · intro refuses
    by_contra absent
    have notLoading : ¬ session.IsLoading files.home (.file path) := by
      rintro ⟨address, located, present⟩
      cases located
      exact absent present
    have refused_eq : session.load ⟨files, fuel⟩ (.file path) =
        .stopped session (.failure ⟨.circular path, session.source⟩) := refuses
    cases read_eq : (Source.file path).read files with
    | error stop =>
        rw [load_of_read_eq_error nests notLoading read_eq, Outcome.stopped_inj] at refused_eq
        rw [refused_eq.2] at read_eq
        cases (Source.read_eq_failure read_eq).1
    | ok tokens =>
        -- A file that is opened leaves a note of it, which a file that is refused does not.
        let inside := session.entering files.home (.file path) tokens.length
        have longer := (inside.suffix_notes_loadTokens ⟨files, fuel⟩
          (isWellFormed_of_readFile read_eq)).length_le
        rw [load_of_read_eq_ok nests notLoading read_eq] at refused_eq
        have notes_eq : (inside.loadTokens fuel (Environment.inclusion ⟨files, fuel⟩)
            tokens).state.notes = session.notes :=
          congrArg (·.state.notes) refused_eq
        have noted : inside.notes.length = session.notes.length + 1 := rfl
        rw [notes_eq, noted] at longer
        omega
  · intro present
    have loading : session.IsLoading files.home (.file path) := ⟨_, rfl, present⟩
    exact load_of_isLoading nests loading

/-- Where addresses agree, a file is refused if and only if it is being loaded. -/
theorem refuses_iff_of_agree
    {files : Files.Tree}
    {session : Session}
    (nests : session.NestsIn files)
    {path : String}
    (agree : Files.Agree (Files.Path.address files.home path :: session.loading))
    (fuel : Nat) :
    session.Refuses ⟨files, fuel⟩ path ↔
      Files.Path.locate files.home path ∈ session.loading.map Files.Address.location := by
  rw [refuses_iff nests]
  constructor
  · exact fun present => List.mem_map_of_mem (f := Files.Address.location) present
  · intro located
    obtain ⟨address, present, same⟩ := List.mem_map.mp located
    have same_address : address = Files.Path.address files.home path :=
      agree address (List.mem_cons_of_mem _ present) _ List.mem_cons_self same
    exact same_address ▸ present

/--
Wherever the load of a source stands, the session has the addresses of the files that are
being loaded, innermost first and none of them twice.  A file is refused exactly if its
address is among them, under whatever spelling of its path, and once it is loaded, to its end
or not, it is no longer.  Where addresses agree on the files that they denote, the files being
loaded are different files, so that there are no more of them than files that can be read,
and a file is refused exactly if it is being loaded.  Includes cannot go on for ever even
where addresses do not agree: a load ends if and only if every value that it runs does.
-/
theorem load_nests_and_ends
    {files : Files.Tree}
    {session : Session}
    (nests : session.NestsIn files)
    (source : Source) :
    (∀ moment, Moment.Reaches files (session.beginning source) moment →
      moment.session.loading =
          moment.sources.filterMap (Source.address? files.home) ++ session.loading ∧
        moment.session.loading.Nodup ∧
        (Files.Agree moment.session.loading →
          (moment.session.loading.map Files.Address.location).Nodup ∧
          moment.session.loading.length ≤ files.readable.length) ∧
        ∀ path, moment.work = .load (.file path) → ∀ fuel,
          (moment.session.Refuses ⟨files, fuel⟩ path ↔
            Files.Path.address files.home path ∈ moment.session.loading) ∧
          (Files.Agree (Files.Path.address files.home path :: moment.session.loading) →
            (moment.session.Refuses ⟨files, fuel⟩ path ↔
              Files.Path.locate files.home path ∈
                moment.session.loading.map Files.Address.location)) ∧
          (¬ moment.session.Refuses ⟨files, fuel⟩ path →
            ∀ again, Files.Path.address files.home again = Files.Path.address files.home path →
              ¬ (moment.session.loadPath ⟨files, fuel⟩ path).state.Refuses ⟨files, fuel⟩
                again)) ∧
      ((session.beginning source).RunsEnd files ↔
        ∃ fuel, (session.request ⟨files, fuel⟩ source).Ended) := by
  have begun := isSound_beginning nests source
  simp only [request_eq]
  refine ⟨fun moment reaches => ?_, begun.runsEnd_iff⟩
  have sound := begun.reaches reaches
  refine ⟨sound.loading_eq, sound.nests.nodup, fun agree => ?_, fun path _ fuel => ?_⟩
  · exact ⟨sound.nests.nodup_locations agree, sound.nests.length_le_of_agree agree⟩
  refine ⟨refuses_iff sound.nests fuel path, fun agree => ?_, fun accepted again same refused =>
    accepted ?_⟩
  · exact refuses_iff_of_agree sound.nests agree fuel
  have loading_eq : (moment.session.loadPath ⟨files, fuel⟩ path).state.loading =
      moment.session.loading :=
    congrArg Ambience.loading (leaves_loadNested ⟨files, fuel⟩ _ path moment.session)
  rw [refuses_iff (sound.nests.of_loading_eq loading_eq), loading_eq, same] at refused
  exact (refuses_iff sound.nests fuel path).mpr refused

/--
A file that includes itself under another spelling of its path is refused there, with the
value before the include pushed.
-/
theorem load_nests_and_ends_cycle :
    ∃ (files : Files.Tree) (session : Session) (moment : Moment),
      session.NestsIn files ∧
      Moment.Reaches files (session.beginning (.file "a")) moment ∧
      moment.work = .load (.file "/./a") ∧
      moment.session.machine.stack.length = 1 ∧
      moment.session.Refuses ⟨files, 1⟩ "/./a" ∧
      (session.beginning (.file "a")).RunsEnd files := by
  let files := (Files.Tree.empty []).put "a" (.file "\"x\" :include /./a".toUTF8)
  let session := initial .standard
  let tokens : List Token := [.literal "x", .directive ":include", .word "/./a"]
  let inside := (session.beginning (.file "a")).session.entering files.home (.file "a") 3
  have read_eq : (Source.file "a").read files = .ok tokens :=
    eq_ok_of_toOption (by decide +kernel)
  have nests : session.NestsIn files := nestsIn_of_idle rfl
  have absent : ¬ (session.beginning (.file "a")).session.IsLoading files.home (.file "a") := by
    rintro ⟨address, -, present⟩
    cases present
  have opens : Moment.Leads files (session.beginning (.file "a"))
      ⟨inside, [.file "a"], .tokens tokens⟩ := .opened absent read_eq
  obtain ⟨after, form_eq, length_eq⟩ : ∃ after, inside.loadForm 1
      (Environment.inclusion ⟨files, 1⟩) (.literal "x") tokens.tail = .done after tokens.tail ∧
        after.machine.stack.length = 1 := ⟨_, rfl, rfl⟩
  have check_eq : checkDirective ":include" [Token.word "/./a"].head? =
      .ok (.includeFile, "/./a") := rfl
  have located : locateIncluded files after.source "/./a" = "/./a" := by
    cases source_eq : after.source with
    | none => rfl
    | some current => simp [locateIncluded, Files.Path.isAbsolute]
  have reaches := ((Relation.ReflTransGen.single opens).tail (.passed form_eq)).tail
    (.included check_eq located)
  have general := load_nests_and_ends nests (.file "a")
  obtain ⟨reached_eq, -, -, refuses⟩ := general.1 _ reaches
  have loading_eq : after.loading = [Files.Path.address files.home "a"] := reached_eq
  have agree : Files.Agree (Files.Path.address files.home "/./a" :: after.loading) := by
    rw [loading_eq]
    exact Files.agree_of_not_doubled (by decide +kernel)
  refine ⟨files, session, _, nests, reaches, rfl, length_eq, ?_, general.2.mpr ⟨9, ?_⟩⟩
  · refine ((refuses "/./a" rfl 1).2.1 agree).mpr ?_
    have located : Files.Path.locate files.home "/./a" ∈
        [Files.Path.address files.home "a"].map Files.Address.location := by decide +kernel
    rw [← loading_eq] at located
    exact located
  · have fails : (session.request ⟨files, 9⟩ (.file "a")).failure?.isSome = true := by
      decide +kernel
    exact Outcome.ended_of_isSome_failure? fails

end Session
end Concatenative

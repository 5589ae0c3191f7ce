import Concatenative.Proofs.Ambience
import Mathlib.Data.List.Dedup
import Mathlib.Data.List.Perm.Subperm

/-!
# Files that include files

A file that is being loaded is not loaded again under the same address.  So the addresses of
the files being loaded are different, each of them is that of a file that can be read, and
the bound that the loader puts on the nesting of includes is never reached: loading a file is
loading its tokens, where every include loads a file in the same way.

A file has two addresses, since two slashes at the front of a path are kept apart from one.
Where addresses agree on the files that they denote, as they do if no path has two slashes at
its front, the files being loaded are different files.

The number of steps that is allowed to each run matters only where it is too small.
-/

namespace Concatenative

open Outcome (Tracks)

/-! ## Addresses -/

namespace Files

/-- Addresses with one location are the same, so they agree on the file that they denote. -/
def Agree (addresses : List Address) : Prop :=
  ∀ first ∈ addresses, ∀ second ∈ addresses, first.location = second.location → first = second

/-- Addresses agree if none of them starts with two slashes. -/
theorem agree_of_not_doubled
    {addresses : List Address}
    (single : ∀ address ∈ addresses, address.doubled = false) :
    Agree addresses := by
  intro first firstPresent second secondPresent same
  have firstSingle := single first firstPresent
  have secondSingle := single second secondPresent
  cases first
  cases second
  simp_all

end Files

/-! ## Files that can be read -/

namespace Files.Tree

variable {tree : Tree} {location : Location} {path : String}

/-- Whether a file stands at a location and holds a text. -/
def isReadable (tree : Tree) (location : Location) : Bool :=
  match tree.node? location with
  | some (.file bytes) => (String.fromUTF8? bytes).isSome
  | _ => false

/-- The locations of the files that can be read. -/
def readable (tree : Tree) : List Location :=
  (tree.nodes.map Prod.fst).dedup.filter tree.isReadable

theorem mem_readable (isReadable : tree.isReadable location = true) :
    location ∈ tree.readable := by
  refine List.mem_filter.mpr ⟨List.mem_dedup.mpr ?_, isReadable⟩
  unfold Tree.isReadable node? at isReadable
  split at isReadable
  · rename_i bytes node_eq
    split at node_eq
    · simp at node_eq
    · obtain ⟨before, after, nodes_eq, -⟩ := List.lookup_eq_some_iff.mp node_eq
      simp [nodes_eq]
  · simp at isReadable

theorem length_readable_le (tree : Tree) : tree.readable.length ≤ tree.nodes.length :=
  calc
    tree.readable.length ≤ (tree.nodes.map Prod.fst).dedup.length := List.length_filter_le _ _
    _ ≤ (tree.nodes.map Prod.fst).length := (List.dedup_sublist _).length_le
    _ = tree.nodes.length := List.length_map _

/-- Without links, a walk leads to the location that is read off the components. -/
theorem foldl_follow_of_walk
    {found : Location}
    {components : List String}
    (walk_eq : tree.walk location components = .ok found) :
    components.foldl Path.follow location = found := by
  induction components generalizing location with
  | nil => exact Except.ok.inj walk_eq
  | cons component components inductionHypothesis =>
      unfold walk at walk_eq
      split at walk_eq
      · split at walk_eq
        · nomatch walk_eq
        · simp only at walk_eq
          split at walk_eq
          · nomatch walk_eq
          · exact inductionHypothesis walk_eq
      · nomatch walk_eq
      · nomatch walk_eq

/-- What a path leads to stands at the location of the path. -/
theorem node?_of_resolve
    {node : Node}
    (resolve_eq : tree.resolve path = .ok node) :
    tree.node? (Path.locate tree.home path) = some node := by
  unfold resolve at resolve_eq
  split at resolve_eq
  · nomatch resolve_eq
  split at resolve_eq
  · nomatch resolve_eq
  split at resolve_eq
  · nomatch resolve_eq
  · rename_i found walk_eq
    have locate_eq : Path.locate tree.home path = found := foldl_follow_of_walk walk_eq
    split at resolve_eq
    · rename_i standing node_eq
      rw [locate_eq, node_eq, Except.ok.inj resolve_eq]
    · nomatch resolve_eq

/-- A path that is read has a file that can be read at its location. -/
theorem isReadable_of_read
    {text : String}
    (read_eq : tree.read path = .ok text) :
    tree.isReadable (Path.locate tree.home path) = true := by
  unfold read openFile at read_eq
  split at read_eq
  · cases resolve_eq : tree.resolve path with
    | error refusal => simp [resolve_eq] at read_eq
    | ok node =>
        cases node with
        | directory => simp [resolve_eq] at read_eq
        | file bytes =>
            simp only [resolve_eq] at read_eq
            unfold isReadable
            rw [node?_of_resolve resolve_eq]
            cases decode_eq : String.fromUTF8? bytes with
            | none => simp [decode_eq] at read_eq
            | some decoded => simp [decode_eq]
  · cases read_eq

end Files.Tree

namespace Session

theorem isReadable_of_readFile
    {files : Files.Tree}
    {path : String}
    {tokens : List Token}
    (read_eq : readFile files path = .ok tokens) :
    files.isReadable (Files.Path.locate files.home path) = true := by
  obtain ⟨text, open_eq, -⟩ := readFile_eq_ok read_eq
  exact Files.Tree.isReadable_of_read open_eq

/-! ## The files being loaded -/

/-- The files being loaded can be read, and no two of them have one address. -/
structure NestsIn (files : Files.Tree) (session : Session) : Prop where
  nodup : session.loading.Nodup
  readable : ∀ address ∈ session.loading, files.isReadable address.location = true

section Nesting

variable {files : Files.Tree} {session : Session}

theorem nestsIn_of_idle (idle : session.loading = []) : session.NestsIn files where
  nodup := by simp [idle]
  readable := by simp [idle]

/-- Nothing but the files being loaded matters. -/
theorem NestsIn.of_loading_eq
    (nests : session.NestsIn files)
    {other : Session}
    (loading_eq : other.loading = session.loading) :
    other.NestsIn files := by
  constructor
  · rw [loading_eq]
    exact nests.nodup
  · rw [loading_eq]
    exact nests.readable

/-- Two addresses for each file that can be read are enough for the files being loaded. -/
theorem NestsIn.length_le (nests : session.NestsIn files) :
    session.loading.length ≤ 2 * files.readable.length := by
  let single := files.readable.map (Files.Address.mk false)
  let double := files.readable.map (Files.Address.mk true)
  have subset : session.loading ⊆ single ++ double := by
    rintro ⟨doubled, location⟩ present
    have readable := Files.Tree.mem_readable (nests.readable _ present)
    cases doubled with
    | false => exact List.mem_append_left _ (List.mem_map_of_mem readable)
    | true => exact List.mem_append_right _ (List.mem_map_of_mem readable)
  calc
    session.loading.length ≤ (single ++ double).length :=
      (List.subperm_of_subset nests.nodup subset).length_le
    _ = 2 * files.readable.length := by
      rw [List.length_append, List.length_map, List.length_map, Nat.two_mul]

/-- Where addresses agree, the files being loaded are different files. -/
theorem NestsIn.nodup_locations
    (nests : session.NestsIn files)
    (agree : Files.Agree session.loading) :
    (session.loading.map Files.Address.location).Nodup :=
  nests.nodup.map_on agree

/-- Where addresses agree, no more files are being loaded than can be read. -/
theorem NestsIn.length_le_of_agree
    (nests : session.NestsIn files)
    (agree : Files.Agree session.loading) :
    session.loading.length ≤ files.readable.length := by
  have subset : session.loading.map Files.Address.location ⊆ files.readable := by
    intro location present
    obtain ⟨address, loading, rfl⟩ := List.mem_map.mp present
    exact Files.Tree.mem_readable (nests.readable address loading)
  calc
    session.loading.length = (session.loading.map Files.Address.location).length :=
      (List.length_map _).symm
    _ ≤ files.readable.length :=
      (List.subperm_of_subset (nests.nodup_locations agree) subset).length_le

/-- A file that is read and was not being loaded is one more. -/
theorem NestsIn.cons
    (nests : session.NestsIn files)
    {address : Files.Address}
    (absent : address ∉ session.loading)
    (readable : files.isReadable address.location = true)
    {inside : Session}
    (loading_eq : inside.loading = address :: session.loading) :
    inside.NestsIn files := by
  constructor
  · rw [loading_eq]
    exact List.nodup_cons.mpr ⟨absent, nests.nodup⟩
  · rw [loading_eq]
    exact List.forall_mem_cons.mpr ⟨readable, nests.readable⟩

end Nesting

/-! ## Two ways to load the same program -/

/--
Reasons to stop that excuse all differences between runs of a number of steps and runs of
another.
-/
structure Excuses (excused : Stop → Prop) (fuel more : Nat) : Prop where
  /-- The source of a failure does not matter. -/
  named : ∀ stop name, excused stop → excused (stop.within name)
  dispatched : ∀ (machine : Machine) (value : Value),
    Tracks excused id (machine.dispatch fuel value) (machine.dispatch more value)

/-- With the same number of steps there is nothing to excuse. -/
theorem excuses_nothing (fuel : Nat) : Excuses (fun _ => False) fuel fuel where
  named _ _ impossible := impossible
  dispatched _ _ := .inr rfl

/-- With more steps only what was cut short is different. -/
theorem excuses_exhausted (fuel extra : Nat) : Excuses (· = .exhausted) fuel (fuel + extra) where
  named stop name exhausted := by
    rw [exhausted]
    rfl
  dispatched machine value := by
    by_cases ended : (machine.dispatch fuel value).Ended
    · exact .inr (Machine.run_add_of_ended ended extra)
    · exact .inl ⟨.exhausted, rfl, not_not.mp ended⟩

section Agreement

variable
  {session : Session}
  {excused : Stop → Prop}
  {fuel more : Nat}
  {inclusion other : Inclusion}

/-- Forms differ no more than the runs of values and the inclusions in them do. -/
theorem tracks_loadForm
    (excuses : Excuses excused fuel more)
    (included : ∀ path inside, inside.loading = session.loading →
      Tracks excused id (inclusion path inside) (other path inside))
    (token : Token)
    (rest : List Token) :
    Tracks excused id
      (session.loadForm fuel inclusion token rest) (session.loadForm more other token rest) := by
  unfold loadForm
  split
  · exact .inr rfl
  · split
    · exact .inr rfl
    · rename_i keyword _ directive argument _
      have applied : Tracks excused id
          ((session.note (.directive keyword argument)).applyDirective inclusion directive argument)
          ((session.note (.directive keyword argument)).applyDirective other directive
            argument) := by
        cases directive with
        | includeFile => exact included argument _ rfl
        | declareVariable | deferWord => exact .inr rfl
      exact applied.andThen fun _ _ _ => .inr rfl
  · split
    · exact .inr rfl
    · rename_i value _ _
      have run : Tracks excused id
          (session.onMachine fun machine => machine.dispatch fuel value)
          (session.onMachine fun machine => machine.dispatch more value) :=
        (excuses.dispatched session.machine value).mapState fun _ => rfl
      exact run.andThen fun _ _ _ => .inr rfl

/-- Programs differ no more than the runs of values and the inclusions in them do. -/
theorem tracks_loadTokens
    (excuses : Excuses excused fuel more)
    (leaves : Leaves ambience inclusion)
    (included : ∀ path inside, inside.loading = session.loading →
      Tracks excused id (inclusion path inside) (other path inside))
    (tokens : List Token) :
    Tracks excused id
      (session.loadTokens fuel inclusion tokens) (session.loadTokens more other tokens) := by
  induction tokens using formInduction generalizing session with
  | nil =>
      rw [loadTokens_nil, loadTokens_nil]
      exact .inr rfl
  | cons token rest inductionHypothesis =>
      rw [loadTokens_cons, loadTokens_cons]
      refine (tracks_loadForm excuses included token rest).andThen fun after later form_eq => ?_
      have ambience_eq : after.ambience = session.ambience :=
        (congrArg (·.state.ambience) form_eq).symm.trans
          (isAmbient_ambience.loadForm leaves token rest)
      have suffix := suffix_of_loadForm (congrArg Outcome.result form_eq)
      refine inductionHypothesis later suffix fun path inside inside_eq => ?_
      exact included path inside (inside_eq.trans (congrArg Ambience.loading ambience_eq))

theorem tracks_loadSource
    (excuses : Excuses excused fuel more)
    (leaves : Leaves ambience inclusion)
    (included : ∀ path inside, inside.loading = session.loading →
      Tracks excused id (inclusion path inside) (other path inside))
    (name : String)
    (tokens : List Token) :
    Tracks excused id
      (session.loadSource fuel inclusion name tokens)
      (session.loadSource more other name tokens) := by
  let inside := { session with source := some name }.note (.loading name tokens.length)
  have includedInside : ∀ path deeper, deeper.loading = inside.loading →
      Tracks excused id (inclusion path deeper) (other path deeper) := included
  have loaded := tracks_loadTokens excuses leaves includedInside tokens
  exact Tracks.mapState (loaded.within fun stop => excuses.named stop name) fun _ => rfl

/--
Files are loaded in the same way however deep includes may nest, if there is room for all
files that can be read, under both of their addresses.
-/
theorem tracks_loadNested
    {files : Files.Tree}
    (excuses : Excuses excused fuel more)
    {nesting deeper : Nat}
    (nests : session.NestsIn files)
    (room : 2 * files.readable.length < nesting + session.loading.length)
    (roomDeeper : 2 * files.readable.length < deeper + session.loading.length)
    (path : String) :
    Tracks excused id
      (loadNested ⟨files, fuel⟩ nesting path session)
      (loadNested ⟨files, more⟩ deeper path session) := by
  induction nesting generalizing deeper path session with
  | zero =>
      have := nests.length_le
      omega
  | succ nesting inductionHypothesis =>
      obtain _ | deeper := deeper
      · have := nests.length_le
        omega
      simp only [loadNested]
      split
      · exact .inr rfl
      · rename_i absent
        split
        · exact .inr rfl
        · rename_i tokens read_eq
          let address := Files.Path.address files.home path
          let inside := { session with loading := address :: session.loading }
          have insideNests : inside.NestsIn files :=
            nests.cons absent (isReadable_of_readFile read_eq) rfl
          have leaves : Leaves ambience (includeBy files (loadNested ⟨files, fuel⟩ nesting)) :=
            isAmbient_ambience.includeBy files (leaves_loadNested _ nesting)
          have included : ∀ included other, other.loading = inside.loading →
              Tracks excused id
                (includeBy files (loadNested ⟨files, fuel⟩ nesting) included other)
                (includeBy files (loadNested ⟨files, more⟩ deeper) included other) := by
            intro included other loading_eq
            let path := locateIncluded files other.source included
            let noted := other.note (.including path)
            have notedNests : noted.NestsIn files := insideNests.of_loading_eq loading_eq
            have length_eq : noted.loading.length = session.loading.length + 1 :=
              congrArg List.length loading_eq
            exact inductionHypothesis notedNests (by omega) (by omega) path
          exact Tracks.mapState (tracks_loadSource excuses leaves included path tokens) fun _ => rfl

end Agreement

/-! ## The recursion of the loader -/

/-- How a session carries inclusions out. -/
def Environment.inclusion (environment : Environment) : Inclusion :=
  includeBy environment.files fun path session => session.loadPath environment path

section Recursion

variable {session : Session} {environment : Environment} {files : Files.Tree} {fuel : Nat}

theorem leaves_inclusion (environment : Environment) : Leaves ambience environment.inclusion :=
  isAmbient_ambience.includeBy environment.files
    (leaves_loadNested environment environment.nesting)

/-- There is room for all files that can be read, under both of their addresses. -/
theorem length_readable_lt_nesting (session : Session) (environment : Environment) :
    2 * environment.files.readable.length < environment.nesting + session.loading.length := by
  have := environment.files.length_readable_le
  unfold Environment.nesting
  omega

/--
A file is refused if it is being loaded, and otherwise read and loaded as a source in which
every include loads a file in the same way.
-/
theorem loadPath_eq
    (nests : session.NestsIn environment.files)
    (path : String) :
    session.loadPath environment path =
      if Files.Path.address environment.files.home path ∈ session.loading then
        .stopped session (.failure ⟨.circular path, session.source⟩)
      else
        match readFile environment.files path with
        | .error stop => .stopped session stop
        | .ok tokens =>
            let address := Files.Path.address environment.files.home path
            let inside := { session with loading := address :: session.loading }
            (inside.loadSource environment.fuel environment.inclusion path tokens).mapState
              fun after => { after with loading := after.loading.tail } := by
  have room := length_readable_lt_nesting session environment
  have roomDeeper : 2 * environment.files.readable.length <
      environment.nesting + 1 + session.loading.length := by omega
  -- One level more is the recursion, and does not matter.
  rcases tracks_loadNested (excuses_nothing environment.fuel) nests room roomDeeper path with
    ⟨stop, impossible, -⟩ | deeper_eq
  · exact impossible.elim
  · exact deeper_eq.symm

/-- What is not cut short is the same with more steps. -/
theorem eq_of_tracks
    {α : Type}
    {shorter longer : Outcome Session α}
    (tracks : Tracks (· = .exhausted) id shorter longer)
    (ended : shorter.Ended) :
    longer = shorter := by
  rcases tracks with ⟨stop, rfl, result_eq⟩ | longer_eq
  · exact absurd result_eq ended
  · exact longer_eq

/-- Files that are loaded to an end are loaded in the same way with more steps. -/
theorem tracks_loadPath
    (nests : session.NestsIn files)
    (extra : Nat)
    (path : String) :
    Tracks (· = .exhausted) id
      (session.loadPath ⟨files, fuel⟩ path) (session.loadPath ⟨files, fuel + extra⟩ path) := by
  have room := length_readable_lt_nesting session ⟨files, fuel⟩
  exact tracks_loadNested (excuses_exhausted fuel extra) nests room room path

theorem tracks_inclusion
    (nests : session.NestsIn files)
    (extra : Nat)
    (path : String) :
    Tracks (· = .exhausted) id
      (Environment.inclusion ⟨files, fuel⟩ path session)
      (Environment.inclusion ⟨files, fuel + extra⟩ path session) := by
  let path := locateIncluded files session.source path
  have noted : (session.note (.including path)).NestsIn files := nests.of_loading_eq rfl
  exact tracks_loadPath noted extra path

/-- A form that ends does so in the same way with more steps. -/
theorem loadForm_add_of_ended
    (nests : session.NestsIn files)
    {token : Token}
    {rest : List Token}
    (ended : (session.loadForm fuel (Environment.inclusion ⟨files, fuel⟩) token rest).Ended)
    (extra : Nat) :
    session.loadForm (fuel + extra) (Environment.inclusion ⟨files, fuel + extra⟩) token rest =
      session.loadForm fuel (Environment.inclusion ⟨files, fuel⟩) token rest := by
  refine eq_of_tracks (tracks_loadForm (excuses_exhausted fuel extra) ?_ token rest) ended
  exact fun path inside loading_eq => tracks_inclusion (nests.of_loading_eq loading_eq) extra path

/-- Tokens that are loaded to an end are loaded in the same way with more steps. -/
theorem loadTokens_add_of_ended
    (nests : session.NestsIn files)
    {tokens : List Token}
    (ended : (session.loadTokens fuel (Environment.inclusion ⟨files, fuel⟩) tokens).Ended)
    (extra : Nat) :
    session.loadTokens (fuel + extra) (Environment.inclusion ⟨files, fuel + extra⟩) tokens =
      session.loadTokens fuel (Environment.inclusion ⟨files, fuel⟩) tokens := by
  have leaves := leaves_inclusion ⟨files, fuel⟩
  refine eq_of_tracks (tracks_loadTokens (excuses_exhausted fuel extra) leaves ?_ tokens) ended
  exact fun path inside loading_eq => tracks_inclusion (nests.of_loading_eq loading_eq) extra path

end Recursion

end Session
end Concatenative

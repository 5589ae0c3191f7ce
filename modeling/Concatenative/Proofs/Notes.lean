import Concatenative.Proofs.Alike
import Concatenative.Proofs.Forms

/-!
# Notes do not matter

A session takes notes and never reads them.  So two sessions that differ in their notes
only load the same program alike: to the same end, and with the same machine and the same
sources being loaded.  The machines themselves may differ in what programs do not depend
on: a relation that changes to the dictionary and runs of values keep is kept by loading.

However a program ends, the source that was being loaded before it is so again.
-/

namespace Concatenative

namespace Outcome

/-- What ends alike with an operation that ended has ended too. -/
theorem Alike.exists_done
    {σ α : Type}
    {related : σ → σ → Prop}
    {first : σ}
    {result : α}
    {right : Outcome σ α}
    (alike : Alike related (done first result) right) :
    ∃ second, right = done second result ∧ related first second := by
  obtain ⟨second, secondResult⟩ := right
  obtain ⟨rfl⟩ : secondResult = .ok result := alike.result_eq
  exact ⟨second, rfl, alike.states⟩

/-- Operations that end alike do so with the same source named. -/
theorem Alike.mapStop
    {σ α : Type}
    {related : σ → σ → Prop}
    {left right : Outcome σ α}
    (alike : Alike related left right)
    (change : Stop → Stop) :
    Alike related (left.mapStop change) (right.mapStop change) :=
  ⟨congrArg (Except.mapError change) alike.result_eq, alike.states⟩

end Outcome

/--
A relation on machines with the same dictionary that changes to the dictionary and runs of
values keep, where the runs end alike.
-/
structure Machine.IsCongruence (related : Machine → Machine → Prop) : Prop where
  dictionary_eq : ∀ left right, related left right → right.dictionary = left.dictionary
  changed : ∀ left right dictionary,
    related left right → related { left with dictionary } { right with dictionary }
  dispatched : ∀ left right fuel value, related left right →
    Outcome.Alike related (left.dispatch fuel value) (right.dispatch fuel value)

theorem Machine.isCongruence_eq : IsCongruence fun left right => right = left where
  dictionary_eq _ _ same := congrArg (fun machine : Machine => machine.dictionary) same
  changed _ _ dictionary same := congrArg (fun machine : Machine => { machine with dictionary }) same
  dispatched left right fuel value same := by
    subst same
    exact ⟨rfl, rfl⟩

namespace Session

/-- The sessions differ in their notes, and in what a relation on machines leaves open. -/
structure SameBut (related : Machine → Machine → Prop) (left right : Session) : Prop where
  machines : related left.machine right.machine
  source_eq : right.source = left.source
  loading_eq : right.loading = left.loading

/-- Inclusions that do not hang on notes, nor on what a relation on machines leaves open. -/
def Respects (related : Machine → Machine → Prop) (inclusion : Inclusion) : Prop :=
  ∀ path left right, SameBut related left right →
    Outcome.Alike (SameBut related) (inclusion path left) (inclusion path right)

namespace SameBut

variable {related : Machine → Machine → Prop} {left right : Session} {inclusion : Inclusion}

theorem dictionary_eq
    (same : SameBut related left right)
    (congruence : Machine.IsCongruence related) :
    right.dictionary = left.dictionary :=
  congruence.dictionary_eq _ _ same.machines

theorem note
    (same : SameBut related left right)
    (leftNote rightNote : Note) :
    SameBut related (left.note leftNote) (right.note rightNote) :=
  ⟨same.machines, same.source_eq, same.loading_eq⟩

theorem dispatch
    (same : SameBut related left right)
    (congruence : Machine.IsCongruence related)
    (fuel : Nat)
    (value : Value) :
    Outcome.Alike (SameBut related)
      (left.onMachine fun machine => machine.dispatch fuel value)
      (right.onMachine fun machine => machine.dispatch fuel value) :=
  (congruence.dispatched _ _ fuel value same.machines).mapState fun _ _ machines =>
    ⟨machines, same.source_eq, same.loading_eq⟩

theorem changeDictionary
    (same : SameBut related left right)
    (congruence : Machine.IsCongruence related)
    (result : Except Error.Cause Dictionary) :
    Outcome.Alike (SameBut related)
      (left.changeDictionary result) (right.changeDictionary result) := by
  cases result with
  | error cause => exact Outcome.alike_stopped same _
  | ok dictionary =>
      have machines := congruence.changed _ _ dictionary same.machines
      exact Outcome.alike_done ⟨machines, same.source_eq, same.loading_eq⟩ ()

theorem define
    (same : SameBut related left right)
    (congruence : Machine.IsCongruence related)
    (name : String)
    (body : Body) :
    Outcome.Alike (SameBut related) (left.define name body) (right.define name body) := by
  unfold Session.define
  rw [same.dictionary_eq congruence]
  refine (same.changeDictionary congruence _).andThen
    fun leftAfter rightAfter _ _ sameAfter => ?_
  simp only [sameAfter.dictionary_eq congruence]
  split
  · exact Outcome.alike_done sameAfter ()
  · exact Outcome.alike_done (sameAfter.note _ _) ()

theorem applyDirective
    (same : SameBut related left right)
    (congruence : Machine.IsCongruence related)
    (respects : Respects related inclusion)
    (directive : Directive)
    (argument : String) :
    Outcome.Alike (SameBut related)
      (left.applyDirective inclusion directive argument)
      (right.applyDirective inclusion directive argument) := by
  unfold Session.applyDirective
  rw [same.dictionary_eq congruence]
  cases directive with
  | includeFile => exact respects argument left right same
  | declareVariable | deferWord =>
      cases Reader.checkName argument with
      | error stop => exact Outcome.alike_stopped same stop
      | ok => exact same.changeDictionary congruence _

/-- A form is loaded alike. -/
theorem loadForm
    (same : SameBut related left right)
    (congruence : Machine.IsCongruence related)
    (fuel : Nat)
    (respects : Respects related inclusion)
    (token : Token)
    (rest : List Token) :
    Outcome.Alike (SameBut related)
      (left.loadForm fuel inclusion token rest) (right.loadForm fuel inclusion token rest) := by
  have handed : ∀ {leftOutcome rightOutcome : Outcome Session Unit} (later : List Token),
      Outcome.Alike (SameBut related) leftOutcome rightOutcome →
        Outcome.Alike (SameBut related)
          (leftOutcome.andThen fun session _ => .done session later)
          (rightOutcome.andThen fun session _ => .done session later) :=
    fun later alike => alike.andThen fun _ _ _ _ sameAfter => Outcome.alike_done sameAfter later
  unfold Session.loadForm
  rw [same.dictionary_eq congruence]
  split
  · split
    · exact Outcome.alike_stopped same _
    · exact handed _ (same.define congruence _ _)
  · split
    · exact Outcome.alike_stopped same _
    · exact handed _ ((same.note _ _).applyDirective congruence respects _ _)
  · split
    · exact Outcome.alike_stopped same _
    · exact handed _ (same.dispatch congruence _ _)

/-- Tokens are loaded alike. -/
theorem loadTokens
    (same : SameBut related left right)
    (congruence : Machine.IsCongruence related)
    (fuel : Nat)
    (respects : Respects related inclusion)
    (tokens : List Token) :
    Outcome.Alike (SameBut related)
      (left.loadTokens fuel inclusion tokens) (right.loadTokens fuel inclusion tokens) := by
  induction tokens using formInduction generalizing left right with
  | nil =>
      rw [loadTokens_nil, loadTokens_nil]
      exact Outcome.alike_done same ()
  | cons token rest inductionHypothesis =>
      rw [loadTokens_cons, loadTokens_cons]
      refine (same.loadForm congruence fuel respects token rest).andThen
        fun leftAfter rightAfter later form_eq sameAfter => ?_
      have suffix := suffix_of_loadForm (congrArg Outcome.result form_eq)
      exact inductionHypothesis later suffix sameAfter

theorem loadSource
    (same : SameBut related left right)
    (congruence : Machine.IsCongruence related)
    (fuel : Nat)
    (respects : Respects related inclusion)
    (name : String)
    (tokens : List Token) :
    Outcome.Alike (SameBut related)
      (left.loadSource fuel inclusion name tokens)
      (right.loadSource fuel inclusion name tokens) := by
  have inside : SameBut related
      ({ left with source := some name }.note (.loading name tokens.length))
      ({ right with source := some name }.note (.loading name tokens.length)) :=
    ⟨same.machines, rfl, same.loading_eq⟩
  unfold Session.loadSource
  refine Outcome.Alike.mapState
    ((inside.loadTokens congruence fuel respects tokens).mapStop _) ?_
  intro first second after
  exact ⟨after.machines, same.source_eq, after.loading_eq⟩

end SameBut

section Inclusions

variable {related : Machine → Machine → Prop}

/-- Inclusions respect what loading the files that are meant does. -/
theorem respects_includeBy
    (files : Files.Tree)
    {load : Inclusion}
    (respects : Respects related load) :
    Respects related (includeBy files load) := by
  intro path left right same
  unfold includeBy
  rw [same.source_eq]
  exact respects _ _ _ (same.note _ _)

/-- Files are loaded alike, however deep includes nest. -/
theorem respects_loadNested
    (congruence : Machine.IsCongruence related)
    (environment : Environment)
    (nesting : Nat) :
    Respects related (loadNested environment nesting) := by
  induction nesting with
  | zero => exact fun path left right same => Outcome.alike_stopped same _
  | succ nesting inductionHypothesis =>
      intro path left right same
      simp only [loadNested, same.loading_eq, same.source_eq]
      split
      · exact Outcome.alike_stopped same _
      · split
        · exact Outcome.alike_stopped same _
        · rename_i tokens read_eq
          have respects := respects_includeBy environment.files inductionHypothesis
          have inside : SameBut related
              { left with
                loading := Files.Path.address environment.files.home path :: left.loading }
              { right with
                source := left.source
                loading := Files.Path.address environment.files.home path :: left.loading } :=
            ⟨same.machines, rfl, rfl⟩
          refine Outcome.Alike.mapState
            (inside.loadSource congruence environment.fuel respects path tokens) ?_
          intro first second after
          exact ⟨after.machines, after.source_eq, by rw [after.loading_eq]⟩

/-- Texts are executed alike. -/
theorem SameBut.execute
    {left right : Session}
    (same : SameBut related left right)
    (congruence : Machine.IsCongruence related)
    (environment : Environment)
    (name text : String) :
    Outcome.Alike (SameBut related)
      (left.execute environment name text) (right.execute environment name text) := by
  have respects := respects_includeBy environment.files
    (respects_loadNested congruence environment environment.nesting)
  unfold Session.execute
  split
  · exact Outcome.alike_stopped same _
  · exact same.loadSource congruence environment.fuel respects name _

end Inclusions

/-! ## Sessions on the same machine -/

/-- The sessions differ in their notes only. -/
abbrev SameButNotes (left right : Session) : Prop :=
  SameBut (fun left right => right = left) left right

/-- Inclusions that do not hang on notes. -/
abbrev IgnoresNotes (inclusion : Inclusion) : Prop :=
  Respects (fun left right => right = left) inclusion

theorem SameButNotes.machine_eq
    {left right : Session}
    (same : SameButNotes left right) :
    right.machine = left.machine :=
  same.machines

/-- Inclusions do not hang on notes if loading the files that are meant does not. -/
theorem ignoresNotes_includeBy
    (files : Files.Tree)
    {load : Inclusion}
    (ignores : IgnoresNotes load) :
    IgnoresNotes (includeBy files load) :=
  respects_includeBy files ignores

theorem ignoresNotes_loadNested (environment : Environment) (nesting : Nat) :
    IgnoresNotes (loadNested environment nesting) :=
  respects_loadNested Machine.isCongruence_eq environment nesting

/-! ## The source being loaded -/

/-- What is included leaves the source being loaded as it was. -/
def KeepsSource (inclusion : Inclusion) : Prop :=
  ∀ path session, (inclusion path session).state.source = session.source

section Source

variable {session : Session} {fuel : Nat} {inclusion : Inclusion}

theorem isAmbient_source : IsAmbient Session.source where
  noted _ _ := rfl
  changed _ _ := rfl
  dispatched _ _ _ := rfl

/-- Loading tokens leaves the source being loaded as it was. -/
theorem source_loadTokens
    (keeps : KeepsSource inclusion)
    (tokens : List Token) :
    (session.loadTokens fuel inclusion tokens).state.source = session.source :=
  isAmbient_source.loadTokens keeps tokens

theorem keepsSource_includeBy
    (files : Files.Tree)
    {load : Inclusion}
    (keeps : KeepsSource load) :
    KeepsSource (includeBy files load) :=
  isAmbient_source.includeBy files keeps

/-- Loading a file leaves the source being loaded as it was. -/
theorem keepsSource_loadNested (environment : Environment) (nesting : Nat) :
    KeepsSource (loadNested environment nesting) := by
  intro path session
  cases nesting with
  | zero => rfl
  | succ nesting =>
      simp only [loadNested]
      split
      · rfl
      · split <;> rfl

end Source

end Session
end Concatenative

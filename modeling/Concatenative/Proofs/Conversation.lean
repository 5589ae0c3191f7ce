import Concatenative.Proofs.Listing
import Concatenative.Proofs.Output
import Concatenative.Session.Repl

/-!
# The interactive loop follows its lines

Between the lines the loop shows the stack.  Nothing that was loaded can make that fail:
the name of the listing is that of a primitive, which is looked up before all other words,
and every line, failed or not, has given back the frames that it opened.  What the listing
prints matters to no line, so the loop comes to what the lines come to one after the other.
-/

namespace Concatenative
namespace Session

variable {session : Session} {environment : Environment} {shown : Bool}

/-! ## Traces -/

namespace SameBut

variable {left right : Session}

theorem withTraces
    (same : SameBut Machine.SameButOutput left right)
    (output : String)
    (notes : List Note) :
    SameBut Machine.SameButOutput left (right.withTraces output notes) :=
  ⟨same.machines.withOutput output, same.source_eq, same.loading_eq⟩

theorem print
    (same : SameBut Machine.SameButOutput left right)
    (text : String) :
    SameBut Machine.SameButOutput left (right.print text) :=
  same.withTraces _ right.notes

/-- Sessions that differ in their traces only are one session with other traces. -/
theorem exists_eq (same : SameBut Machine.SameButOutput left right) :
    ∃ output notes, right = left.withTraces output notes := by
  obtain ⟨⟨⟨stack, dictionary, output⟩, calls, limit⟩, source, loading, notes⟩ := right
  obtain ⟨⟨⟨rfl, rfl⟩, rfl, rfl⟩, rfl, rfl⟩ := same
  exact ⟨output, notes, rfl⟩

end SameBut

/-! ## Prompts -/

/-- Where the stack is to be shown, all of it can be written. -/
abbrev IsShowable (session : Session) (shown : Bool) : Prop :=
  shown = true → ∀ value ∈ session.machine.stack, value.isDisplayable = true

/-- Below the limit on frames the stack is shown, and nothing but the print and the log changes. -/
theorem exists_showStack_eq
    (below : session.machine.calls.depth < session.machine.limit.value)
    (steps : 0 < environment.fuel)
    (showable : session.IsShowable shown) :
    ∃ output notes,
      session.showStack environment shown = .done (session.withTraces output notes) () := by
  cases shown with
  | false => exact ⟨session.machine.output, session.notes, rfl⟩
  | true =>
      have room : (session.print "\n").HasRoom := below
      have written : (Primitive.printStack.effect (session.print "\n").machine.toWorkspace).result =
          .ok [] :=
        Primitive.result_listStack_of_isDisplayable _ (showable rfl)
      exact ⟨_, _, execute_listing_of_ok rfl room steps written⟩

/-- The prompt for a line changes nothing but the print and the log either. -/
theorem exists_invite_eq
    (below : session.machine.calls.depth < session.machine.limit.value)
    (steps : 0 < environment.fuel)
    (showable : session.IsShowable shown) :
    ∃ output notes,
      session.invite environment shown = .done (session.withTraces output notes) () := by
  obtain ⟨output, notes, show_eq⟩ := exists_showStack_eq below steps showable
  exact ⟨output ++ prompt, notes, by rw [invite, show_eq]; rfl⟩

/-! ## Lines -/

/-- What a line of input comes to by itself.  A line that was interrupted comes to nothing. -/
def obey (session : Session) (environment : Environment) : Option String → Outcome Session Unit
  | none => .done session ()
  | some text => session.execute environment "<repl>" text

/--
What lines of input come to one after the other, each from where the one before left off,
whether that failed or not.  Those behind the first one that ends the session are left.
-/
def follow (session : Session) (environment : Environment) : List (Option String) → Session
  | [] => session
  | line :: lines =>
      let outcome := session.obey environment line
      match outcome.result with
      | .error .leave => outcome.state
      | _ => outcome.state.follow environment lines

/--
Wherever the lines lead, each of them ends, no path with a NUL character is to be opened, and
no numeral over the limit is read or written: neither by a line nor where the stack is shown.
-/
def IsTame (session : Session) (environment : Environment) (shown : Bool)
    (lines : List (Option String)) : Prop :=
  session.IsShowable shown ∧
    match lines with
    | [] => True
    | line :: lines =>
        let outcome := session.obey environment line
        match outcome.result with
        | .error .exhausted | .error .embeddedNul | .error (.overlong _) => False
        | .error .leave => True
        | .ok () | .error (.failure _) => outcome.state.IsTame environment shown lines

theorem IsTame.isShowable
    {lines : List (Option String)}
    (tame : session.IsTame environment shown lines) :
    session.IsShowable shown := by
  cases lines with
  | nil | cons => exact tame.1

/-- Decides whether lines are tame, by following them. -/
instance decideIsTame (environment : Environment) (shown : Bool) :
    (session : Session) → (lines : List (Option String)) →
      Decidable (session.IsTame environment shown lines)
  | _, [] => inferInstanceAs (Decidable (_ ∧ True))
  | session, line :: lines =>
      let outcome := session.obey environment line
      have : Decidable
          (match outcome.result with
          | .error .exhausted | .error .embeddedNul | .error (.overlong _) => False
          | .error .leave => True
          | .ok () | .error (.failure _) => outcome.state.IsTame environment shown lines) :=
        match outcome.result with
        | .error .exhausted | .error .embeddedNul | .error (.overlong _) => .isFalse id
        | .error .leave => .isTrue trivial
        | .ok () | .error (.failure _) => decideIsTame environment shown outcome.state lines
      inferInstanceAs (Decidable (_ ∧ _))

/-- A line gives back the frames that it opened. -/
theorem ambience_obey (session : Session) (environment : Environment) (line : Option String) :
    (session.obey environment line).state.ambience = session.ambience := by
  cases line with
  | none => rfl
  | some text => exact ambience_execute environment "<repl>" text

/-! ## Keeping up -/

/-- The sessions that the loop is in when it asks for a line, there being one or not. -/
inductive IsPrompt (environment : Environment) (shown : Bool) :
    Session → List (Option String) → Session → Prop
  | here (session : Session) (lines : List (Option String)) :
      IsPrompt environment shown session lines session
  | later
      {session invited answered before : Session}
      {line : Option String}
      {lines : List (Option String)} :
      session.invite environment shown = .done invited () →
      invited.answer environment line = .done answered true →
      IsPrompt environment shown answered lines before →
      IsPrompt environment shown session (line :: lines) before

/--
The session of the loop has kept up with a bare one, into which the lines were loaded with
no listings in between.  That one is below the limit on frames, and the lines that are left
are tame from there.
-/
structure KeepsUp (environment : Environment) (shown : Bool) (lines : List (Option String))
    (bare session : Session) : Prop where
  same : SameBut Machine.SameButOutput bare session
  below : bare.machine.calls.depth < bare.machine.limit.value
  tame : bare.IsTame environment shown lines

namespace KeepsUp

variable {bare : Session} {line : Option String} {lines : List (Option String)}

theorem exists_invite_eq
    (keeps : KeepsUp environment shown lines bare session)
    (steps : 0 < environment.fuel) :
    ∃ output notes,
      session.invite environment shown = .done (session.withTraces output notes) () := by
  have machines := keeps.same.machines
  refine Session.exists_invite_eq ?_ steps ?_
  · rw [machines.calls_eq, machines.limit_eq]
    exact keeps.below
  · rw [IsShowable, machines.workspace.stack_eq]
    exact keeps.tame.isShowable

/-- Keeping up lasts beyond a line, which gives back the frames that it opened. -/
theorem goOn
    (keeps : KeepsUp environment shown (line :: lines) bare session)
    {answered : Session}
    (same : SameBut Machine.SameButOutput (bare.obey environment line).state answered)
    (tame : (bare.obey environment line).state.IsTame environment shown lines) :
    KeepsUp environment shown lines (bare.obey environment line).state answered where
  same := same
  below := HasRoom.of_ambience_eq keeps.below (ambience_obey bare environment line)
  tame := tame

/--
The loop answers a line as the bare session obeys it: it goes on where the bare session
does, and they leave together.
-/
theorem exists_answer_eq
    (keeps : KeepsUp environment shown (line :: lines) bare session)
    (output : String)
    (notes : List Note) :
    ∃ answered goesOn,
      (session.withTraces output notes).answer environment line = .done answered goesOn ∧
        if goesOn then
          KeepsUp environment shown lines (bare.obey environment line).state answered ∧
            bare.follow environment (line :: lines) =
              (bare.obey environment line).state.follow environment lines
        else SameBut Machine.SameButOutput (bare.follow environment (line :: lines)) answered := by
  have invited := keeps.same.withTraces output notes
  cases line with
  | none =>
      exact ⟨_, true, rfl, keeps.goOn (invited.print _) keeps.tame.2, rfl⟩
  | some text =>
      have alike := invited.execute Machine.isCongruence_sameButOutput environment "<repl>" text
      have rest := keeps.tame.2
      simp only [follow, answer, alike.result_eq]
      simp only [obey] at rest ⊢
      -- Both executions have one result, and the loop and the bare session branch on it alike.
      cases result_eq : (bare.execute environment "<repl>" text).result with
      | ok =>
          rw [result_eq] at rest
          exact ⟨_, true, rfl, keeps.goOn alike.states rest, rfl⟩
      | error stop =>
          rw [result_eq] at rest
          cases stop with
          | failure failure =>
              have states := alike.states.print (failure.report.line ++ "\n")
              exact ⟨_, true, rfl, keeps.goOn states rest, rfl⟩
          | leave => exact ⟨_, false, rfl, alike.states⟩
          | overlong | embeddedNul | exhausted => exact rest.elim

/-- The loop ends normally, where following the lines ends. -/
theorem exists_converse_eq
    (keeps : KeepsUp environment shown lines bare session)
    (steps : 0 < environment.fuel) :
    ∃ after, session.converse environment shown lines = .done after () ∧
      SameBut Machine.SameButOutput (bare.follow environment lines) after := by
  induction lines generalizing bare session with
  | nil =>
      obtain ⟨output, notes, invite_eq⟩ := keeps.exists_invite_eq steps
      exact ⟨_, invite_eq, keeps.same.withTraces output notes⟩
  | cons line lines inductionHypothesis =>
      obtain ⟨output, notes, invite_eq⟩ := keeps.exists_invite_eq steps
      obtain ⟨answered, goesOn, answer_eq, outlook⟩ := keeps.exists_answer_eq output notes
      simp only [converse, invite_eq, answer_eq, Outcome.andThen_done]
      cases goesOn with
      | false => exact ⟨answered, rfl, outlook⟩
      | true =>
          obtain ⟨keepsOn, follow_eq⟩ := outlook
          rw [follow_eq]
          exact inductionHypothesis keepsOn

/-- The loop keeps up with the bare session until each of its prompts. -/
theorem exists_of_isPrompt
    {before : Session}
    (isPrompt : IsPrompt environment shown session lines before)
    (keeps : KeepsUp environment shown lines bare session)
    (steps : 0 < environment.fuel) :
    ∃ later reached, KeepsUp environment shown later reached before := by
  induction isPrompt generalizing bare with
  | here session lines => exact ⟨lines, bare, keeps⟩
  | later invite_eq answer_eq _ inductionHypothesis =>
      obtain ⟨output, notes, invited_eq⟩ := keeps.exists_invite_eq steps
      obtain ⟨answered, goesOn, answered_eq, outlook⟩ := keeps.exists_answer_eq output notes
      obtain ⟨rfl, -⟩ := Outcome.done_inj.mp (invite_eq.symm.trans invited_eq)
      obtain ⟨rfl, rfl⟩ := Outcome.done_inj.mp (answer_eq.symm.trans answered_eq)
      exact inductionHypothesis outlook.1

end KeepsUp

/--
Where there is a frame to spare, the loop lets out neither the errors of its lines nor the
end of the session: it ends normally, in what the lines come to one after the other, but
for what was printed and the log.  Nor does showing the stack in front of any line fail, or
change anything else.
-/
theorem repl_follows
    (session : Session)
    (environment : Environment)
    (shown : Bool)
    (lines : List (Option String))
    (below : session.machine.calls.depth < session.machine.limit.value)
    (steps : 0 < environment.fuel)
    (tame : session.IsTame environment shown lines) :
    (∃ output notes, session.repl environment shown lines =
        .done ((session.follow environment lines).withTraces output notes) ()) ∧
      ∀ before, IsPrompt environment shown session lines before →
        ∃ output notes,
          before.invite environment shown = .done (before.withTraces output notes) () := by
  have keeps : KeepsUp environment shown lines session session :=
    ⟨⟨.refl _, rfl, rfl⟩, below, tame⟩
  constructor
  · obtain ⟨after, converse_eq, same⟩ := keeps.exists_converse_eq steps
    obtain ⟨output, notes, farewell_eq⟩ := (same.print farewell).exists_eq
    exact ⟨output, notes, by rw [repl, converse_eq, Outcome.andThen_done, farewell_eq]⟩
  · intro before isPrompt
    obtain ⟨later, reached, kept⟩ := keeps.exists_of_isPrompt isPrompt steps
    exact kept.exists_invite_eq steps

/-- A failed line leaves the operands it did not take, and the lines behind `bye` are left. -/
theorem repl_follows_bye :
    let session := initial .standard
    let environment : Environment := ⟨.empty [], 9⟩
    let lines := [some "5 6 7 drop lost", none, some "+ bye 2", some "clear"]
    session.IsTame environment true lines ∧
      ∃ output notes, session.repl environment true lines =
        .done ((session.follow environment lines).withTraces output notes) () ∧
          ((session.follow environment lines).machine.stack matches [.int 11]) = true := by
  intro session environment lines
  have tame : session.IsTame environment true lines := by decide +kernel
  have general := repl_follows session environment true lines (by decide) (by decide) tame
  obtain ⟨output, notes, repl_eq⟩ := general.1
  exact ⟨tame, output, notes, repl_eq, by decide +kernel⟩

/-- A line that includes a path with a NUL character stops the loop, and the rest is left. -/
theorem repl_stops_embeddedNul :
    let session := initial .standard
    let environment : Environment := ⟨.empty [], 9⟩
    let outcome := session.repl environment false [some "2 :include \"a\x00b\"", some "3"]
    session.machine.calls.depth < session.machine.limit.value ∧
      (outcome.result matches .error .embeddedNul) = true ∧
      (outcome.state.machine.stack matches [.int 2]) = true := by
  intro session environment outcome
  exact ⟨by decide, by decide +kernel, by decide +kernel⟩

end Session
end Concatenative

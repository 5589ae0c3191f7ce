import Concatenative.Proofs.Notes

/-!
# What was printed does not matter

A machine prints and never reads what it printed.  So two machines that differ in the
printed text only go on in lockstep, and so do sessions on them.
-/

namespace Concatenative

/-- The workspaces differ in the printed text only. -/
structure Workspace.SameButOutput (left right : Workspace) : Prop where
  stack_eq : right.stack = left.stack
  dictionary_eq : right.dictionary = left.dictionary

namespace Workspace.SameButOutput

variable {left right : Workspace}

theorem alike (same : SameButOutput left right) : left.Alike False right where
  stack_eq := same.stack_eq
  store_eq := congrArg Dictionary.store same.dictionary_eq
  output_eq := False.elim

/-- No primitive depends on the printed text. -/
theorem alike_effect (same : SameButOutput left right) (primitive : Primitive) :
    Outcome.Alike (Alike False) (primitive.effect left) (primitive.effect right) := by
  by_cases lists : primitive = .printWords
  · subst lists
    simp only [Primitive.effect, Primitive.listWords, same.dictionary_eq]
    exact (same.alike.printLine _).printEach _ _ _
  · exact primitive.alike_effect same.alike fun printsWords => absurd printsWords lists

theorem alike_react (same : SameButOutput left right) (value : Value) :
    Outcome.Alike (Alike False) (left.react value) (right.react value) := by
  unfold Workspace.react
  split
  · unfold invoke
    rw [same.dictionary_eq]
    split
    · exact same.alike.failed _
    · exact same.alike_effect _
    · split
      · exact same.alike.failed _
      · exact Outcome.alike_done same.alike _
  · exact (same.alike.push _).settled

/-- Executing a value leaves the printed text as the only difference. -/
theorem react (same : SameButOutput left right) (value : Value) :
    Outcome.Alike SameButOutput (left.react value) (right.react value) := by
  have alike := same.alike_react value
  have words_eq : (right.react value).state.dictionary.words =
      (left.react value).state.dictionary.words := by
    rw [(right.sameNames_react value).words_eq, (left.sameNames_react value).words_eq,
      same.dictionary_eq]
  exact ⟨alike.result_eq, alike.states.stack_eq, Dictionary.ext words_eq alike.states.store_eq⟩

end Workspace.SameButOutput

/-- The machines differ in the printed text only. -/
structure Machine.SameButOutput (left right : Machine) : Prop where
  workspace : left.toWorkspace.SameButOutput right.toWorkspace
  calls_eq : right.calls = left.calls
  limit_eq : right.limit = left.limit

namespace Machine.SameButOutput

variable {left right : Machine}

theorem refl (machine : Machine) : machine.SameButOutput machine :=
  ⟨⟨rfl, rfl⟩, rfl, rfl⟩

theorem withOutput
    (same : SameButOutput left right)
    (output : String) :
    SameButOutput left { right with output } :=
  ⟨⟨same.workspace.stack_eq, same.workspace.dictionary_eq⟩, same.calls_eq, same.limit_eq⟩

theorem withCalls
    (same : SameButOutput left right)
    (calls : CallStack) :
    SameButOutput { left with calls } { right with calls } :=
  ⟨⟨same.workspace.stack_eq, same.workspace.dictionary_eq⟩, rfl, same.limit_eq⟩

theorem enter (same : SameButOutput left right) (body : Body) :
    Outcome.Alike SameButOutput (left.enter body) (right.enter body) := by
  unfold Machine.enter
  rw [same.calls_eq, same.limit_eq]
  split
  · exact Outcome.alike_done same ()
  · split
    · exact Outcome.alike_stopped same _
    · exact Outcome.alike_done ⟨same.workspace, rfl, rfl⟩ ()

theorem execute (same : SameButOutput left right) (value : Value) :
    Outcome.Alike SameButOutput (left.execute value) (right.execute value) := by
  have reacted := same.workspace.react value
  have states : SameButOutput
      (left.withWorkspace (left.toWorkspace.react value).state)
      (right.withWorkspace (right.toWorkspace.react value).state) :=
    ⟨reacted.states, same.calls_eq, same.limit_eq⟩
  exact Outcome.Alike.andThen ⟨reacted.result_eq, states⟩
    fun first second body _ related => related.enter body

theorem step (same : SameButOutput left right) :
    Outcome.Alike SameButOutput left.step right.step := by
  unfold Machine.step
  rw [same.calls_eq]
  split
  · exact Outcome.alike_done same ()
  · exact (same.withCalls _).execute _

/-- Runs stay in lockstep. -/
theorem runAbove (same : SameButOutput left right) (base fuel : Nat) :
    Outcome.Alike SameButOutput (left.runAbove base fuel) (right.runAbove base fuel) := by
  induction fuel generalizing left right with
  | zero =>
      unfold Machine.runAbove
      rw [same.calls_eq]
      split
      · exact Outcome.alike_done same ()
      · exact Outcome.alike_stopped same _
  | succ fuel inductionHypothesis =>
      unfold Machine.runAbove
      rw [same.calls_eq]
      split
      · exact Outcome.alike_done same ()
      · exact same.step.andThen fun first second _ _ related => inductionHypothesis related

theorem run (same : SameButOutput left right) (fuel : Nat) (body : Body) :
    Outcome.Alike SameButOutput (left.run fuel body) (right.run fuel body) := by
  rw [run_eq, run_eq, same.calls_eq]
  have inside : Outcome.Alike SameButOutput
      ((left.enter body).andThen fun inside _ => inside.runAbove left.calls.depth fuel)
      ((right.enter body).andThen fun inside _ => inside.runAbove left.calls.depth fuel) :=
    (same.enter body).andThen fun first second _ _ related => related.runAbove _ fuel
  refine inside.mapState fun first second related => ?_
  unfold unwind
  rw [related.calls_eq]
  exact related.withCalls _

end Machine.SameButOutput

/-- Loading does not depend on what was printed. -/
theorem Machine.isCongruence_sameButOutput : IsCongruence SameButOutput where
  dictionary_eq _ _ same := same.workspace.dictionary_eq
  changed _ _ _ same := ⟨⟨same.workspace.stack_eq, rfl⟩, same.calls_eq, same.limit_eq⟩
  dispatched _ _ fuel value same := same.run fuel [value]

end Concatenative

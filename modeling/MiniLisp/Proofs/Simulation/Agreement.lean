import MiniLisp.Proofs.Simulation.Programs
import MiniLisp.Proofs.Simulation.Reachability

/-! Runs that finish together, each at whatever depth it takes, and outcomes that agree. -/

namespace MiniLisp

/-- Two runs finish together: where one finishes, so does the other, and the ways in which they do
go together.
-/
structure FinishTogether {Left Right After After' : Type} (first : Left → After → Prop)
    (second : Right → After' → Prop) (together : Left → After → Right → After' → Prop)
    : Prop where
  follows
    : ∀ {left after},
        first left after → ∃ right after', second right after' ∧ together left after right after'
  leads
    : ∀ {right after'},
        second right after' → ∃ left after, first left after ∧ together left after right after'

/-- What is known of the two runs may be used in saying how they go together. -/
theorem FinishTogether.imp {Left Right After After' : Type} {first : Left → After → Prop}
    {second : Right → After' → Prop} {together other : Left → After → Right → After' → Prop}
    (finish : FinishTogether first second together)
    (leads
      : ∀ {left after right after'},
          first left after
          → second right after'
          → together left after right after'
          → other left after right after')
    : FinishTogether first second other := by
  constructor
  · intro left after done
    obtain ⟨right, after', done', both⟩ := finish.follows done
    exact ⟨right, after', done', leads done done' both⟩
  · intro right after' done'
    obtain ⟨left, after, done, both⟩ := finish.leads done'
    exact ⟨left, after, done, leads done done' both⟩

/-- Runs that finish together with runs of a third kind finish together. -/
theorem FinishTogether.through {Left Middle Right After Between After' : Type}
    {first : Left → After → Prop} {second : Middle → Between → Prop}
    {third : Right → After' → Prop} {together : Left → After → Middle → Between → Prop}
    {together' : Right → After' → Middle → Between → Prop}
    (finish : FinishTogether first second together)
    (finish' : FinishTogether third second together')
    : FinishTogether first third fun left after right after' =>
        ∃ middle between,
          second middle between
          ∧ together left after middle between
          ∧ together' right after' middle between := by
  constructor
  · intro left after done
    obtain ⟨middle, between, run, both⟩ := finish.follows done
    obtain ⟨right, after', done', both'⟩ := finish'.leads run
    exact ⟨right, after', done', middle, between, run, both, both'⟩
  · intro right after' done'
    obtain ⟨middle, between, run, both'⟩ := finish'.follows done'
    obtain ⟨left, after, done, both⟩ := finish.leads run
    exact ⟨left, after, done, middle, between, run, both, both'⟩

/-- Runs that end together at each depth finish together. -/
theorem finishTogether_of_ends {Left Right After After' : Type}
    {run : Nat → Except Abort (Left × After)} {run' : Nat → Except Abort (Right × After')}
    {together : Left → After → Right → After' → Prop}
    (ends
      : ∀ depth,
          EndTogether False False (fun left right => together left.1 left.2 right.1 right.2)
            (run depth) (run' depth))
    : FinishTogether (fun left after => ∃ depth, run depth = .ok (left, after))
        (fun right after' => ∃ depth, run' depth = .ok (right, after')) together := by
  constructor
  · rintro left after ⟨depth, finished⟩
    have both := ends depth
    rw [finished] at both
    obtain ⟨ended, finished', agree⟩ := both.exists_right not_false
    exact ⟨ended.1, ended.2, ⟨depth, finished'⟩, agree⟩
  · rintro right after' ⟨depth, finished'⟩
    have both := ends depth
    rw [finished'] at both
    obtain ⟨ended, finished, agree⟩ := both.exists_left not_false
    exact ⟨ended.1, ended.2, ⟨depth, finished⟩, agree⟩

/-- Closures with the same parameters and the same body. -/
structure Closure.SameCode (left right : Closure) : Prop where
  parameters : left.parameters = right.parameters
  body : left.body = right.body

/-- Closures with the same printed form. -/
def Closure.SameText (left right : Closure) : Prop :=
  left.text = right.text

namespace Eval

/-- The call of a value with operands finishes with this outcome on this machine. -/
def CallFinishes (callee : Value) (args : List Value) (machine : Machine)
    (outcome : Except EvalError Value) (after : Machine)
    : Prop :=
  ∃ depth, (Eval.apply (evaluate depth) callee args).on machine = .ok (outcome, after)

/-- Outcomes that agree: values that do, closures up to a relation, or errors in the same words. -/
inductive SameOutcome (closures : Closure → Closure → Prop)
    : Except EvalError Value → Except EvalError Value → Prop
  | value {value value'} (alike : Value.Alike closures value value')
    : SameOutcome closures (.ok value) (.ok value')
  | failure {error error' : EvalError} (words : error.message = error'.message)
    : SameOutcome closures (.error error) (.error error')

/-- Corresponding outcomes agree, where corresponding closures have the same parameters. -/
theorem sameOutcome_of_outcomes {c : Correspondence} {w : c.World}
    {closures : Closure → Closure → Prop}
    (named : ∀ left right, c.closures w left right → left.parameters = right.parameters)
    (weaken : ∀ left right, c.closures w left right → closures left right)
    (malformed : ∀ what what', c.malformed what what' → what = what')
    {outcome outcome' : Except EvalError Value}
    (together : c.Outcomes w (c.Values w) outcome outcome')
    : SameOutcome closures outcome outcome' := by
  cases together with
  | ok alike => exact .value (alike.imp weaken)
  | error alike =>
      have equal := alike.imp (fun _ _ same => same) malformed
      exact .failure (equal.message_eq named)

end Eval

end MiniLisp

import MiniLisp.Proofs.Invariants.Rules

/-! Running forms, and texts, keeps every invariant that holds of their code. -/

namespace MiniLisp.Invariant

open Session

variable {I : Invariant} {store : Store}

/-- The invariant holds of an outcome in a store. A text that could not be read is no evaluation's
fault.
-/
def Allows (I : Invariant) (store : Store) : Outcome → Prop
  | .ok value => I.Values store value
  | .error (.eval error) => I.Raises store error
  | .error (.read _) => True

/-- What forms that obey the invariant come to. -/
inductive FormsEnd (I : Invariant) (before : Store) : Except Abort (List Outcome × Machine) → Prop
  | outcomes {outcomes machine} (grows : I.Grows before machine.store)
    (stores : I.stores machine.store)
    (allowed : ∀ outcome ∈ outcomes, I.Allows machine.store outcome)
    : FormsEnd I before (.ok (outcomes, machine))
  | tooDeep : FormsEnd I before (.error .tooDeep)

variable {depth : Nat} {text : String} {env : FrameId} {machine : Machine}

/-- Forms run in order end in the store where the last of them did, so an error among the outcomes
is right about that store; by induction on the forms.
-/
theorem formsEnd_runForms {forms : List Expr} (stores : I.stores machine.store)
    (frame : I.frames machine.store env) (code : ∀ form ∈ forms, I.code form)
    : I.FormsEnd machine.store ((runForms depth text env forms).run machine) := by
  induction forms generalizing machine with
  | nil => exact .outcomes (refl_of I.Grows _) stores fun _ member => nomatch member
  | cons form rest ih =>
      rw [List.forall_mem_cons] at code
      rw [runForms_cons]
      have ends := obeys_evaluate I depth frame code.1 machine (refl_of I.Grows _) stores
      generalize (evaluate depth form env).on machine = ended at ends
      cases ends with
      | tooDeep => exact .tooDeep
      | failure grows stores' raises =>
          exact .outcomes grows stores' (List.forall_mem_singleton.mpr raises)
      | @value result middle grows stores' holds =>
          have others := ih stores' (I.frames_mono grows frame) code.2
          simp only [Except.bind, goOn]
          generalize (runForms depth text env rest).run middle = last at others
          cases others with
          | tooDeep => exact .tooDeep
          | outcomes grows' stores'' allowed =>
              refine .outcomes (trans_of I.Grows grows grows') stores'' ?_
              exact List.forall_mem_cons.mpr ⟨values_mono grows' holds, allowed⟩

/-- A text is run as the forms that it reads to are, and one that cannot be read does nothing. -/
theorem formsEnd_runText (stores : I.stores machine.store) (frame : I.frames machine.store env)
    (code : ∀ forms, Expr.read text = .ok forms → ∀ form ∈ forms, I.code form)
    : I.FormsEnd machine.store ((runText depth text env).run machine) := by
  rw [runText_run]
  split
  · next forms found =>
      let noted : Machine := { machine with trace := machine.trace.push (.read forms.length text) }
      have storesNoted : I.stores noted.store := stores
      exact formsEnd_runForms storesNoted frame (code forms found)
  · exact .outcomes (refl_of I.Grows _) stores (List.forall_mem_singleton.mpr trivial)

end MiniLisp.Invariant

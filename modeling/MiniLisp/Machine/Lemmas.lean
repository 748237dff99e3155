import MiniLisp.Machine.Basic

/-! What computations come to on a machine, one equation for each way to build one. -/

namespace MiniLisp

variable {Result Next : Type}

namespace Run

/-- A result alone leaves the machine as it is. -/
@[simp]
theorem run_pure (result : Result) (machine : Machine)
    : (pure result : Run Result).run machine = .ok (result, machine) :=
  rfl

/-- A sequence goes on from what its first part leaves, by cases on how that ends. -/
theorem run_bind (first : Run Result) (next : Result → Run Next) (machine : Machine)
    : (first >>= next).run machine
      = match first.run machine with
        | .ok (result, machine) => (next result).run machine
        | .error reason => .error reason := by
  rw [StateT.run_bind]
  cases first.run machine <;> rfl

/-- A sequence finishes where its first part does and what follows does from there. -/
theorem run_bind_eq_ok {first : Run Result} {next : Result → Run Next} {machine : Machine}
    {ended : Next × Machine}
    : (first >>= next).run machine = .ok ended
      ↔ ∃ result middle,
          first.run machine = .ok (result, middle) ∧ (next result).run middle = .ok ended := by
  rw [run_bind]
  rcases first.run machine with reason | ⟨result, middle⟩
  · simp
  · constructor
    · exact fun finished => ⟨result, middle, rfl, finished⟩
    · rintro ⟨_, _, same, finished⟩
      cases same
      exact finished

/-- An event goes to the end of the trace. -/
@[simp]
theorem run_emit (event : Event) (machine : Machine)
    : (emit event).run machine = .ok ((), { machine with trace := machine.trace.push event }) :=
  rfl

/-- A change of the store leaves the trace as it is. -/
@[simp]
theorem run_changeStore (change : Store → Result × Store) (machine : Machine)
    : (changeStore change).run machine
      = .ok ((change machine.store).1, { machine with store := (change machine.store).2 }) :=
  rfl

/-- A look at the store changes nothing. -/
@[simp]
theorem run_readStore (look : Store → Result) (machine : Machine)
    : (readStore look).run machine = .ok (look machine.store, machine) :=
  rfl

/-- A computation given up has no result. -/
@[simp]
theorem run_abort (reason : Abort) (machine : Machine)
    : (abort reason : Run Result).run machine = .error reason :=
  rfl

end Run

namespace Eval

/-- A value alone leaves the machine as it is. -/
@[simp]
theorem on_pure (result : Result) (machine : Machine)
    : (pure result : Eval Result).on machine = .ok (.ok result, machine) :=
  rfl

/-- An error alone leaves the machine as it is. -/
@[simp]
theorem on_throw (error : EvalError) (machine : Machine)
    : (throw error : Eval Result).on machine = .ok (.error error, machine) :=
  rfl

/-- A sequence goes on from what its first part leaves, unless that fails or is aborted. -/
theorem on_bind (first : Eval Result) (next : Result → Eval Next) (machine : Machine)
    : (first >>= next).on machine
      = match first.on machine with
        | .ok (.ok result, machine) => (next result).on machine
        | .ok (.error error, machine) => .ok (.error error, machine)
        | .error reason => .error reason := by
  unfold on
  rw [ExceptT.run_bind, Run.run_bind]
  rcases first.run.run machine with _ | ⟨_ | _, _⟩ <;> rfl

/-- A computation as an evaluation ends as it does by itself, by cases on how that is. -/
theorem on_lift (run : Run Result) (machine : Machine)
    : (lift run).on machine
      = match run.run machine with
        | .ok (result, machine) => .ok (.ok result, machine)
        | .error reason => .error reason := by
  unfold on lift
  rw [ExceptT.run_lift, StateT.run_map]
  rcases run.run machine with _ | ⟨_, _⟩ <;> rfl

/-- An outcome alone leaves the machine as it is. -/
@[simp]
theorem on_ofOutcome (outcome : Except EvalError Result) (machine : Machine)
    : (ofOutcome outcome).on machine = .ok (outcome, machine) :=
  rfl

/-- An event goes to the end of the trace. -/
@[simp]
theorem on_emit (event : Event) (machine : Machine)
    : (emit event).on machine
      = .ok (.ok (), { machine with trace := machine.trace.push event }) :=
  rfl

/-- A change of the store leaves the trace as it is. -/
@[simp]
theorem on_changeStore (change : Store → Result × Store) (machine : Machine)
    : (changeStore change).on machine
      = .ok (.ok (change machine.store).1,
          { machine with store := (change machine.store).2 }) :=
  rfl

/-- An evaluation given up has no outcome. -/
@[simp]
theorem on_abort (reason : Abort) (machine : Machine)
    : (abort reason : Eval Result).on machine = .error reason :=
  rfl

/-- An accepted operand count is no error. -/
theorem on_checkArity_of_admits {expected : Arity} {got : Nat} (admits : expected.Admits got)
    (name : String) (machine : Machine)
    : (checkArity expected got name).on machine = .ok (.ok (), machine) := by
  rw [checkArity, if_pos admits, on_pure]

/-- A refused operand count is an error that says so. -/
theorem on_checkArity_of_not_admits {expected : Arity} {got : Nat}
    (refused : ¬ expected.Admits got) (name : String) (machine : Machine)
    : (checkArity expected got name).on machine
      = .ok (.error (.arityMismatch ⟨name, expected, got⟩), machine) := by
  rw [checkArity, if_neg refused, on_throw]

/-- A name's meaning is the store's, and a name without one is an error. -/
theorem on_fetch (env : FrameId) (name : String) (machine : Machine)
    : (fetch env name).on machine
      = .ok ((machine.store.lookup? env name).elim (.error (.undefinedName name)) .ok,
          machine) := by
  unfold fetch
  rw [on_bind, on_lift, Run.run_readStore]
  cases machine.store.lookup? env name <;> rfl

/-- A definition binds its name in the store. -/
@[simp]
theorem on_define (env : FrameId) (name : String) (value : Value) (machine : Machine)
    : (define env name value).on machine
      = .ok (.ok (), { machine with store := machine.store.bind env name value }) :=
  rfl

/-- A noted return has the evaluation's outcome, and the note at the end of the trace. -/
theorem on_noteReturn (evaluation : Eval Value) (machine : Machine)
    : (noteReturn evaluation).on machine
      = match evaluation.on machine with
        | .ok (outcome, machine) =>
            .ok (outcome, { machine with trace := machine.trace.push (.closureReturned outcome) })
        | .error reason => .error reason := by
  unfold noteReturn on
  rw [ExceptT.run_mk, Run.run_bind]
  rcases evaluation.run.run machine with _ | ⟨_, _⟩ <;> rfl

end Eval

end MiniLisp

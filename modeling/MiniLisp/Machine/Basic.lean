import MiniLisp.Store.Basic
import MiniLisp.Trace

/-! Computations on a machine: a store and the trace so far.
A computation ends in three ways. It gives a result; as an evaluation it gives an evaluation error
instead, and keeps what it did before; or it is aborted, which no program can observe.
-/

namespace MiniLisp

/-- The store, and what has been noted down since the trace was last taken. -/
structure Machine where
  store : Store
  trace : Array Event

/-- A promise between two parts of the evaluator that was not kept. -/
inductive Breach
  | operandCount (name : String) (count : Nat)
  | emptyApplication
deriving DecidableEq

/-- Why a computation was given up: evaluations were nested too deep, or a promise was broken. -/
inductive Abort
  | tooDeep
  | breach (what : Breach)
deriving DecidableEq

/-- A computation on a machine, which may be aborted. -/
abbrev Run := StateT Machine (Except Abort)

/-- An evaluation: a computation that may end in an evaluation error. -/
abbrev Eval := ExceptT EvalError Run

namespace Run

/-- Gives the computation up. -/
def abort {Result : Type} (reason : Abort) : Run Result :=
  fun _ => .error reason

/-- Notes an event down. -/
def emit (event : Event) : Run Unit :=
  modify fun machine => { machine with trace := machine.trace.push event }

/-- Looks at the store. -/
def readStore {Result : Type} (look : Store → Result) : Run Result :=
  fun machine => .ok (look machine.store, machine)

/-- Changes the store and gives what the change has to say. -/
def changeStore {Result : Type} (change : Store → Result × Store) : Run Result :=
  modifyGet fun machine =>
    let (result, store) := change machine.store
    (result, { machine with store })

/-- Gives what has been noted down, and starts a new trace. -/
def takeTrace : Run (Array Event) :=
  modifyGet fun machine => (machine.trace, { machine with trace := #[] })

end Run

namespace Eval

/-- What an evaluation comes to on a machine: the value or error with the machine it leaves, unless
it is aborted.
-/
def on {Result : Type} (evaluation : Eval Result) (machine : Machine)
    : Except Abort (Except EvalError Result × Machine) :=
  evaluation.run.run machine

/-- The evaluation that has this outcome and does nothing. -/
def ofOutcome {Result : Type} (outcome : Except EvalError Result) : Eval Result :=
  ExceptT.mk (pure outcome)

/-- A computation as an evaluation without errors. -/
def lift {Result : Type} (run : Run Result) : Eval Result :=
  ExceptT.lift run

/-- Gives the evaluation up. -/
def abort {Result : Type} (reason : Abort) : Eval Result :=
  lift (Run.abort reason)

/-- Notes an event down. -/
def emit (event : Event) : Eval Unit :=
  lift (Run.emit event)

/-- Changes the store and gives what the change has to say. -/
def changeStore {Result : Type} (change : Store → Result × Store) : Eval Result :=
  lift (Run.changeStore change)

/-- Complains about an operand count that is not accepted. -/
def checkArity (expected : Arity) (got : Nat) (name : String) : Eval Unit :=
  if expected.Admits got then pure () else throw (.arityMismatch ⟨name, expected, got⟩)

/-- What a name means in a frame. -/
def fetch (env : FrameId) (name : String) : Eval Value := do
  match ← lift (Run.readStore (·.lookup? env name)) with
  | some value => return value
  | none => throw (.undefinedName name)

/-- Binds a name in a frame. -/
def define (env : FrameId) (name : String) (value : Value) : Eval Unit :=
  changeStore fun store => ((), store.bind env name value)

/-- Runs an evaluation and notes down how a closure's call ended. -/
def noteReturn (evaluation : Eval Value) : Eval Value :=
  ExceptT.mk do
    let outcome ← evaluation.run
    Run.emit (.closureReturned outcome)
    return outcome

end Eval

end MiniLisp

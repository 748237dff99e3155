import MiniLisp.Proofs.Scope.SoundRuns

/-! Sessions: what may be done with environments and values, step after step.
Texts are run, expressions evaluated and procedures applied, frames made and names bound, in any
order. A step uses frames that are there and values that the session has come by.
-/

namespace MiniLisp.Session

/-- Where a session has got to: its machine, the global frames made in it, and the values that its
steps have given so far.
-/
structure State where
  machine : Machine
  globals : List FrameId
  given : List Value

namespace State

/-- The store of a session. -/
abbrev store (state : State) : Store :=
  state.machine.store

/-- Nothing has been made yet. -/
def start : State :=
  ⟨⟨∅, #[]⟩, [], []⟩

/-- The session after a step that leaves this machine and gives these values. -/
def next (state : State) (machine : Machine) (values : List Value) : State :=
  { state with machine, given := values ++ state.given }

/-- The session after a step that leaves this store and gives these values. -/
def nextStore (state : State) (store : Store) (values : List Value) : State :=
  state.next { state.machine with store } values

/-- The value exists in the session: it is no closure, or it is held in a frame, or a step has given
it.
-/
inductive HasValue (state : State) : Value → Prop
  | plain {value} (noClosure : ∀ closure, value ≠ .closure closure) : HasValue state value
  | held {id name value} (bound : state.store.local? id name = some value) : HasValue state value
  | given {value} (member : value ∈ state.given) : HasValue state value

end State

/-- One step of a session. Runs may fail, as long as they come to an end. -/
inductive Step (state : State) : State → Prop
  | global
    : Step state
        { state.nextStore state.store.addGlobal.2 [] with
          globals := state.store.addGlobal.1 :: state.globals }
  | text {depth text env outcomes after} (present : env < state.store.frames.size)
    (finished : (runText depth text env).run state.machine = .ok (outcomes, after))
    : Step state (state.next after (outcomes.flatMap Outcome.values))
  | eval {depth expr env outcome after} (present : env < state.store.frames.size)
    (finished : (evaluate depth expr env).on state.machine = .ok (outcome, after))
    : Step state (state.next after (Outcome.values (outcome.mapError .eval)))
  | apply {depth callee args outcome after} (known : ∀ value ∈ callee :: args, state.HasValue value)
    (finished : (Eval.apply (evaluate depth) callee args).on state.machine = .ok (outcome, after))
    : Step state (state.next after (Outcome.values (outcome.mapError .eval)))
  | spawn {parent} (present : parent < state.store.frames.size)
    : Step state (state.nextStore (state.store.spawn parent).2 [])
  | set {env name value} (present : env < state.store.frames.size) (known : state.HasValue value)
    : Step state
        (state.nextStore (state.store.set env name value).2
          (state.store.set env name value).1.toList)

/-- The names that every global frame binds from the start. -/
def globalNames : List String :=
  ["true", "false", "+", "-", "*", "=", "<"]

end MiniLisp.Session

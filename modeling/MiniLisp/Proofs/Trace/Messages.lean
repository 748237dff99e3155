import MiniLisp.Proofs.Evaluation.Depth
import MiniLisp.Proofs.Trace.Calls

/-! The messages of a log, told apart by how they begin.
Nothing that is noted down can be taken for a call or a return that it is not: the texts of the
expressions and values that messages show stand behind words that no other message begins with.
-/

namespace MiniLisp

namespace Message

/-- The message begins with these words. -/
def begins (words message : String) : Bool :=
  message.startsWith words

/-- The message says that a closure is called. -/
def callsClosure (message : String) : Bool :=
  begins "Call #<procedure " message

/-- The message says that a closure has returned. -/
def returnsClosure (message : String) : Bool :=
  begins "closure returned" message

/-- The message says that this primitive is called. -/
def calls (primitive : Primitive) (message : String) : Bool :=
  begins ("Call " ++ primitive.name ++ " with ") message

/-- The message says what the primitive makes of these operands: that it resulted in a value, or
that it failed.
-/
inductive Answers (primitive : Primitive) (args : List Value) : String → Prop
  | resulted {value} (computed : primitive.compute? args = some (.ok value))
    : Answers primitive args ("Call to " ++ primitive.name ++ " resulted in " ++ value.text)
  | failed {error} (computed : primitive.compute? args = some (.error error))
    : Answers primitive args ("Call to " ++ primitive.name ++ " failed: " ++ error.message)

theorem begins_iff {words message : String}
    : begins words message = true ↔ words.toList <+: message.toList :=
  String.startsWith_string_iff

theorem callsClosure_message (event : Event)
    : callsClosure event.message = event.callsClosure := by
  rw [callsClosure, Bool.eq_iff_iff, begins_iff]
  cases event with
  | callClosure closure args =>
    -- the words of the event come first; what is left is to compare their characters
    dsimp only [Event.message]
    simp [Event.callsClosure, Closure.text]
  | callPrimitive primitive args =>
    dsimp only [Event.message]
    cases primitive <;> simp [Event.callsClosure, Primitive.name]
  | primitiveReturned primitive outcome =>
    cases outcome <;> dsimp only [Event.message] <;> simp [Event.callsClosure]
  | _ =>
    dsimp only [Event.message]
    simp [Event.callsClosure]

theorem returnsClosure_message (event : Event)
    : returnsClosure event.message = event.returnsClosure := by
  rw [returnsClosure, Bool.eq_iff_iff, begins_iff]
  cases event with
  | primitiveReturned primitive outcome =>
    cases outcome <;> dsimp only [Event.message] <;> simp [Event.returnsClosure]
  | _ =>
    dsimp only [Event.message]
    simp [Event.returnsClosure]

theorem eq_callPrimitive_of_calls {primitive : Primitive} {event : Event}
    (called : calls primitive event.message = true)
    : ∃ args, event = .callPrimitive primitive args := by
  rw [calls, begins_iff] at called
  cases event with
  | callPrimitive other args =>
    dsimp only [Event.message] at called
    cases primitive <;> cases other <;> simp_all [Primitive.name]
  | callClosure closure args =>
    dsimp only [Event.message] at called
    cases primitive <;> simp [Primitive.name, Closure.text] at called
  | primitiveReturned other outcome =>
    cases outcome <;> dsimp only [Event.message] at called <;>
      cases primitive <;> simp [Primitive.name] at called
  | _ =>
    dsimp only [Event.message] at called
    simp at called

end Message

/-- The log of an evaluation with this outcome: returns never run ahead of the calls of closures,
each call has its return but for one that is refused, and each call of a primitive is followed at
once by what it comes to.
-/
structure BalancedLog (messages : List String) (outcome : Except EvalError Value) : Prop where
  returns_le
    : ∀ front,
        front <+: messages
        → front.countP Message.returnsClosure ≤ front.countP Message.callsClosure
  returned
    : (∀ error, outcome = .error error → ¬ error.RefusesClosure)
      → messages.countP Message.callsClosure = messages.countP Message.returnsClosure
  refused
    : ∀ error,
        outcome = .error error
        → error.RefusesClosure
        → messages.countP Message.callsClosure = messages.countP Message.returnsClosure + 1
  answered
    : ∀ primitive before message rest,
        messages = before ++ message :: rest
        → Message.calls primitive message
        → ∃ args answer more,
            message = "Call " ++ primitive.name ++ " with " ++ Event.argsText args
            ∧ rest = answer :: more
            ∧ Message.Answers primitive args answer

theorem Answered.messages {events : List Event} (answered : Answered events) {primitive : Primitive}
    {before rest : List String} {message : String}
    (among : events.map Event.message = before ++ message :: rest)
    (called : Message.calls primitive message)
    : ∃ args answer more,
        message = "Call " ++ primitive.name ++ " with " ++ Event.argsText args
        ∧ rest = answer :: more
        ∧ Message.Answers primitive args answer := by
  obtain ⟨front, back, rfl, rfl, shown⟩ := List.map_eq_append_iff.mp among
  obtain ⟨event, behind, rfl, rfl, rfl⟩ := List.map_eq_cons_iff.mp shown
  obtain ⟨args, rfl⟩ := Message.eq_callPrimitive_of_calls called
  obtain ⟨outcome, more, computed, rfl⟩ := answered front primitive args behind rfl
  refine ⟨args, _, _, rfl, rfl, ?_⟩
  cases outcome with
  | ok value => exact .resulted computed
  | error error => exact .failed computed

/-- Events in order make a balanced log, since messages tell of calls and returns what the events
do.
-/
theorem InOrder.balancedLog {left : Nat} {events : List Event} {outcome : Except EvalError Value}
    (inOrder : InOrder left events) (leaves : LeavesOpen outcome left)
    : BalancedLog (events.map Event.message) outcome := by
  have balanced : Balanced Message.callsClosure Message.returnsClosure left
      (events.map Event.message) :=
    inOrder.balanced.map Message.callsClosure_message Message.returnsClosure_message
  refine ⟨balanced.closed_le, fun free => ?_, fun error failed refused => ?_,
    fun _ _ _ _ => inOrder.answered.messages⟩
  · cases leaves with
    | value | failure _ => exact balanced.level
    | refusal refused => exact absurd refused (free _ rfl)
  · subst failed
    cases leaves with
    | failure returned => exact absurd refused returned
    | refusal _ => exact balanced.level

/-- What has been noted down so far, in words. -/
def Machine.messages (machine : Machine) : List String :=
  machine.trace.toList.map Event.message

namespace Eval

open MiniLisp.Expr

theorem NotesInOrder.balancedLog {evaluation : Eval Value} (inOrder : NotesInOrder evaluation)
    {machine after : Machine} {outcome : Except EvalError Value}
    (finished : evaluation.on machine = .ok (outcome, after))
    : ∃ messages, after.messages = machine.messages ++ messages ∧ BalancedLog messages outcome := by
  obtain ⟨events, left, added, leaves, inOrder⟩ := inOrder machine outcome after finished
  refine ⟨events.map Event.message, ?_, inOrder.balancedLog leaves⟩
  rw [Machine.messages, added, List.map_append, Machine.messages]

/-- Every evaluation that finishes adds a balanced log to what has been noted down before it, of
whatever expression in whatever frame, and so does every call of a value with whatever operands.
-/
theorem calls_and_returns_balance (depth : Nat) (machine after : Machine)
    (outcome : Except EvalError Value)
    : (∀ expr env,
          (evaluate depth expr env).on machine = .ok (outcome, after)
          → ∃ messages,
              after.messages = machine.messages ++ messages ∧ BalancedLog messages outcome)
      ∧ ∀ callee args,
          (apply (evaluate depth) callee args).on machine = .ok (outcome, after)
          → ∃ messages,
              after.messages = machine.messages ++ messages ∧ BalancedLog messages outcome :=
  ⟨fun expr env => (notesInOrder_evaluate depth expr env).balancedLog,
    fun callee args =>
      (notesInOrder_apply (notesInOrder_evaluate depth) callee args).balancedLog⟩

/-- An application with a sum among its operands, of a procedure that calls another one with an
operand too many.
-/
def refusedInside : Expr :=
  .list
    [form .lambda
        [.list [.symbol "x"], .list [form .lambda [.list [], .number .zero], .number .one]],
      .list [.symbol "+", .number .one, .number .one]]

/-- Of the two closures called here the inner one never returns and the outer one does. A closure
that is called as it should be returns.
-/
theorem refused_call_never_returns
    : (∃ outcome after,
        (evaluate 3 refusedInside 0).on ⟨(Store.addGlobal ∅).2, #[]⟩ = .ok (outcome, after)
        ∧ after.messages.countP Message.callsClosure = 2
        ∧ after.messages.countP Message.returnsClosure = 1
        ∧ BalancedLog after.messages outcome)
      ∧ ∃ outcome after,
        (apply (evaluate 1) (.closure ⟨0, ["x"], .number .zero, 0⟩) [.unspecified]).on
            ⟨(Store.addGlobal ∅).2, #[]⟩
          = .ok (outcome, after)
        ∧ after.messages.countP Message.callsClosure = 1
        ∧ BalancedLog after.messages outcome := by
  constructor
  · have seen
        : ((evaluate 3 refusedInside 0).on ⟨(Store.addGlobal ∅).2, #[]⟩).map (fun ended =>
            (ended.2.messages.countP Message.callsClosure,
              ended.2.messages.countP Message.returnsClosure))
          = .ok (2, 1) := by
      decide +kernel
    obtain ⟨⟨outcome, after⟩, finished, counted⟩ := exists_of_map_eq_ok seen
    obtain ⟨calls, returns⟩ := Prod.mk.inj counted
    obtain ⟨messages, added, balanced⟩ :=
      (calls_and_returns_balance 3 ⟨(Store.addGlobal ∅).2, #[]⟩ after outcome).1 _ 0 finished
    obtain rfl : after.messages = messages := added
    exact ⟨outcome, after, finished, calls, returns, balanced⟩
  · have seen
        : ((apply (evaluate 1) (.closure ⟨0, ["x"], .number .zero, 0⟩) [.unspecified]).on
              ⟨(Store.addGlobal ∅).2, #[]⟩).map
            (fun ended => ended.2.messages.countP Message.callsClosure)
          = .ok 1 := by
      decide +kernel
    obtain ⟨⟨outcome, after⟩, finished, calls⟩ := exists_of_map_eq_ok seen
    obtain ⟨messages, added, balanced⟩ :=
      (calls_and_returns_balance 1 ⟨(Store.addGlobal ∅).2, #[]⟩ after outcome).2 _ _ finished
    obtain rfl : after.messages = messages := added
    exact ⟨outcome, after, finished, calls, balanced⟩

end Eval

end MiniLisp

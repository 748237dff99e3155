import MiniLisp.Inspect

/-! The trace: what reading, evaluation and the shell note down as they go.
Events are kept as data and turned into lines of the log on demand.
-/

namespace MiniLisp

/-- What is noted down. -/
inductive Event
  | read (forms : Nat) (text : String)
  | eval (expr : Expr)
  | define (name : String) (value : Value)
  | callClosure (closure : Closure) (args : List Value)
  | closureReturned (outcome : Except EvalError Value)
  | callPrimitive (primitive : Primitive) (args : List Value)
  | primitiveReturned (primitive : Primitive) (outcome : Except EvalError Value)
  | abandon (text : String)
  | load (path : String)
  | plainInput

/-- The weight of an event in the log. -/
inductive Level
  | trace
  | debug
  | info

namespace Level

/-- The level's mark in the log. -/
def text : Level → String
  | trace => "TRACE"
  | debug => "DEBUG"
  | info => "INFO"

end Level

namespace Event

/-- The weight of an event: finished steps of a program are debugging notes, what the shell sets
out to do is information, and the rest is detail.
-/
def level : Event → Level
  | define .. => .debug
  | abandon .. => .debug
  | load .. => .info
  | plainInput => .info
  | _ => .trace

/-- The part of the program that the log names as an event's origin. -/
def origin : Event → String
  | read .. => "charme::reader"
  | eval .. => "charme::evaluator"
  | define .. => "charme::special_forms"
  | callClosure .. => "charme::evaluator"
  | closureReturned .. => "charme::evaluator"
  | callPrimitive .. => "charme::evaluator"
  | primitiveReturned .. => "charme::evaluator"
  | abandon .. => "charme::interpreter"
  | load .. => "charme::cmdline"
  | plainInput => "charme::cmdline"

/-- The operands of a call: several stand on lines of their own. -/
def argsText : List Value → String
  | [] => "no args"
  | [arg] => arg.text
  | args => String.join (args.map fun arg => "\n\t" ++ arg.text)

/-- The event in words. -/
def message : Event → String
  | read forms text => "read " ++ Nat.repr forms ++ " form(s) from " ++ Text.quoted text
  | eval expr => "eval " ++ expr.text
  | define name value => "define " ++ name ++ " as " ++ value.text
  | callClosure closure args => "Call " ++ closure.text ++ " with " ++ argsText args
  | closureReturned outcome => "closure returned " ++ Inspect.outcome EvalError.inspect outcome
  | callPrimitive primitive args => "Call " ++ primitive.name ++ " with " ++ argsText args
  | primitiveReturned primitive (.ok value) =>
      "Call to " ++ primitive.name ++ " resulted in " ++ value.text
  | primitiveReturned primitive (.error error) =>
      "Call to " ++ primitive.name ++ " failed: " ++ error.message
  | abandon text => "abandoning the rest of " ++ Text.quoted text
  | load path => "loading " ++ path
  | plainInput => "stdin is not a terminal, reading plain lines"

/-- The event's line in the log. -/
def line (event : Event) : String :=
  event.level.text ++ " " ++ event.origin ++ ": " ++ event.message

end Event

end MiniLisp

import MiniLisp.Eval.Basic

/-! Sessions: texts read and evaluated in a frame, one after another. -/

namespace MiniLisp

/-- Why a text gave no further result: it could not be read, or one of its forms failed. -/
inductive Failure
  | read (error : ReadError)
  | eval (error : EvalError)
deriving DecidableEq

namespace Failure

/-- The words for a failure. -/
def message : Failure → String
  | read error => "read error: " ++ error.message
  | eval error => error.message

/-- The inspection text of a failure. -/
def inspect : Failure → String
  | read error => Inspect.tagged "Read" error.inspect
  | eval error => Inspect.tagged "Eval" error.inspect

end Failure

/-- What came of one form, or of a text that could not be read. -/
abbrev Outcome := Except Failure Value

namespace Session

/-- Reads a text and, if it can be read, notes down how many forms it has. -/
def readText (text : String) : Run (Except ReadError (List Expr)) := do
  match Expr.read text with
  | .ok forms =>
      Run.emit (.read forms.length text)
      return .ok forms
  | .error error => return .error error

/-- Evaluates the forms of a text in order, up to the first that fails. What was defined before it
stays defined.
-/
def runForms (depth : Nat) (text : String) (env : FrameId) : List Expr → Run (List Outcome)
  | [] => return []
  | form :: rest => do
      match ← (evaluate depth form env).run with
      | .ok value => return .ok value :: (← runForms depth text env rest)
      | .error error =>
          Run.emit (.abandon text)
          return [.error (.eval error)]

/-- Reads a text and evaluates its forms in a frame. A text that cannot be read has its reading
error as its only outcome.
-/
def runText (depth : Nat) (text : String) (env : FrameId) : Run (List Outcome) := do
  match ← readText text with
  | .ok forms => runForms depth text env forms
  | .error error => return [.error (.read error)]

end Session

end MiniLisp

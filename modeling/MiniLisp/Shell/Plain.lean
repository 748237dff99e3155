import MiniLisp.Shell.Fault
import MiniLisp.Shell.Respond
import MiniLisp.Text.Lines

/-! The plain shell: lines from a stream, each answered in turn, without a prompt. -/

namespace MiniLisp.Shell

open MiniLisp.Text

/-- What a piece of a stream asks of the shell. -/
inductive Request
  | line (text : String)
  | quit
  | notText
deriving DecidableEq

namespace Request

/-- The request in a piece of a stream. One carriage return more at the end of its line is dropped
before the line is taken as it stands.
-/
def ofPiece (piece : Bytes) : Request :=
  match decode? (dropLastIf carriageReturn (lineOf piece)) with
  | none => notText
  | some text => if text = quitWord then quit else line text

/-- The requests of a stream. -/
def ofStream (stream : Bytes) : List Request :=
  (pieces stream).map ofPiece

end Request

/-- Answers requests in order until one of them ends the shell. -/
def answer (depth : Nat) (env : FrameId) : List Request → Run (Report InputFault)
  | [] => return ⟨[], none⟩
  | .line text :: rest => do
      let responses ← respond depth env false text
      return (← answer depth env rest).after responses
  | .quit :: _ => return ⟨[], none⟩
  | .notText :: _ => return ⟨[], some .notText⟩

/-- Answers a stream. -/
def plain (depth : Nat) (env : FrameId) (stream : Bytes) : Run (Report InputFault) :=
  answer depth env (Request.ofStream stream)

end MiniLisp.Shell

import MiniLisp.Shell.Interactive
import MiniLisp.Shell.Launch

/-! The program: its command line, files, input and output. -/

namespace MiniLisp.Main

open MiniLisp.Text MiniLisp.Shell

/-- A nesting that no program reaches. -/
def depth : Nat :=
  1000000000000000000

/-- The machine between two computations, and the global frame that everything runs in. -/
structure Console where
  machine : IO.Ref Machine
  env : FrameId

/-- A machine with one global frame. -/
def start : IO Console := do
  let (env, store) := Store.addGlobal ∅
  return ⟨← IO.mkRef ⟨store, #[]⟩, env⟩

/-- Goes on with the machine, and forgets the trace. -/
def perform {Result : Type} (console : Console) (run : Run Result) : IO Result := do
  let machine ← console.machine.swap ⟨∅, #[]⟩
  match run.run machine with
  | .ok (result, machine) =>
      console.machine.set { machine with trace := #[] }
      return result
  | .error _ => throw (IO.userError "evaluation given up")

/-- The system's number for an error, which may come with its sign turned. -/
def number (code : UInt32) : Nat :=
  code.toInt32.toInt.natAbs

/-- The refusal that stands for a failed read. -/
def refusalOf : IO.Error → Refusal
  | .noFileOrDirectory .. => .missing
  | .inappropriateType _ code words =>
      if number code = Refusal.notADirectory.code then .notADirectory
      else if number code = Refusal.isADirectory.code then .isADirectory
      else ⟨number code, "Other", words⟩
  | .permissionDenied .. => .denied
  | other => ⟨0, "Other", toString other⟩

/-- What a path gives. -/
def readFile (path : String) : IO (Except InputFault Bytes) := do
  match ← (IO.FS.readBinFile path).toBaseIO with
  | .ok bytes => return .ok bytes.data.toList
  | .error error => return .error (.refused (refusalOf error))

/-- Runs scripts in order, and shows what each has to show before the next is read. -/
def runScripts (console : Console) : List String → IO (Option Fault)
  | [] => return none
  | path :: rest => do
      let report ← perform console (runScript depth console.env path (← readFile path))
      IO.print report.output
      match report.fault with
      | some fault => return some fault
      | none => runScripts console rest

/-- Reads up to a line feed or the end. -/
partial def readPiece (input : IO.FS.Stream) (reversed : Bytes) : IO Bytes := do
  match (← input.read 1).data[0]? with
  | none => return reversed.reverse
  | some byte =>
      if byte = lineFeed then return (byte :: reversed).reverse
      else readPiece input (byte :: reversed)

/-- Answers the input line by line, after a prompt if there is one. -/
partial def answerInput (console : Console) (promptText : String) (colour : Bool)
    (input output : IO.FS.Stream) : IO (Option Fault) := do
  output.putStr promptText
  output.flush
  let piece ← readPiece input []
  if piece.isEmpty then return none
  match Request.ofPiece piece with
  | .quit => return none
  | .notText => return some (.io .notText)
  | .line text =>
      (← perform console (respond depth console.env colour text)).forM output.putStrLn
      answerInput console promptText colour input output

/-- Runs the scripts named on the command line, or a shell where none is. -/
def launch (scripts : List String) : IO (Option Fault) := do
  let console ← start
  match scripts with
  | [] =>
      let input ← IO.getStdin
      let output ← IO.getStdout
      if ← input.isTty then answerInput console prompt (← output.isTty) input output
      else answerInput console "" false input output
  | scripts => runScripts console scripts

end MiniLisp.Main

/-- Launches the program. A fault is shown by its inspection text and makes the program fail. -/
def main (arguments : List String) : IO UInt32 := do
  match ← MiniLisp.Main.launch arguments with
  | none => return 0
  | some fault =>
      IO.eprintln ("Error: " ++ fault.inspect)
      return 1

import MiniLisp.Shell.Plain

/-! Launching: scripts named on the command line, or the plain shell where none is. -/

namespace MiniLisp.Shell

open MiniLisp.Text

/-- What a path gives when it is read. -/
abbrev Disk := String → Except InputFault Bytes

/-- What a script shows: the values of its forms up to the first failure, which is the fault. -/
def scriptReport (path : String) : List Outcome → Report Fault
  | [] => ⟨[], none⟩
  | .ok value :: rest => (scriptReport path rest).after (valueLine? value).toList
  | .error failure :: _ => ⟨[], some (.script path failure)⟩

/-- Runs a script, given what its path gives. It is read as a whole before any of it runs. -/
def runScript (depth : Nat) (env : FrameId) (path : String)
    (contents : Except InputFault Bytes) : Run (Report Fault) := do
  Run.emit (.load path)
  match contents with
  | .error fault => return ⟨[], some (.io fault)⟩
  | .ok bytes =>
      match decode? bytes with
      | none => return ⟨[], some (.io .notText)⟩
      | some text => return scriptReport path (← Session.runText depth text env)

/-- Runs scripts in order, up to the first that fails. -/
def runScripts (depth : Nat) (env : FrameId) (disk : Disk) : List String → Run (Report Fault)
  | [] => return ⟨[], none⟩
  | path :: rest => do
      let report ← runScript depth env path (disk path)
      match report.fault with
      | some _ => return report
      | none => return (← runScripts depth env disk rest).after report.lines

/-- Runs the plain shell over the program's input. -/
def runPlain (depth : Nat) (env : FrameId) (stream : Bytes) : Run (Report Fault) := do
  Run.emit .plainInput
  let report ← plain depth env stream
  return ⟨report.lines, report.fault.map .io⟩

/-- Runs what the command line asks for. Its first word names the program and the others name
scripts; without scripts the program's input, which is no terminal, is answered.
-/
def launch (depth : Nat) (env : FrameId) (disk : Disk) (commandLine : List String)
    (stream : Bytes) : Run (Report Fault) :=
  match commandLine.drop 1 with
  | [] => runPlain depth env stream
  | scripts => runScripts depth env disk scripts

end MiniLisp.Shell

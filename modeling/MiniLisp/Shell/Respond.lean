import MiniLisp.Session

/-! The shell's response to a text. -/

namespace MiniLisp.Shell

/-- A text in red on a terminal. -/
def red (text : String) : String :=
  "\x1b[31m" ++ text ++ "\x1b[0m"

/-- The line shown for a failure. -/
def failureLine (colour : Bool) (failure : Failure) : String :=
  let text := "Error: " ++ failure.message
  if colour then red text else text

/-- The line shown for a value: none for a value that has nothing to show. -/
def valueLine? : Value → Option String
  | .unspecified => none
  | value => some value.text

/-- The line shown for an outcome. -/
def outcomeLine? (colour : Bool) : Outcome → Option String
  | .ok value => valueLine? value
  | .error failure => some (failureLine colour failure)

/-- The lines shown in response to a text that is read and evaluated in a frame. -/
def respond (depth : Nat) (env : FrameId) (colour : Bool) (text : String)
    : Run (List String) := do
  return (← Session.runText depth text env).filterMap (outcomeLine? colour)

/-- The line that ends a shell session. Any further character makes it an ordinary line. -/
def quitWord : String := "quit"

/-- Lines shown so far, and what went wrong after them. -/
structure Report (Fault : Type) where
  lines : List String
  fault : Option Fault

namespace Report

variable {Fault : Type}

/-- A report that has lines shown before its own. -/
def after (report : Report Fault) (lines : List String) : Report Fault :=
  { report with lines := lines ++ report.lines }

/-- The lines as one text, each ended by a line feed. -/
def output (report : Report Fault) : String :=
  String.join (report.lines.map (· ++ "\n"))

end Report

end MiniLisp.Shell

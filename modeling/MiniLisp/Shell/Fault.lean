import MiniLisp.Session

/-! Faults that end a shell: input that cannot be had, and scripts that fail. -/

namespace MiniLisp.Shell

/-- A refusal of the operating system: its number, its kind and its words. -/
structure Refusal where
  code : Nat
  kind : String
  words : String
deriving DecidableEq

namespace Refusal

/-- There is nothing of that name. -/
def missing : Refusal :=
  ⟨2, "NotFound", "No such file or directory"⟩

/-- The file may not be read. -/
def denied : Refusal :=
  ⟨13, "PermissionDenied", "Permission denied"⟩

/-- Something other than a directory stands on the way. -/
def notADirectory : Refusal :=
  ⟨20, "NotADirectory", "Not a directory"⟩

/-- A directory cannot be read as a file. -/
def isADirectory : Refusal :=
  ⟨21, "IsADirectory", "Is a directory"⟩

end Refusal

/-- Why input cannot be had: the system refuses it, or it is no text. -/
inductive InputFault
  | refused (refusal : Refusal)
  | notText
deriving DecidableEq

namespace InputFault

/-- The words for input that is no text. -/
def notTextWords : String :=
  "stream did not contain valid UTF-8"

/-- The words for an input fault. -/
def message : InputFault → String
  | refused refusal => refusal.words ++ " (os error " ++ Nat.repr refusal.code ++ ")"
  | notText => notTextWords

/-- The inspection text of an input fault. -/
def inspect : InputFault → String
  | refused refusal =>
      "Os \x7b code: " ++ Nat.repr refusal.code ++ ", kind: " ++ refusal.kind ++ ", message: "
        ++ Text.quoted refusal.words ++ " \x7d"
  | notText =>
      "Error \x7b kind: InvalidData, message: " ++ Text.quoted notTextWords ++ " \x7d"

end InputFault

/-- Why a shell ended before its input did. -/
inductive Fault
  | io (fault : InputFault)
  | script (path : String) (failure : Failure)
deriving DecidableEq

namespace Fault

/-- The words for a fault. -/
def message : Fault → String
  | io fault => "io error: " ++ fault.message
  | script path failure => path ++ ": " ++ failure.message

/-- The inspection text of a fault. -/
def inspect : Fault → String
  | io fault => Inspect.tagged "Io" fault.inspect
  | script path failure =>
      "Script \x7b path: " ++ Text.quoted path ++ ", error: " ++ failure.inspect ++ " \x7d"

end Fault

end MiniLisp.Shell

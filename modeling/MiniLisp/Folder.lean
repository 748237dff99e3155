import MiniLisp.Shell.Launch

/-! A working directory in memory, which holds files and no other directory, and how paths lead
through it.
-/

namespace MiniLisp

open MiniLisp.Text MiniLisp.Shell

/-- Files by name, in the order they were written. -/
structure Folder where
  files : List (String × Bytes)

namespace Folder

/-- The contents of the file of a name: what was written last. -/
def contents? (folder : Folder) (name : String) : Option Bytes :=
  (folder.files.reverse.find? (·.1 = name)).map (·.2)

/-- Follows the steps of a path from a directory, which is the folder itself or, when `inside` is
false, one outside it of which nothing is known. A step that names the directory itself stays, and
no step leads on from a file.
-/
def follow (folder : Folder) (inside : Bool) : List String → Except InputFault Bytes
  | [] => .error (.refused .isADirectory)
  | step :: rest =>
      if step = "" ∨ step = "." then follow folder inside rest
      else if step = ".." then follow folder false rest
      else
        match (if inside then folder.contents? step else none) with
        | none => .error (.refused .missing)
        | some bytes => if rest.isEmpty then .ok bytes else .error (.refused .notADirectory)

/-- Reads the file that a path leads to. The empty path leads nowhere, and a path that starts with
a slash leads outside the folder.
-/
def read (folder : Folder) (path : String) : Except InputFault Bytes :=
  if path = "" then .error (.refused .missing)
  else folder.follow (!path.startsWith "/") (path.splitOn "/")

end Folder

end MiniLisp

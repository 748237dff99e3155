import MiniLisp.Shell.Respond

/-! The interactive shell: lines typed on a terminal after a prompt, with their responses on the
screen, and a history of the lines.
-/

namespace MiniLisp.Shell

/-- What comes of reading a line on a terminal. -/
inductive Reading
  | line (text : String)
  | endOfInput
  | signal (name : String)
  | fault (words : String)
deriving DecidableEq

/-- A terminal with a line editor: how it reads a line, and how it keeps one in its history unless
that has it at the end.
-/
structure Terminal (State : Type) where
  read : State → Reading × State
  remember : String → State → State

/-- What was read, and the lines written in response. -/
structure Exchange where
  reading : Reading
  responses : List String

/-- Reads and responds until a line quits, or input ends, or none can be had. A signal is reported
and the next line is read. There may be more to read however often this was done, so the number of
turns is bounded.
-/
def interact {State : Type} (terminal : Terminal State) (depth : Nat) (env : FrameId)
    (colour : Bool)
    : Nat → State → Run (List Exchange × State)
  | 0, _ => Run.abort .tooDeep
  | turns + 1, state => do
      let (reading, state) := terminal.read state
      match reading with
      | .endOfInput => return ([⟨reading, []⟩], state)
      | .fault words => return ([⟨reading, ["Error: " ++ words]⟩], state)
      | .signal name =>
          let (exchanges, state) ← interact terminal depth env colour turns state
          return (⟨reading, ["Received signal " ++ name]⟩ :: exchanges, state)
      | .line text =>
          if text = quitWord then return ([⟨reading, []⟩], state)
          else
            let responses ← respond depth env colour text
            let (exchanges, state) ←
              interact terminal depth env colour turns (terminal.remember text state)
            return (⟨reading, responses⟩ :: exchanges, state)

-----------------------------------------------------------------------------------------
-- A terminal in memory
-----------------------------------------------------------------------------------------

/-- A history with one more line, unless that is the last one already. -/
def addUnique (history : List String) (line : String) : List String :=
  if history.getLast? = some line then history else history ++ [line]

/-- The lines that are still to be typed, and the history of those that were. -/
structure Typing where
  pending : List String
  history : List String

namespace Typing

/-- Reads the next line, or the end of input behind the last one. -/
def read (typing : Typing) : Reading × Typing :=
  match typing.pending with
  | [] => (.endOfInput, typing)
  | line :: rest => (.line line, { typing with pending := rest })

/-- Keeps a line in the history. -/
def remember (line : String) (typing : Typing) : Typing :=
  { typing with history := addUnique typing.history line }

/-- The terminal that has nothing but lines to be typed and a history. -/
def terminal : Terminal Typing where
  read
  remember

end Typing

/-- What stands before a line to be typed. -/
def prompt : String := "charme> "

/-- What was read in a session and written in response, and the history to keep. -/
structure Conversation where
  exchanges : List Exchange
  history : List String

/-- Holds a conversation over the lines typed until one of them quits or there are no more. -/
def converse (depth : Nat) (env : FrameId) (lines : List String) : Run Conversation := do
  let (exchanges, typing) ←
    interact Typing.terminal depth env false (lines.length + 1) ⟨lines, []⟩
  return ⟨exchanges, typing.history⟩

/-- A line without the spaces at its end. -/
def dropTrailingSpaces (line : String) : String :=
  String.ofList (line.toList.reverse.dropWhile (· == ' ')).reverse

/-- Lines without the empty ones at the end. -/
def dropTrailingEmpty (lines : List String) : List String :=
  (lines.reverse.dropWhile (·.isEmpty)).reverse

/-- What a terminal shows for what was typed. -/
def Reading.echo : Reading → String
  | line text => text
  | endOfInput | signal _ | fault _ => ""

/-- The lines that an exchange puts on the screen. -/
def Exchange.written (exchange : Exchange) : List String :=
  (prompt ++ exchange.reading.echo) :: exchange.responses

/-- What can be seen on the screen of a conversation, where blanks at an end cannot. -/
def Conversation.screen (conversation : Conversation) : List String :=
  dropTrailingEmpty ((conversation.exchanges.flatMap Exchange.written).map dropTrailingSpaces)

end MiniLisp.Shell

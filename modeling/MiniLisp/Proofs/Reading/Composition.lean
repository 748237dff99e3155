import Mathlib.Data.String.Basic
import MiniLisp.Proofs.Reading.Descent
import MiniLisp.Proofs.Reading.Joining

/-! Reading a text and then more: where the reader stands after some tokens, it goes on with others.
A text that is read composes with any other behind a blank, and a wrong one is wrong whatever comes
behind it. An incomplete text is neither: closing delimiters make it one that is read.
-/

namespace MiniLisp

open MiniLisp.Text

namespace Expr

/-- How far reading has come: the items of the innermost open list, or the forms outside any list,
last first, and those of the lists around it, innermost first.
-/
structure Stage where
  done : List Expr
  outer : List (List Expr)

namespace Stage

/-- Nothing has been read. -/
def start : Stage :=
  ⟨[], []⟩

/-- Reads one token more, if reading can go on with it. -/
def absorb (stage : Stage) : Token → Except ReadError Stage
  | .opening => .ok ⟨[], stage.done :: stage.outer⟩
  | .closing =>
      match stage.outer with
      | [] => .error .unmatchedClosing
      | above :: outer => .ok ⟨.list stage.done.reverse :: above, outer⟩
  | .atom text => (ofAtom text).map fun leaf => ⟨leaf :: stage.done, stage.outer⟩

/-- Where reading has come after tokens. -/
def reach (stage : Stage) (tokens : List Token) : Except ReadError Stage :=
  tokens.foldlM absorb stage

/-- What has been read when the tokens end here. -/
def finish (stage : Stage) : Except ReadError (List Expr) :=
  if stage.outer.isEmpty then .ok stage.done.reverse else .error .unmatchedOpening

-----------------------------------------------------------------------------------------
-- Reading goes stage by stage
-----------------------------------------------------------------------------------------

/-- Reading is over when the stage is reached that the tokens lead to, by induction on them. -/
theorem readOn_eq_reach (stage : Stage) (tokens : List Token)
    : readOn stage.done stage.outer tokens = (stage.reach tokens).bind finish := by
  induction tokens generalizing stage with
  | nil => rfl
  | cons token rest ih =>
      cases token with
      | opening => exact ih ⟨[], stage.done :: stage.outer⟩
      | closing =>
          obtain ⟨done, outer⟩ := stage
          cases outer with
          | nil => rfl
          | cons above outer => exact ih ⟨.list done.reverse :: above, outer⟩
      | atom text =>
          simp only [readOn, reach, List.foldlM_cons, absorb]
          cases ofAtom text with
          | error error => rfl
          | ok leaf => exact ih ⟨leaf :: stage.done, stage.outer⟩

theorem reach_append (stage : Stage) (front back : List Token)
    : stage.reach (front ++ back) = (stage.reach front).bind fun next => next.reach back :=
  List.foldlM_append

/-- Tokens are read from the start. -/
theorem ofTokens_eq_reach (tokens : List Token)
    : ofTokens tokens = (start.reach tokens).bind finish :=
  readOn_eq_reach start tokens

-----------------------------------------------------------------------------------------
-- What a stage can come to
-----------------------------------------------------------------------------------------

/-- No token by itself makes a text incomplete. -/
theorem absorb_ne_unmatchedOpening (stage : Stage) (token : Token)
    : stage.absorb token ≠ .error .unmatchedOpening := by
  cases token with
  | opening => simp [absorb]
  | closing => cases outer : stage.outer <;> simp [absorb, outer]
  | atom text =>
      simp only [absorb, ofAtom]
      split
      · split <;> simp [Except.map]
      · simp [Except.map]

/-- Neither do tokens in order, by induction on them. -/
theorem reach_ne_unmatchedOpening (stage : Stage) (tokens : List Token)
    : stage.reach tokens ≠ .error .unmatchedOpening := by
  induction tokens generalizing stage with
  | nil => simp [reach, pure, Except.pure]
  | cons token rest ih =>
      simp only [reach, List.foldlM_cons]
      cases next : stage.absorb token with
      | error error => simpa [bind, Except.bind, ← next] using stage.absorb_ne_unmatchedOpening token
      | ok after => exact ih after

/-- As many closing delimiters as there are open lists close them all, by induction on the lists. -/
theorem reach_closers (done : List Expr) (outer : List (List Expr))
    : ∃ forms, (reach ⟨done, outer⟩ (.replicate outer.length .closing)).bind finish = .ok forms := by
  induction outer generalizing done with
  | nil => exact ⟨done.reverse, rfl⟩
  | cons above outer ih => exact ih (.list done.reverse :: above)

end Stage

-----------------------------------------------------------------------------------------
-- Texts that are read, wrong or incomplete
-----------------------------------------------------------------------------------------

section Tokens

variable {front back : List Token}

/-- Tokens that are read come before the forms of the others. -/
theorem ofTokens_append_of_ok {forms : List Expr} (accepted : ofTokens front = .ok forms)
    : ofTokens (front ++ back) = (ofTokens back).map (forms ++ ·) := by
  have spelled := ofTokens_eq_ok_iff.mp accepted
  rw [ofTokens, spelled.readOn [] [] back, readOn_descendAll, ofTokens_eq_descendAll]
  simp

/-- Tokens that are wrong are wrong in the same way before any others. -/
theorem ofTokens_append_of_error {error : ReadError} (wrong : error ≠ .unmatchedOpening)
    (rejected : ofTokens front = .error error)
    : ofTokens (front ++ back) = .error error := by
  simp only [Stage.ofTokens_eq_reach, Stage.reach_append] at rejected ⊢
  cases reached : Stage.start.reach front with
  | error other =>
      rw [reached] at rejected
      exact rejected
  | ok stage =>
      simp only [reached, Except.bind, Stage.finish] at rejected
      split at rejected
      · cases rejected
      · exact absurd (Except.error.inj rejected).symm wrong

/-- Tokens that are incomplete are read with some closing delimiters behind them. -/
theorem exists_closers (incomplete : ofTokens front = .error .unmatchedOpening)
    : ∃ count forms, 1 ≤ count ∧ ofTokens (front ++ .replicate count .closing) = .ok forms := by
  simp only [Stage.ofTokens_eq_reach, Stage.reach_append] at incomplete ⊢
  cases reached : Stage.start.reach front with
  | error other =>
      rw [reached] at incomplete
      obtain rfl := Except.error.inj incomplete
      exact absurd reached (Stage.reach_ne_unmatchedOpening _ _)
  | ok stage =>
      obtain ⟨done, outer⟩ := stage
      simp only [reached] at incomplete
      obtain ⟨forms, closed⟩ := Stage.reach_closers done outer
      refine ⟨outer.length, forms, ?_, closed⟩
      cases outer with
      | nil => cases incomplete
      | cons above outer => simp

end Tokens

/-- So many closing delimiters. -/
def closers (count : Nat) : String :=
  String.ofList (.replicate count ')')

/-- Closing delimiters behind a text are as many tokens, by induction on their number. -/
theorem ofText_closers (text : String) (count : Nat)
    : Token.ofText (text ++ closers count)
      = Token.ofText text ++ .replicate count .closing := by
  have alone : Token.ofChars (.replicate count ')') = .replicate count .closing := by
    induction count with
    | zero => exact Token.ofChars_nil
    | succ count ih => simp only [List.replicate_succ, Token.ofChars_closing, ih]
  have boundary : Token.AtBoundary (.replicate count ')') := by
    cases count with
    | zero => nofun
    | succ count => exact Token.atBoundary_cons (by decide) _
  rw [Token.ofText, String.toList_append, closers, String.toList_ofList,
    Token.scans_ofChars _ _ boundary, alone, Token.ofText]

/-- Reading is compositional. A text that is read comes, with any blanks between, before any other:
its forms are put in front of the forms of that one, if that has forms, and otherwise the error is
that one's. A text with a delimiter that closes nothing or with too large an integer fails with the
same error whatever comes behind it. A text fails for want of closing delimiters exactly if it is
not read and is with some of them put behind it.
-/
theorem reading_is_compositional {gap : String} (blank : ∀ c ∈ gap.toList, isBlank c = true)
    (some : gap ≠ "") (text more : String)
    : (∀ forms,
        read text = .ok forms → read (text ++ gap ++ more) = (read more).map (forms ++ ·))
      ∧ (∀ error,
          error ≠ .unmatchedOpening
          → read text = .error error
          → read (text ++ gap ++ more) = .error error)
      ∧ (read text = .error .unmatchedOpening
        ↔ (∀ forms, read text ≠ .ok forms)
          ∧ ∃ count forms, 1 ≤ count ∧ read (text ++ closers count) = .ok forms) := by
  simp only [read, Token.ofText_apart blank some, ofText_closers]
  refine ⟨?accepted, ?wrong, ?incomplete⟩
  case accepted => exact fun _ accepted => ofTokens_append_of_ok accepted
  case wrong => exact fun _ wrong rejected => ofTokens_append_of_error wrong rejected
  case incomplete =>
    constructor
    · intro incomplete
      refine ⟨fun forms accepted => ?_, exists_closers incomplete⟩
      cases incomplete.symm.trans accepted
    · rintro ⟨unread, count, forms, _, closed⟩
      cases outcome : ofTokens (Token.ofText text) with
      | ok forms => exact absurd outcome (unread forms)
      | error error =>
          by_cases incomplete : error = .unmatchedOpening
          · rw [incomplete]
          · cases (ofTokens_append_of_error incomplete outcome).symm.trans closed

/-- Texts behind an ideographic space: one that is read, one with a delimiter too many, and one with
two too few.
-/
theorem open_lists_are_completed
    : (∀ c ∈ ("\u3000" : String).toList, isBlank c = true)
      ∧ ("\u3000" : String) ≠ ""
      ∧ read ("f (0)" ++ "\u3000" ++ "-1") = .ok [.symbol "f", .list [.number .zero], .symbol "-1"]
      ∧ read ("(f))" ++ "\u3000" ++ "(9223372036854775808") = .error .unmatchedClosing
      ∧ ∃ count forms, 1 ≤ count ∧ read ("f (g (h" ++ closers count) = .ok forms := by
  have blank : ∀ c ∈ ("\u3000" : String).toList, isBlank c = true := List.all_eq_true.mp rfl
  have some : ("\u3000" : String) ≠ "" := by simp
  have accepted : read "f (0)" = .ok [.symbol "f", .list [.number .zero]] := by decide +kernel
  have behind : read "-1" = .ok [.symbol "-1"] := by decide +kernel
  have rejected : read "(f))" = .error .unmatchedClosing := by decide +kernel
  have incomplete : read "f (g (h" = .error .unmatchedOpening := by decide +kernel
  obtain ⟨composed, _, _⟩ := reading_is_compositional blank some "f (0)" "-1"
  obtain ⟨_, wrong, _⟩ := reading_is_compositional blank some "(f))" "(9223372036854775808"
  obtain ⟨_, _, completed⟩ := reading_is_compositional blank some "f (g (h" ""
  refine ⟨blank, some, ?_, wrong _ (by simp) rejected, (completed.mp incomplete).2⟩
  rw [composed _ accepted, behind]
  rfl

end Expr

end MiniLisp

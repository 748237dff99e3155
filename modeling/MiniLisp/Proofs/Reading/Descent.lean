import MiniLisp.Expr.Read

/-! Reading by recursive descent: a form begins with an atom or an opening delimiter, and behind the
latter stand the forms of a list up to the delimiter that closes it.
The reader, which makes one pass and keeps the open lists itself, gives the same forms and the same
errors.
-/

namespace MiniLisp.Expr

/-- What is left of tokens after some of them have been read. -/
abbrev Left (tokens : List Token) :=
  { left : List Token // left.length ≤ tokens.length }

mutual

/-- Reads the form that a token begins, and gives what is left of the tokens behind it. -/
def descend (token : Token) (rest : List Token) : Except ReadError (Expr × Left rest) :=
  match token with
  | .opening => do
      let (items, left) ← descendList rest
      return (.list items, left)
  | .closing => throw .unmatchedClosing
  | .atom text => do
      let leaf ← ofAtom text
      return (leaf, ⟨rest, Nat.le_refl _⟩)
termination_by 2 * rest.length + 1

/-- Reads the items of an open list, up to the delimiter that closes it. -/
def descendList (tokens : List Token) : Except ReadError (List Expr × Left tokens) :=
  match tokens with
  | [] => throw .unmatchedOpening
  | .closing :: rest => return ([], ⟨rest, by simp⟩)
  | token :: rest => do
      let (item, ⟨between, shorter⟩) ← descend token rest
      let (items, ⟨left, shortest⟩) ← descendList between
      return (item :: items, ⟨left, by simp only [List.length_cons]; omega⟩)
termination_by 2 * tokens.length
decreasing_by
  · simp only [List.length_cons]
    omega
  · simp only [List.length_cons]
    omega

end

/-- Reads forms up to the end. -/
def descendAll (tokens : List Token) : Except ReadError (List Expr) :=
  match tokens with
  | [] => return []
  | token :: rest => do
      let (form, ⟨left, _⟩) ← descend token rest
      let forms ← descendAll left
      return form :: forms
termination_by tokens.length
decreasing_by
  simp only [List.length_cons]
  omega

-----------------------------------------------------------------------------------------
-- One pass reads what the descent reads
-----------------------------------------------------------------------------------------

/-- What one pass makes of the tokens behind a form, once the descent has read the form. -/
def readOnAfter (done : List Expr) (outer : List (List Expr)) {tokens : List Token}
    (read : Expr × Left tokens)
    : Except ReadError (List Expr) :=
  readOn (read.1 :: done) outer read.2.1

/-- What one pass makes of the tokens behind an open list with items in `done`, once the descent
has read its other items.
-/
def readOnBehind (done above : List Expr) (outer : List (List Expr)) {tokens : List Token}
    (read : List Expr × Left tokens)
    : Except ReadError (List Expr) :=
  readOn (.list (done.reverse ++ read.1) :: above) outer read.2.1

mutual

theorem readOn_form {token : Token} (begins : token ≠ .closing) (rest : List Token)
    (done : List Expr) (outer : List (List Expr))
    : readOn done outer (token :: rest)
      = (descend token rest).bind (readOnAfter done outer) := by
  cases token with
  | opening =>
      rw [readOn, readOn_list rest [] done outer, descend]
      cases descendList rest <;> rfl
  | closing => exact absurd rfl begins
  | atom text =>
      rw [readOn, descend]
      cases ofAtom text <;> rfl
termination_by 2 * rest.length + 1

theorem readOn_list (tokens : List Token) (done above : List Expr) (outer : List (List Expr))
    : readOn done (above :: outer) tokens
      = (descendList tokens).bind (readOnBehind done above outer) := by
  match tokens with
  | [] =>
      rw [descendList]
      rfl
  | .closing :: rest =>
      rw [descendList, readOn]
      simp [Except.bind, pure, Except.pure, readOnBehind]
  | .opening :: rest | .atom text :: rest =>
      rw [readOn_form (by simp) rest done (above :: outer), descendList]
      · cases descend _ rest with
        | error error => rfl
        | ok first =>
            obtain ⟨item, between, shorter⟩ := first
            have more := readOn_list between (item :: done) above outer
            simp only [Except.bind, readOnAfter, more]
            cases others : descendList between <;>
              simp [others, Except.bind, bind, pure, Except.pure, readOnBehind]
      · simp
termination_by 2 * tokens.length
decreasing_by
  all_goals simp only [List.length_cons]
  all_goals omega

end

/-- Outside lists, one pass collects the forms that the descent reads, by recursion on the tokens
that are left.
-/
theorem readOn_descendAll (tokens : List Token) (done : List Expr)
    : readOn done [] tokens = (descendAll tokens).map (done.reverse ++ ·) := by
  match tokens with
  | [] =>
      rw [descendAll]
      simp [readOn, Except.map, pure, Except.pure]
  | .closing :: rest =>
      rw [descendAll, descend]
      rfl
  | .opening :: rest | .atom text :: rest =>
      rw [readOn_form (by simp) rest done [], descendAll]
      cases descend _ rest with
      | error error => rfl
      | ok first =>
          obtain ⟨form, left, shorter⟩ := first
          have more := readOn_descendAll left (form :: done)
          simp only [Except.bind, readOnAfter, more]
          cases forms : descendAll left <;>
            simp [forms, Except.map, bind, Except.bind, pure, Except.pure]
termination_by tokens.length
decreasing_by
  all_goals simp only [List.length_cons]
  all_goals omega

/-- One pass over tokens reads the forms that the descent reads, or stops at the same error. -/
theorem ofTokens_eq_descendAll (tokens : List Token) : ofTokens tokens = descendAll tokens := by
  rw [ofTokens, readOn_descendAll]
  cases descendAll tokens <;> rfl

end MiniLisp.Expr

import MiniLisp.Expr.Read
import MiniLisp.Proofs.Reading.Scanning

/-! The reader accepts exactly the token sequences that spell expressions, and gives the expressions
that they spell.
-/

namespace MiniLisp.Expr

/-- The tokens spell the expressions, one after the other: an atom spells its leaf, and a list is
spelled by its items between delimiters.
-/
inductive SpelledBy : List Token → List Expr → Prop
  | nil : SpelledBy [] []
  | leaf {text expr tokens exprs} (atom : ofAtom text = .ok expr) (more : SpelledBy tokens exprs)
    : SpelledBy (.atom text :: tokens) (expr :: exprs)
  | list {inner items tokens exprs} (inside : SpelledBy inner items)
    (more : SpelledBy tokens exprs)
    : SpelledBy (.opening :: inner ++ .closing :: tokens) (.list items :: exprs)

theorem SpelledBy.append {tokens more : List Token} {exprs others : List Expr}
    (first : SpelledBy tokens exprs) (second : SpelledBy more others)
    : SpelledBy (tokens ++ more) (exprs ++ others) := by
  induction first with
  | nil => exact second
  | leaf atom _ ih => exact .leaf atom ih
  | list inside _ _ ih =>
      rw [List.append_assoc, List.cons_append]
      exact .list inside ih

/-- Tokens that spell expressions are read as these, whatever comes before and after them, by
induction on the spelling.
-/
theorem SpelledBy.readOn {tokens : List Token} {exprs : List Expr}
    (spelled : SpelledBy tokens exprs) (done : List Expr) (outer : List (List Expr))
    (rest : List Token)
    : readOn done outer (tokens ++ rest) = Expr.readOn (exprs.reverse ++ done) outer rest := by
  induction spelled generalizing done outer rest with
  | nil => rfl
  | leaf atom _ ih =>
      simp only [List.cons_append, Expr.readOn, atom, ih, List.reverse_cons, List.append_assoc,
        List.nil_append]
  | @list inner items tokens exprs _ _ insideIH moreIH =>
      simp only [List.cons_append, List.append_assoc, Expr.readOn, insideIH, moreIH,
        List.append_nil, List.reverse_reverse, List.reverse_cons, List.nil_append]

/-- What reading has accepted: the tokens up to the end, or up to the delimiter that closes the
innermost open list, spell the items that follow those already read there.
-/
theorem spelledBy_of_readOn {tokens : List Token} {done : List Expr} {outer : List (List Expr)}
    {forms : List Expr} (accepted : readOn done outer tokens = .ok forms)
    : ∃ inner items,
        SpelledBy inner items
        ∧ ((outer = [] ∧ tokens = inner ∧ forms = done.reverse ++ items)
          ∨ ∃ above around rest,
              outer = above :: around
              ∧ tokens = inner ++ .closing :: rest
              ∧ readOn (.list (done.reverse ++ items) :: above) around rest = .ok forms) := by
  -- A list that is opened here consumes two pieces of the input, so the recursion is on its length.
  match tokens with
  | [] =>
      cases outer with
      | nil => exact ⟨[], [], .nil, .inl ⟨rfl, rfl, by simpa [readOn] using accepted.symm⟩⟩
      | cons above around => simp [readOn] at accepted
  | .closing :: rest =>
      cases outer with
      | nil => simp [readOn] at accepted
      | cons above around =>
          exact ⟨[], [], .nil, .inr ⟨above, around, rest, rfl, rfl, by
            simpa [readOn] using accepted⟩⟩
  | .atom text :: rest =>
      rw [readOn] at accepted
      split at accepted
      · next leaf atom =>
        obtain ⟨inner, items, spelled, ends⟩ := spelledBy_of_readOn accepted
        refine ⟨.atom text :: inner, leaf :: items, .leaf atom spelled, ?_⟩
        simpa using ends
      · cases accepted
  | .opening :: rest =>
      rw [readOn] at accepted
      obtain ⟨inner, items, spelled, ⟨impossible, _⟩ | ⟨_, _, after, same, split, goesOn⟩⟩ :=
        spelledBy_of_readOn accepted
      · cases impossible
      · cases same
        obtain ⟨next, more, spelledMore, ends⟩ := spelledBy_of_readOn goesOn
        refine ⟨.opening :: inner ++ .closing :: next, .list items :: more,
          .list spelled spelledMore, ?_⟩
        simpa [split] using ends
termination_by tokens.length
decreasing_by
  · simp only [List.length_cons, Nat.lt_add_one]
  · simp only [List.length_cons, Nat.lt_add_one]
  · simp only [split, List.length_cons, List.length_append]
    omega

/-- Tokens are read as forms exactly when they spell them. -/
theorem ofTokens_eq_ok_iff {tokens : List Token} {forms : List Expr}
    : ofTokens tokens = .ok forms ↔ SpelledBy tokens forms := by
  constructor
  · intro accepted
    obtain ⟨inner, items, spelled, ⟨_, rfl, rfl⟩ | ⟨_, _, _, impossible, _⟩⟩ :=
      spelledBy_of_readOn accepted
    · exact spelled
    · cases impossible
  · intro spelled
    simpa [ofTokens, readOn] using spelled.readOn [] [] []

/-- A text is read as forms exactly when its tokens spell them. -/
theorem read_eq_ok_iff {text : String} {forms : List Expr}
    : read text = .ok forms ↔ SpelledBy (Token.ofText text) forms :=
  ofTokens_eq_ok_iff

end MiniLisp.Expr

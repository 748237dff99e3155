import MiniLisp.Proofs.Reading.Searching

/-! The tokens of a text are the only ones that it can be split into.
A split has blanks around the tokens, and some between any two atoms, so that no atom goes on in the
next. A scan from left to right that keeps the characters of one atom comes to the same tokens.
-/

namespace MiniLisp.Token

open MiniLisp.Text

-----------------------------------------------------------------------------------------
-- Splits
-----------------------------------------------------------------------------------------

/-- The text of a token. -/
def text : Token → String
  | opening => "("
  | closing => ")"
  | atom text => text

/-- Tokens with a gap before each and one after the last, the gaps counted from zero. -/
def layout (gap : Nat → String) : List Token → String
  | [] => gap 0
  | token :: rest => gap 0 ++ token.text ++ layout (fun place => gap (place + 1)) rest

/-- The text is split into the tokens by the gaps: these are blank, an atom is some characters that
are neither parentheses nor blank, and two atoms in a row have some blanks between them.
-/
structure SplitBy (gap : Nat → String) (whole : String) (tokens : List Token) : Prop where
  laidOut : whole = layout gap tokens
  blank : ∀ place, ∀ c ∈ (gap place).toList, isBlank c = true
  lexical : ∀ token ∈ tokens, token.Lexical
  apart
    : ∀ place first second,
        tokens[place]? = some (atom first)
        → tokens[place + 1]? = some (atom second)
        → gap (place + 1) ≠ ""

/-- A gap before other gaps. -/
def gapBefore (first : String) (gap : Nat → String) : Nat → String
  | 0 => first
  | place + 1 => gap place

/-- What an atom is followed by in a split is a boundary: blanks, a parenthesis, or nothing. -/
theorem atBoundary_layout {gap : Nat → String} {tokens : List Token}
    (blank : ∀ c ∈ (gap 0).toList, isBlank c = true)
    (apart : ∀ second, tokens.head? = some (atom second) → gap 0 ≠ "")
    : AtBoundary (layout gap tokens).toList := by
  cases spelled : (gap 0).toList with
  | cons c chars =>
      have first : isAtomChar c = false := isAtomChar_of_isBlank (blank c (by simp [spelled]))
      cases tokens with
      | nil => simpa [layout, spelled] using atBoundary_cons first chars
      | cons token rest => simpa [layout, spelled] using atBoundary_cons first _
  | nil =>
      cases tokens with
      | nil => simp [layout, spelled, AtBoundary]
      | cons token rest =>
          cases token with
          | opening => simpa [layout, spelled, text] using atBoundary_cons (by decide) _
          | closing => simpa [layout, spelled, text] using atBoundary_cons (by decide) _
          | atom second => exact absurd (String.toList_eq_nil_iff.mp spelled) (apart second rfl)

/-- The text of a lexical token scans as that token, an atom only before a boundary. -/
theorem Lexical.ofChars_append {token : Token} (lexical : token.Lexical) {rest : List Char}
    (ends : ∀ first, token = atom first → AtBoundary rest)
    : ofChars (token.text.toList ++ rest) = token :: ofChars rest := by
  cases token with
  | opening => exact ofChars_opening rest
  | closing => exact ofChars_closing rest
  | atom first => exact scans_atom lexical rest (ends first rfl)

/-- A text that is split into tokens has these tokens, by induction on them. -/
theorem SplitBy.ofText_eq {gap : Nat → String} {whole : String} {tokens : List Token}
    (split : SplitBy gap whole tokens)
    : ofText whole = tokens := by
  obtain ⟨rfl, blank, lexical, apart⟩ := split
  induction tokens generalizing gap with
  | nil =>
      have nothing := ofChars_blanks (blank 0) []
      simpa [ofText, layout] using nothing
  | cons token rest ih =>
      rw [List.forall_mem_cons] at lexical
      have ends : ∀ first, token = atom first
          → AtBoundary (layout (fun place => gap (place + 1)) rest).toList := by
        rintro first rfl
        refine atBoundary_layout (blank 1) fun second next => apart 0 first second rfl ?_
        simpa [List.head?_eq_getElem?] using next
      have others := ih (fun place => blank (place + 1)) lexical.2
        (fun place first second here next => apart (place + 1) first second here next)
      simp only [ofText, layout, String.toList_append, List.append_assoc] at others ⊢
      rw [ofChars_blanks (blank 0), lexical.1.ofChars_append ends, others]

/-- A blank before a text goes to the first gap of its split. -/
theorem SplitBy.cons_blank {gap : Nat → String} {chars : List Char} {tokens : List Token}
    (split : SplitBy gap (String.ofList chars) tokens) {c : Char} (blank : isBlank c = true)
    : ∃ gap', SplitBy gap' (String.ofList (c :: chars)) tokens := by
  refine ⟨gapBefore (String.singleton c ++ gap 0) fun place => gap (place + 1), ?_, ?_,
    split.lexical, fun place => split.apart place⟩
  · have laidOut := congrArg String.toList split.laidOut
    apply String.toList_inj.mp
    cases tokens <;> simpa [layout, gapBefore] using laidOut
  · intro place
    cases place with
    | zero => simpa [gapBefore, blank] using split.blank 0
    | succ place => exact split.blank (place + 1)

/-- A token before a text comes first in its split, an atom only if a boundary follows it. -/
theorem SplitBy.cons_token {gap : Nat → String} {chars : List Char} {tokens : List Token}
    (split : SplitBy gap (String.ofList chars) tokens) {token : Token} (lexical : token.Lexical)
    (ends : ∀ first, token = atom first → AtBoundary chars)
    : ∃ gap', SplitBy gap' (String.ofList (token.text.toList ++ chars)) (token :: tokens) := by
  have laidOut := congrArg String.toList split.laidOut
  refine ⟨gapBefore "" gap, ?_, ?_, List.forall_mem_cons.mpr ⟨lexical, split.lexical⟩, ?_⟩
  · apply String.toList_inj.mp
    simpa [layout, gapBefore] using laidOut
  · intro place
    cases place with
    | zero => simp [gapBefore]
    | succ place => exact split.blank place
  · intro place first second here next
    cases place with
    | succ place => exact split.apart place first second here next
    | zero =>
        -- Without a gap the second atom would begin where the first has to end.
        intro nothing
        have boundary := ends first (by simpa using here)
        cases tokens with
        | nil => simp at next
        | cons other tokens =>
            obtain rfl : other = atom second := by simpa using next
            obtain ⟨some, inside⟩ := split.lexical (atom second) List.mem_cons_self
            have begins : gap 0 = "" := nothing
            cases spelled : second.toList with
            | nil => exact some spelled
            | cons c rest =>
                simp only [String.toList_ofList, layout, begins, text, String.toList_append,
                  spelled, String.toList_empty, List.nil_append, List.cons_append] at laidOut
                have outside := boundary c (by simp [laidOut])
                rw [inside c (by simp [spelled])] at outside
                cases outside

/-- Every text is split into its tokens, by recursion along the scan. -/
theorem exists_splitBy (chars : List Char)
    : ∃ gap, SplitBy gap (String.ofList chars) (ofChars chars) := by
  fun_induction ofChars chars with
  | case1 => exact ⟨fun _ => "", rfl, by simp, by simp, by simp⟩
  | case2 rest ih =>
      obtain ⟨gap, split⟩ := ih
      exact split.cons_token (show opening.Lexical from trivial) (by simp)
  | case3 rest _ ih =>
      obtain ⟨gap, split⟩ := ih
      exact split.cons_token (show closing.Lexical from trivial) (by simp)
  | case4 c rest _ _ blank ih =>
      obtain ⟨gap, split⟩ := ih
      exact split.cons_blank blank
  | case5 c rest opens closes blank ih =>
      obtain ⟨gap, split⟩ := ih
      have inside : isAtomChar c = true := by simp [isAtomChar, opens, closes, blank]
      have lexical : (atom (String.ofList (c :: rest.takeWhile isAtomChar))).Lexical := by
        simp only [Lexical, String.toList_ofList, List.forall_mem_cons]
        exact ⟨List.cons_ne_nil _ _, inside, List.all_eq_true.mp List.all_takeWhile⟩
      have boundary : AtBoundary (rest.dropWhile isAtomChar) := by
        intro d first
        have stops := List.head?_dropWhile_not isAtomChar rest
        simpa [Option.mem_def.mp first] using stops
      have whole := split.cons_token lexical fun _ _ => boundary
      simpa [text, List.takeWhile_append_dropWhile] using whole

-----------------------------------------------------------------------------------------
-- A scan that keeps one atom
-----------------------------------------------------------------------------------------

/-- A scan from left to right: the tokens that it has given out, and the characters of an atom that
is not complete.
-/
structure Scanner where
  emitted : List Token
  pending : List Char

namespace Scanner

/-- The pending atom is given out, unless it is empty. -/
def flush (scanner : Scanner) : Scanner :=
  if scanner.pending = [] then scanner
  else ⟨scanner.emitted ++ [atom (String.ofList scanner.pending)], []⟩

/-- A token is given out. -/
def emit (scanner : Scanner) (token : Token) : Scanner :=
  { scanner with emitted := scanner.emitted ++ [token] }

/-- A blank ends the pending atom, a parenthesis ends it and is a token itself, and any other
character belongs to it.
-/
def feed (scanner : Scanner) (c : Char) : Scanner :=
  if isBlank c then scanner.flush
  else if c = '(' then scanner.flush.emit opening
  else if c = ')' then scanner.flush.emit closing
  else { scanner with pending := scanner.pending ++ [c] }

/-- The tokens of a text by such a scan, which gives out what is pending at the end. -/
def scan (whole : String) : List Token :=
  (whole.toList.foldl feed ⟨[], []⟩).flush.emitted

/-- The tokens that a scan is to come to when these characters follow. -/
def expected (scanner : Scanner) (rest : List Char) : List Token :=
  scanner.emitted ++ ofChars (scanner.pending ++ rest)

/-- Everything that is pending may stand in an atom. -/
def Pending (scanner : Scanner) : Prop :=
  ∀ c ∈ scanner.pending, isAtomChar c = true

theorem flush_pending (scanner : Scanner) : scanner.flush.pending = [] := by
  simp only [flush]
  split
  · assumption
  · rfl

/-- At a boundary the pending atom is complete. -/
theorem Pending.expected_flush {scanner : Scanner} (pending : scanner.Pending) {rest : List Char}
    (boundary : AtBoundary rest)
    : scanner.flush.expected rest = scanner.expected rest := by
  simp only [flush]
  split
  · rfl
  · next some =>
    have lexical : (atom (String.ofList scanner.pending)).Lexical := by
      simpa [Lexical] using ⟨some, pending⟩
    have complete := scans_atom lexical rest boundary
    simp only [String.toList_ofList] at complete
    simp [expected, complete]

/-- A character that is fed to a scan changes nothing about the tokens that it is to come to. -/
theorem Pending.feed {scanner : Scanner} (pending : scanner.Pending) (c : Char) (rest : List Char)
    : (scanner.feed c).Pending ∧ (scanner.feed c).expected rest = scanner.expected (c :: rest) := by
  have none : scanner.flush.Pending := by simp [Pending, flush_pending]
  have complete (outside : isAtomChar c = false)
      : scanner.flush.emitted ++ ofChars (c :: rest) = scanner.expected (c :: rest) := by
    have flushed := pending.expected_flush (atBoundary_cons outside rest)
    simpa [expected, flush_pending] using flushed
  simp only [Scanner.feed]
  split
  · next blank =>
    refine ⟨none, ?_⟩
    rw [← complete (isAtomChar_of_isBlank blank), ofChars_blank blank]
    simp [expected, flush_pending]
  split
  · next visible opens =>
    subst opens
    refine ⟨none, ?_⟩
    rw [← complete (by decide), ofChars_opening]
    simp [expected, emit, flush_pending]
  split
  · next visible _ closes =>
    subst closes
    refine ⟨none, ?_⟩
    rw [← complete (by decide), ofChars_closing]
    simp [expected, emit, flush_pending]
  · next visible opens closes =>
    have inside : isAtomChar c = true := by simp [isAtomChar, opens, closes, visible]
    refine ⟨?_, by simp [expected]⟩
    intro other member
    rcases List.mem_append.mp member with earlier | last
    · exact pending other earlier
    · rw [List.mem_singleton.mp last, inside]

/-- A scan comes to the tokens expected of it, by induction on the characters that follow. -/
theorem Pending.foldl {scanner : Scanner} (pending : scanner.Pending) (chars : List Char)
    : (chars.foldl Scanner.feed scanner).flush.emitted = scanner.expected chars := by
  induction chars generalizing scanner with
  | nil =>
      have boundary : AtBoundary [] := nofun
      have flushed := pending.expected_flush boundary
      simpa [expected, flush_pending] using flushed
  | cons c rest ih =>
      obtain ⟨still, same⟩ := pending.feed c rest
      exact (ih still).trans same

theorem scan_eq (whole : String) : scan whole = ofText whole := by
  have start : Pending ⟨[], []⟩ := nofun
  exact start.foldl whole.toList

end Scanner

/-- Tokens are found in the only way that a text can be split. A leftmost and greedy search finds the
tokens that the text is split into by some gaps, and there are no others; a scan from left to right
that keeps one atom comes to them, and so does scanning each atom as a whole.
-/
theorem tokens_are_the_only_split {search : Search} (leftmostGreedy : search.LeftmostGreedy)
    (whole : String)
    : (∀ tokens, (∃ gap, SplitBy gap whole tokens) ↔ search.tokens whole.toList = tokens)
      ∧ search.tokens whole.toList = Scanner.scan whole
      ∧ search.tokens whole.toList = ofText whole := by
  rw [leftmostGreedy.tokens_eq, Scanner.scan_eq, ← ofText]
  refine ⟨fun tokens => ?_, rfl, rfl⟩
  constructor
  · rintro ⟨gap, split⟩
    exact split.ofText_eq
  · rintro rfl
    obtain ⟨gap, split⟩ := exists_splitBy whole.toList
    exact ⟨gap, by simpa [ofText] using split⟩

/-- The concrete search splits a text only into these tokens, two of them atoms that an ideographic
space keeps apart, and so does the scan.
-/
theorem unmatched_parentheses_are_split
    : Search.first.LeftmostGreedy
      ∧ (∃ gap, SplitBy gap ")(ab\u3000c" [closing, opening, atom "ab", atom "c"])
      ∧ (¬∃ gap, SplitBy gap ")(ab\u3000c" [closing, opening, atom "a", atom "b", atom "c"])
      ∧ Scanner.scan ")(ab\u3000c" = [closing, opening, atom "ab", atom "c"] := by
  obtain ⟨only, scanned, ofText_eq⟩ :=
    tokens_are_the_only_split Search.leftmostGreedy_first ")(ab\u3000c"
  have found : ofText ")(ab\u3000c" = [closing, opening, atom "ab", atom "c"] := by decide +kernel
  rw [ofText_eq, found] at only scanned
  exact ⟨Search.leftmostGreedy_first, (only _).mpr rfl, by simp [only], scanned.symm⟩

end MiniLisp.Token

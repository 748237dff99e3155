import MiniLisp.Proofs.Reading.Joining

/-! Tokens as the matches of a pattern.
Any search that finds a match as far left as there is one, and as long as it can be there, finds the
tokens of a text when it is repeated behind each match.
-/

namespace MiniLisp.Token

open MiniLisp.Text

/-- What a token looks like: a single parenthesis, or some characters that are neither parentheses
nor blank.
-/
inductive Pattern : List Char → Prop
  | delimiter {c} (either : c = '(' ∨ c = ')') : Pattern [c]
  | run {chars} (some : chars ≠ []) (inside : ∀ c ∈ chars, isAtomChar c = true) : Pattern chars

/-- A match of the pattern in a text, with what stands before it and behind it. -/
structure Occurrence (text : List Char) where
  before : List Char
  found : List Char
  behind : List Char
  whole : before ++ found ++ behind = text
  fits : Pattern found

/-- A search gives a match in any text, or none. -/
abbrev Search :=
  (text : List Char) → Option (Occurrence text)

/-- The search is leftmost and greedy: it finds a match if there is one, none begins further left,
and none that begins there is longer.
-/
structure Search.LeftmostGreedy (search : Search) : Prop where
  exhaustive : ∀ {text}, search text = none → Occurrence text → False
  leftmost
    : ∀ {text found},
        search text = some found
        → ∀ other : Occurrence text, found.before.length ≤ other.before.length
  greedy
    : ∀ {text found},
        search text = some found
        → ∀ other : Occurrence text,
            other.before.length = found.before.length → other.found.length ≤ found.found.length

/-- The token that a match captures. -/
def ofCaptured (captured : String) : Token :=
  if captured = "(" then opening else if captured = ")" then closing else atom captured

/-- What matches the pattern begins with a character that is not blank. -/
theorem Pattern.begins {found : List Char} (fits : Pattern found)
    : ∃ c rest, found = c :: rest ∧ isBlank c = false := by
  cases fits with
  | delimiter either => rcases either with rfl | rfl <;> exact ⟨_, [], rfl, by decide⟩
  | run some inside =>
      cases found with
      | nil => exact absurd rfl some
      | cons c rest =>
          have first := inside c List.mem_cons_self
          exact ⟨c, rest, rfl, by simp_all [isAtomChar]⟩

theorem Occurrence.behind_shorter {text : List Char} (occurrence : Occurrence text)
    : occurrence.behind.length < text.length := by
  obtain ⟨c, rest, found, _⟩ := occurrence.fits.begins
  have lengths := congrArg List.length occurrence.whole
  simp only [found, List.length_append, List.length_cons] at lengths
  omega

/-- The tokens that a search finds, each behind the one before it. -/
def Search.tokens (search : Search) (text : List Char) : List Token :=
  match search text with
  | none => []
  | some occurrence =>
      ofCaptured (String.ofList occurrence.found) :: search.tokens occurrence.behind
termination_by text.length
decreasing_by exact occurrence.behind_shorter

-----------------------------------------------------------------------------------------
-- Every such search finds the tokens
-----------------------------------------------------------------------------------------

/-- A character that is not blank matches the pattern by itself. -/
theorem pattern_of_not_blank {c : Char} (visible : isBlank c = false) : Pattern [c] := by
  by_cases inside : isAtomChar c = true
  · exact .run (by simp) (by simpa using inside)
  · refine .delimiter ?_
    simp only [isAtomChar, visible, Bool.and_eq_true, bne_iff_ne, Bool.not_false, and_true] at inside
    by_cases opens : c = '('
    · exact .inl opens
    · exact .inr (by simpa [opens] using inside)

/-- What a match captures scans as the token it stands for, where a run ends at a boundary. -/
theorem Pattern.scans {found : List Char} (fits : Pattern found) {behind : List Char}
    (ends : (∀ c ∈ found, isAtomChar c = true) → AtBoundary behind)
    : ofChars (found ++ behind) = ofCaptured (String.ofList found) :: ofChars behind := by
  cases fits with
  | delimiter either =>
      rcases either with rfl | rfl
      · exact ofChars_opening behind
      · exact ofChars_closing behind
  | run some inside =>
      have lexical : (atom (String.ofList found)).Lexical := by simpa [Lexical] using ⟨some, inside⟩
      have scanned := scans_atom lexical behind (ends inside)
      simp only [String.toList_ofList, List.singleton_append] at scanned
      have other {c : Char} (delimiter : isAtomChar c = false)
          : String.ofList found ≠ String.ofList [c] := by
        intro same
        have spelled : found = [c] := by simpa using congrArg String.toList same
        rw [inside c (by simp [spelled])] at delimiter
        cases delimiter
      have opens : String.ofList found ≠ "(" := other (c := '(') (by decide)
      have closes : String.ofList found ≠ ")" := other (c := ')') (by decide)
      rw [scanned, ofCaptured, if_neg opens, if_neg closes]

section Finding

variable {search : Search} (leftmostGreedy : search.LeftmostGreedy) {text : List Char}

include leftmostGreedy

/-- A text without a match is blank. -/
theorem Search.LeftmostGreedy.blank_of_none (none : search text = none)
    : ∀ c ∈ text, isBlank c = true := by
  intro c member
  obtain ⟨front, back, split⟩ := List.append_of_mem member
  cases visible : isBlank c with
  | true => rfl
  | false =>
      have here : Occurrence text := ⟨front, [c], back, by simp [split], pattern_of_not_blank visible⟩
      exact (leftmostGreedy.exhaustive none here).elim

variable {occurrence : Occurrence text} (finds : search text = some occurrence)

include finds

/-- What stands before the first match is blank, since the match would begin there otherwise. -/
theorem Search.LeftmostGreedy.blank_before : ∀ c ∈ occurrence.before, isBlank c = true := by
  intro c member
  obtain ⟨front, back, split⟩ := List.append_of_mem member
  cases visible : isBlank c with
  | true => rfl
  | false =>
      have whole : front ++ [c] ++ (back ++ occurrence.found ++ occurrence.behind) = text := by
        simpa [split] using occurrence.whole
      have left := leftmostGreedy.leftmost finds ⟨front, [c], _, whole, pattern_of_not_blank visible⟩
      simp only [split, List.length_append, List.length_cons] at left
      omega

/-- A run ends at a boundary, since it would be longer otherwise. -/
theorem Search.LeftmostGreedy.boundary_behind
    (inside : ∀ c ∈ occurrence.found, isAtomChar c = true)
    : AtBoundary occurrence.behind := by
  intro c first
  obtain ⟨back, split⟩ := List.head?_eq_some_iff.mp first
  cases further : isAtomChar c with
  | false => rfl
  | true =>
      have whole : occurrence.before ++ (occurrence.found ++ [c]) ++ back = text := by
        simpa [split] using occurrence.whole
      have longer : Pattern (occurrence.found ++ [c]) := by
        refine .run (by simp) fun other member => ?_
        rcases List.mem_append.mp member with earlier | last
        · exact inside other earlier
        · rw [List.mem_singleton.mp last, further]
      have long := leftmostGreedy.greedy finds ⟨_, _, back, whole, longer⟩ rfl
      simp only [List.length_append, List.length_singleton] at long
      omega

end Finding

/-- A leftmost and greedy search finds the tokens of a text, by recursion along its matches. -/
theorem Search.LeftmostGreedy.tokens_eq {search : Search} (leftmostGreedy : search.LeftmostGreedy)
    (text : List Char)
    : search.tokens text = ofChars text := by
  fun_induction search.tokens text with
  | case1 text none =>
      have blank := ofChars_blanks (leftmostGreedy.blank_of_none none) []
      simpa using blank.symm
  | case2 text occurrence finds ih =>
      have scanned := occurrence.fits.scans (leftmostGreedy.boundary_behind finds)
      have skipped := ofChars_blanks (leftmostGreedy.blank_before finds)
        (occurrence.found ++ occurrence.behind)
      rw [← List.append_assoc, occurrence.whole] at skipped
      rw [skipped, scanned, ih]

-----------------------------------------------------------------------------------------
-- There is such a search
-----------------------------------------------------------------------------------------

/-- The search that skips blanks and then takes a delimiter, or all characters of an atom. -/
def Search.first : Search := fun text =>
  match spelled : text.dropWhile isBlank with
  | [] => none
  | c :: rest =>
      have whole : text.takeWhile isBlank ++ c :: rest = text := by
        rw [← spelled, List.takeWhile_append_dropWhile]
      if inside : isAtomChar c = true then
        some {
          before := text.takeWhile isBlank
          found := c :: rest.takeWhile isAtomChar
          behind := rest.dropWhile isAtomChar
          whole := by simpa using whole
          fits := .run (by simp)
            (List.forall_mem_cons.mpr ⟨inside, List.all_eq_true.mp List.all_takeWhile⟩)
        }
      else
        some {
          before := text.takeWhile isBlank
          found := [c]
          behind := rest
          whole := by simpa using whole
          fits := pattern_of_not_blank
            (by simpa [spelled] using List.head?_dropWhile_not isBlank text)
        }

/-- A search has nothing to find in blanks, or it skips them up to the character that it finds. -/
theorem Search.first_cases (text : List Char)
    : (Search.first text = none ∧ ∀ c ∈ text, isBlank c = true)
      ∨ ∃ occurrence c rest,
          Search.first text = some occurrence
          ∧ text = occurrence.before ++ c :: rest
          ∧ (∀ c ∈ occurrence.before, isBlank c = true)
          ∧ occurrence.found = if isAtomChar c then c :: rest.takeWhile isAtomChar else [c] := by
  have skipped : ∀ c ∈ text.takeWhile isBlank, isBlank c = true :=
    List.all_eq_true.mp List.all_takeWhile
  unfold Search.first
  split
  · next spelled =>
    have whole := List.takeWhile_append_dropWhile (p := isBlank) (l := text)
    rw [spelled, List.append_nil] at whole
    exact .inl ⟨rfl, whole ▸ skipped⟩
  · next c rest spelled =>
    have whole : text = text.takeWhile isBlank ++ c :: rest := by
      rw [← spelled, List.takeWhile_append_dropWhile]
    by_cases inside : isAtomChar c = true
    · simp only [inside, dite_true]
      exact .inr ⟨_, c, rest, rfl, whole, skipped, by simp [inside]⟩
    · simp only [inside]
      exact .inr ⟨_, c, rest, rfl, whole, skipped, by simp [inside]⟩

/-- No match begins among blanks. -/
theorem Occurrence.blanks_before {text blanks rest : List Char} (other : Occurrence text)
    (whole : text = blanks ++ rest) (blank : ∀ c ∈ blanks, isBlank c = true)
    : blanks.length ≤ other.before.length := by
  have split := other.whole.trans whole
  rw [List.append_assoc] at split
  rcases List.append_eq_append_iff.mp split with ⟨between, same, found⟩ | ⟨_, same, _⟩
  · cases between with
    | nil => simp [same]
    | cons d between =>
        obtain ⟨c, tail, begins, visible⟩ := other.fits.begins
        rw [begins, List.cons_append, List.cons_append] at found
        rw [(List.cons.inj found).1, blank d (by simp [same])] at visible
        cases visible
  · simp [same]

/-- A match that begins at a character is no longer than what can be taken there. -/
theorem Pattern.length_le {found behind : List Char} (fits : Pattern found) {c : Char}
    {rest : List Char} (here : found ++ behind = c :: rest)
    : found.length ≤ (if isAtomChar c then c :: rest.takeWhile isAtomChar else [c]).length := by
  cases fits with
  | delimiter _ => split <;> simp
  | run some inside =>
      cases found with
      | nil => exact absurd rfl some
      | cons d tail =>
          obtain ⟨rfl, rfl⟩ := List.cons.inj here
          rw [List.forall_mem_cons] at inside
          simp [inside.1, List.takeWhile_append_of_pos inside.2]

/-- The search is leftmost and greedy: blanks match nothing, and it takes what can be taken. -/
theorem Search.leftmostGreedy_first : Search.first.LeftmostGreedy := by
  constructor
  case exhaustive =>
    intro text none other
    rcases Search.first_cases text with ⟨_, blank⟩ | ⟨_, _, _, finds, _⟩
    · obtain ⟨c, tail, begins, visible⟩ := other.fits.begins
      have member : c ∈ text := by simp [← other.whole, begins]
      rw [blank c member] at visible
      cases visible
    · cases none.symm.trans finds
  case leftmost =>
    intro text found finds other
    rcases Search.first_cases text with ⟨none, _⟩ | ⟨_, _, _, finds', whole, blank, _⟩
    · cases none.symm.trans finds
    · obtain rfl := Option.some.inj (finds.symm.trans finds')
      exact other.blanks_before whole blank
  case greedy =>
    intro text found finds other same
    rcases Search.first_cases text with ⟨none, _⟩ | ⟨_, c, rest, finds', whole, _, taken⟩
    · cases none.symm.trans finds
    · obtain rfl := Option.some.inj (finds.symm.trans finds')
      have split := other.whole.trans whole
      rw [List.append_assoc] at split
      rw [taken]
      exact other.fits.length_le (List.append_inj_right split same)

end MiniLisp.Token

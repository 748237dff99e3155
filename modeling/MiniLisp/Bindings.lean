/-! Bindings: finitely many names, each with what it is bound to.
Entries are kept in strictly increasing order of their names, code point by code point, so bindings
that answer every lookup alike are equal.
-/

namespace MiniLisp

/-- Names with what each is bound to. -/
structure Bindings (Content : Type) where
  entries : List (String × Content)
  sorted : entries.Pairwise fun left right => left.1 < right.1

namespace Bindings

variable {Content : Type}

/-- No names. -/
def empty : Bindings Content :=
  ⟨[], .nil⟩

instance : EmptyCollection (Bindings Content) :=
  ⟨empty⟩

/-- What a name is bound to among entries. -/
def find? (name : String) : List (String × Content) → Option Content
  | [] => none
  | (key, content) :: rest => if key = name then some content else find? name rest

/-- Entries with a name bound anew, at the name's place in the order. -/
def place (name : String) (content : Content)
    : List (String × Content) → List (String × Content)
  | [] => [(name, content)]
  | (key, old) :: rest =>
      if name < key then (name, content) :: (key, old) :: rest
      else if name = key then (name, content) :: rest
      else (key, old) :: place name content rest

/-- Placing adds no entry but the one placed, by induction on the entries. -/
theorem mem_place {name : String} {content : Content} {entry : String × Content}
    {entries : List (String × Content)} (h : entry ∈ place name content entries)
    : entry = (name, content) ∨ entry ∈ entries := by
  induction entries with
  | nil => exact .inl (List.mem_singleton.mp h)
  | cons head rest ih =>
      rw [place] at h
      split at h
      · exact List.mem_cons.mp h
      · split at h
        · exact (List.mem_cons.mp h).imp_right (List.mem_cons_of_mem head)
        · rcases List.mem_cons.mp h with h | h
          · exact .inr (h ▸ List.mem_cons_self)
          · exact (ih h).imp_right (List.mem_cons_of_mem head)

/-- A name that is neither below another nor equal to it is above it, by trichotomy. -/
theorem lt_of_not_lt_of_ne {left right : String} (notBelow : ¬ left < right)
    (differ : left ≠ right) : right < left :=
  Decidable.byContradiction fun notAbove =>
    differ (Std.Trichotomous.trichotomous left right notBelow notAbove)

/-- Placing keeps the order, by induction on the entries. -/
theorem pairwise_place (name : String) (content : Content) {entries : List (String × Content)}
    (sorted : entries.Pairwise fun left right => left.1 < right.1)
    : (place name content entries).Pairwise fun left right => left.1 < right.1 := by
  induction sorted with
  | nil => exact List.pairwise_singleton _ _
  | @cons head rest above below ih =>
      rw [place]
      split
      · next first =>
        refine .cons (fun entry member => ?_) (.cons above below)
        rcases List.mem_cons.mp member with rfl | member
        · exact first
        · exact String.lt_trans first (above entry member)
      · next notFirst =>
        split
        · next same => exact .cons (same ▸ above) below
        · next differ =>
          refine .cons (fun entry member => ?_) ih
          rcases mem_place member with rfl | member
          · exact lt_of_not_lt_of_ne notFirst differ
          · exact above entry member

/-- Binds a name, in place of what it was bound to. -/
def insert (bindings : Bindings Content) (name : String) (content : Content)
    : Bindings Content :=
  ⟨place name content bindings.entries, pairwise_place name content bindings.sorted⟩

/-- What a name is bound to. -/
def get? (bindings : Bindings Content) (name : String) : Option Content :=
  find? name bindings.entries

/-- The bound names, in increasing order. -/
def names (bindings : Bindings Content) : List String :=
  bindings.entries.map (·.1)

/-- Binds each name to what stands at its place in the other list, from first to last. -/
def insertAll (bindings : Bindings Content) (entries : List (String × Content))
    : Bindings Content :=
  entries.foldl (fun bindings entry => bindings.insert entry.1 entry.2) bindings

/-- Without names, nothing is found. -/
@[simp]
theorem get?_empty (name : String) : (∅ : Bindings Content).get? name = none :=
  rfl

/-- Placing changes what is found for its name only, by induction on the entries. -/
theorem find?_place (name other : String) (content : Content)
    (entries : List (String × Content))
    : find? other (place name content entries)
      = if name = other then some content else find? other entries := by
  induction entries with
  | nil => simp [place, find?]
  | cons head rest ih =>
      rw [place]
      split
      · simp [find?]
      · split
        · next same =>
          subst same
          by_cases h : head.1 = other <;> simp [find?, h]
        · next differ =>
          by_cases h : head.1 = other
          · have : name ≠ other := fun same => differ (same.trans h.symm)
            simp [find?, h, this]
          · simp [find?, h, ih]

/-- Binding a name changes what is found for that name only. -/
theorem get?_insert (bindings : Bindings Content) (name other : String) (content : Content)
    : (bindings.insert name content).get? other
      = if name = other then some content else bindings.get? other :=
  find?_place name other content bindings.entries

end Bindings

end MiniLisp

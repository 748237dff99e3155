import Mathlib.Data.List.Infix
import MiniLisp.Primitive.Compute
import MiniLisp.Trace

/-! Traces in which calls and returns are in balance.
A call of a closure opens something that its return closes, and a refused one stays open. A call of
a primitive is noted down together with what it comes to.
-/

namespace MiniLisp

-----------------------------------------------------------------------------------------
-- Things that open and close
-----------------------------------------------------------------------------------------

section Brackets

variable {Item : Type} {opens closes : Item → Bool} {left more : Nat} {items others : List Item}
  {item : Item}

/-- Nowhere is more closed than has been opened, and in the end so many things are left open. -/
structure Balanced (opens closes : Item → Bool) (left : Nat) (items : List Item) : Prop where
  closed_le : ∀ front, front <+: items → front.countP closes ≤ front.countP opens
  level : items.countP opens = items.countP closes + left

namespace Balanced

theorem nil : Balanced opens closes 0 [] := by
  refine ⟨fun front within => ?_, rfl⟩
  rw [List.prefix_nil.mp within]
  exact Nat.le_refl _

/-- What comes after balanced items begins where they have left off. -/
theorem append (first : Balanced opens closes left items)
    (second : Balanced opens closes more others)
    : Balanced opens closes (left + more) (items ++ others) where
  closed_le front within := by
    rcases List.prefix_or_prefix_of_prefix within (List.prefix_append items others) with
      inside | ⟨rest, rfl⟩
    · exact first.closed_le front inside
    · have behind := second.closed_le rest ((List.prefix_append_right_inj items).mp within)
      have before := first.level
      simp only [List.countP_append]
      omega
  level := by
    have before := first.level
    have behind := second.level
    simp only [List.countP_append]
    omega

/-- One thing more keeps the balance if the whole comes out even. -/
theorem concat (balanced : Balanced opens closes left items)
    (level : (items ++ [item]).countP opens = (items ++ [item]).countP closes + more)
    : Balanced opens closes more (items ++ [item]) := by
  refine ⟨fun front within => ?_, level⟩
  rcases List.prefix_concat_iff.mp within with rfl | inside
  · omega
  · exact balanced.closed_le front inside

theorem quiet (unopened : opens item = false) (unclosed : closes item = false)
    : Balanced opens closes 0 [item] :=
  nil.concat (by simp [unopened, unclosed])

theorem opening (opened : opens item = true) (unclosed : closes item = false)
    : Balanced opens closes 1 [item] :=
  nil.concat (by simp [opened, unclosed])

/-- What is left open may be closed. -/
theorem close (balanced : Balanced opens closes (left + 1) items) (unopened : opens item = false)
    (closed : closes item = true)
    : Balanced opens closes left (items ++ [item]) := by
  refine balanced.concat ?_
  simp only [List.countP_append, List.countP_singleton, unopened, closed, balanced.level]
  simp
  omega

/-- Balance is kept by whatever leaves alone what opens and what closes. -/
theorem map {Image : Type} {image : Item → Image} {opens' closes' : Image → Bool}
    (balanced : Balanced opens closes left items)
    (opensSame : ∀ item, opens' (image item) = opens item)
    (closesSame : ∀ item, closes' (image item) = closes item)
    : Balanced opens' closes' left (items.map image) := by
  have openCount (part : List Item) : (part.map image).countP opens' = part.countP opens := by
    rw [List.countP_map]
    exact List.countP_congr fun item _ => by simp [opensSame]
  have closeCount (part : List Item) : (part.map image).countP closes' = part.countP closes := by
    rw [List.countP_map]
    exact List.countP_congr fun item _ => by simp [closesSame]
  refine ⟨fun front within => ?_, ?_⟩
  · obtain ⟨part, inside, rfl⟩ := List.prefix_map_iff.mp within
    rw [openCount, closeCount]
    exact balanced.closed_le part inside
  · rw [openCount, closeCount]
    exact balanced.level

end Balanced

end Brackets

-----------------------------------------------------------------------------------------
-- Calls and returns among events
-----------------------------------------------------------------------------------------

namespace Event

/-- The event is the call of a closure. -/
def callsClosure : Event → Bool
  | callClosure .. => true
  | _ => false

/-- The event is the return of a closure. -/
def returnsClosure : Event → Bool
  | closureReturned .. => true
  | _ => false

/-- The event is the call of a primitive. -/
def callsPrimitive : Event → Bool
  | callPrimitive .. => true
  | _ => false

end Event

/-- Each call of a primitive is followed at once by the note of what it comes to. -/
def Answered (events : List Event) : Prop :=
  ∀ before primitive args rest,
    events = before ++ .callPrimitive primitive args :: rest
    → ∃ outcome more,
        primitive.compute? args = some outcome ∧ rest = .primitiveReturned primitive outcome :: more

theorem answered_of_none {events : List Event} (none : events.all (!·.callsPrimitive))
    : Answered events := by
  rintro before primitive args rest rfl
  simp [Event.callsPrimitive] at none

theorem Answered.append {events more : List Event} (first : Answered events)
    (second : Answered more)
    : Answered (events ++ more) := by
  intro before primitive args rest same
  rcases List.append_eq_append_iff.mp same with ⟨gap, rfl, cut⟩ | ⟨gap, rfl, cut⟩
  · exact second gap primitive args rest cut
  · cases gap with
    | nil => exact second [] primitive args rest cut.symm
    | cons event gap =>
        obtain ⟨rfl, rfl⟩ := List.cons.inj cut
        obtain ⟨outcome, behind, computed, rfl⟩ := first before primitive args gap rfl
        exact ⟨outcome, behind ++ more, computed, rfl⟩

/-- The events of calls and returns stand as evaluations leave them, with so many calls of closures
left without a return.
-/
structure InOrder (left : Nat) (events : List Event) : Prop where
  balanced : Balanced Event.callsClosure Event.returnsClosure left events
  answered : Answered events

namespace InOrder

variable {left more : Nat} {events others : List Event}

theorem nil : InOrder 0 [] :=
  ⟨.nil, answered_of_none rfl⟩

theorem append (first : InOrder left events) (second : InOrder more others)
    : InOrder (left + more) (events ++ others) :=
  ⟨first.balanced.append second.balanced, first.answered.append second.answered⟩

/-- What leaves nothing open may come before anything. -/
theorem prepend (first : InOrder 0 events) (second : InOrder left others)
    : InOrder left (events ++ others) := by
  simpa using first.append second

theorem quiet {event : Event} (noCall : event.callsClosure = false)
    (noReturn : event.returnsClosure = false) (noPrimitive : event.callsPrimitive = false)
    : InOrder 0 [event] :=
  ⟨.quiet noCall noReturn, answered_of_none (by simp [noPrimitive])⟩

theorem call (closure : Closure) (args : List Value) : InOrder 1 [.callClosure closure args] :=
  ⟨.opening rfl rfl, answered_of_none rfl⟩

theorem primitive {given : Primitive} {args : List Value} {outcome : Except EvalError Value}
    (computed : given.compute? args = some outcome)
    : InOrder 0 [.callPrimitive given args, .primitiveReturned given outcome] := by
  refine ⟨.append (.quiet rfl rfl) (.quiet rfl rfl), ?_⟩
  intro before other operands rest same
  rcases List.cons_eq_append_iff.mp same with ⟨rfl, cut⟩ | ⟨front, rfl, cut⟩
  · cases cut
    exact ⟨outcome, [], computed, rfl⟩
  · have member : Event.callPrimitive other operands ∈ [Event.primitiveReturned given outcome] := by
      simp [cut]
    simp at member

/-- A call around events that are in order returns. -/
theorem around (inside : InOrder left events) (closure : Closure) (args : List Value)
    (outcome : Except EvalError Value)
    : InOrder left (.callClosure closure args :: events ++ [.closureReturned outcome]) := by
  have opened : InOrder (1 + left) ([.callClosure closure args] ++ events) :=
    (call closure args).append inside
  rw [Nat.add_comm] at opened
  exact ⟨opened.balanced.close rfl rfl, opened.answered.append (answered_of_none rfl)⟩

end InOrder

end MiniLisp

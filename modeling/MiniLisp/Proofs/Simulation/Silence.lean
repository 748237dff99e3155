import Mathlib.Logic.Relation
import MiniLisp.Proofs.Scope.FrameEffects
import MiniLisp.Proofs.Scope.SoundRuns
import MiniLisp.Proofs.Simulation.Agreement

/-! Evaluations that go unnoticed.
An evaluation that defines nothing outside bodies, and any call, touches nothing that is there. What
it leaves behind is new, and nothing that is there leads to it, so later evaluations come out as if
it had never been done.
-/

namespace MiniLisp

namespace Store

/-- All that the first store holds is the same in the second: frames lie in the same frames and bind
the same names to the same values.
-/
structure Untouched (before after : Store) : Prop where
  grows : before.extent.Within after.extent
  parents : ∀ id < before.frames.size, after.parent? id = before.parent? id
  locals : ∀ id < before.frames.size, ∀ name, after.local? id name = before.local? id name

instance : IsPreorder Store Untouched where
  refl _ := ⟨refl_of Extent.Within _, fun _ _ => rfl, fun _ _ _ => rfl⟩
  trans _ _ _ first second := by
    have still {id} (old : id < _) : id < _ := Nat.lt_of_lt_of_le old first.grows.frames
    refine ⟨trans_of Extent.Within first.grows second.grows, fun id old => ?_,
      fun id old name => ?_⟩
    · exact (second.parents id (still old)).trans (first.parents id old)
    · exact (second.locals id (still old) name).trans (first.locals id old name)

variable {before after : Store}

theorem Preserves.untouched (preserves : Preserves before after)
    (grows : before.extent.Within after.extent)
    : before.Untouched after := by
  refine ⟨grows, fun id old => ?_, fun id old name => ?_⟩
  · rw [parent?, parent?, preserves.frames id old]
  · rw [local?, local?, preserves.frames id old]

/-- What changes one frame by no definition touches nothing. -/
theorem Changes.untouched {env : FrameId} {names : String → Prop}
    (changes : Changes env names before after) (none : ∀ name, ¬ names name)
    (grows : before.extent.Within after.extent)
    : before.Untouched after := by
  refine ⟨grows, fun id old => ?_, fun id old name => ?_⟩
  · by_cases own : id = env
    · subst own
      exact changes.parent old
    · rw [parent?, parent?, changes.others id old own]
  · by_cases own : id = env
    · subst own
      exact changes.only old name (none name)
    · rw [local?, local?, changes.others id old own]

end Store

-----------------------------------------------------------------------------------------
-- A store and itself later
-----------------------------------------------------------------------------------------

namespace Matching

/-- Every frame and every closure made so far belongs together with itself. -/
def diagonal (extent : Extent) : Matching where
  frames left right := left = right ∧ left < extent.frames
  closures left right := left = right ∧ left < extent.closures

theorem alike_diagonal {extent : Extent} {value : Value} (made : value.Made extent)
    : Value.Alike ((diagonal extent).Closures Eq) value value := by
  refine made.alike.imp fun left right same => ?_
  obtain ⟨rfl, made⟩ := same
  exact ⟨⟨rfl, made.id⟩, ⟨rfl, made.env⟩, rfl, rfl⟩

theorem biUnique_diagonal (bound : Nat)
    : Relator.BiUnique fun left right : Nat => left = right ∧ left < bound :=
  ⟨fun _ _ _ one another => one.1.trans another.1.symm,
    fun _ _ _ one another => one.1.symm.trans another.1⟩

/-- A sound store matches itself. -/
theorem stores_diagonal {store : Store} (sound : store.Sound)
    : (diagonal store.extent).Stores Eq store store where
  present := by
    rintro left _ ⟨rfl, present⟩
    exact ⟨present, present⟩
  made := by
    rintro left _ ⟨rfl, made⟩
    exact ⟨made, made⟩
  framesUnique := biUnique_diagonal _
  closuresUnique := biUnique_diagonal _
  outer := by
    rintro left _ ⟨rfl, present⟩
    cases found : store.outer? left with
    | none => exact .none
    | some outer => exact .some ⟨rfl, Nat.lt_trans (Store.outer?_lt found) present⟩
  locals := by
    rintro left _ ⟨rfl, _⟩ name
    cases found : store.local? left name with
    | none => exact .none
    | some value => exact .some (alike_diagonal (sound.held found))

/-- A sound store matches what has become of it, as long as nothing in it has been touched. -/
theorem stores_untouched {store later : Store} (sound : store.Sound)
    (untouched : store.Untouched later)
    : (diagonal store.extent).Stores Eq store later := by
  refine (stores_diagonal sound).changeSecond untouched.grows.frames untouched.grows.closures ?_ ?_
  · rintro left _ ⟨rfl, present⟩
    exact untouched.parents left present
  · rintro left _ ⟨rfl, present⟩ name
    exact untouched.locals left present name

theorem relatedEvaluators_evaluate (depth : Nat)
    : (simulation Eq Eq False False).RelatedEvaluators (evaluate depth) (evaluate depth) :=
  @Simulation.relatedEvaluators_of_eq (simulation Eq Eq False False) id (fun _ _ => rfl)
    (fun _ _ => rfl) (fun _ _ _ => ⟨rfl, rfl⟩) (fun _ => rfl) depth

/-- Evaluations that match agree when they end. -/
theorem ends_same {m : Matching} {run run' : Eval Value} {machine machine' : Machine}
    (related
      : (simulation Eq Eq False False).Related m (simulation Eq Eq False False).Values run run')
    (stores : m.Stores Eq machine.store machine'.store)
    : EndTogether False False (fun left right => Eval.SameOutcome Closure.SameCode left.1 right.1)
        (run.on machine) (run'.on machine') := by
  refine (related machine machine' stores).imp fun left right together => ?_
  obtain ⟨m', _, _, outcomes⟩ := together
  have code (one another : Closure) (closures : m'.Closures Eq one another)
      : one.SameCode another :=
    ⟨closures.parameters, closures.body⟩
  exact Eval.sameOutcome_of_outcomes (fun one another closures => (code one another closures).1)
    code (fun _ _ same => same) outcomes

end Matching

-----------------------------------------------------------------------------------------
-- What goes unnoticed
-----------------------------------------------------------------------------------------

namespace Eval

open Store

/-- One thing done on a machine that defines nothing in the frames that are there. An expression is
evaluated that has no definition outside the bodies of procedures and `let`, or a value is called. It
finishes, with a value or an error.
-/
inductive Silent (machine : Machine) : Machine → Prop
  | eval {expr env outcome after} (bodiesOnly : ∀ name, ¬ expr.DefinesHere name)
    (present : env < machine.store.frames.size) (finishes : Finishes expr env machine outcome after)
    : Silent machine after
  | call {callee args outcome after}
    (made : ∀ value ∈ callee :: args, value.Made machine.store.extent)
    (finishes : CallFinishes callee args machine outcome after)
    : Silent machine after

/-- One such thing leaves a sound store, in which all that was there is as it was. -/
theorem Silent.untouched {machine after : Machine} (silent : Silent machine after)
    (sound : machine.store.Sound)
    : after.store.Sound ∧ machine.store.Untouched after.store := by
  have rooted : machine.store.Rooted fun _ => True := fun _ _ _ => trivial
  cases silent with
  | @eval expr env outcome after bodiesOnly present finishes =>
      obtain ⟨depth, finished⟩ := finishes
      have stays := staysSound_evaluate sound rooted present finished
      have changes := keepsFrames_evaluate depth expr env machine outcome after finished
      exact ⟨stays.sound, changes.untouched bodiesOnly stays.grows⟩
  | @call callee args outcome after made finishes =>
      obtain ⟨depth, finished⟩ := finishes
      have stays := staysSound_apply sound rooted made finished
      have preserves := (keepsFrames_evaluate depth).apply callee args machine outcome after finished
      exact ⟨stays.sound, preserves.untouched stays.grows⟩

/-- Nor is anything touched by any number of such things, by induction on them. -/
theorem untouched_of_silent {machine later : Machine} (sound : machine.store.Sound)
    (steps : Relation.ReflTransGen Silent machine later)
    : later.store.Sound ∧ machine.store.Untouched later.store := by
  induction steps with
  | refl => exact ⟨sound, refl_of Untouched machine.store⟩
  | tail _ silent ih =>
      obtain ⟨soundBefore, before⟩ := ih
      obtain ⟨soundAfter, after⟩ := silent.untouched soundBefore
      exact ⟨soundAfter, trans_of Untouched before after⟩

/-- Evaluations without a definition outside bodies, and calls, cannot be observed: after any number
of them, whether they succeed or fail, every evaluation and every call finishes just when it would
have without them, and with the same outcome.
-/
theorem silent_evaluations_unobservable {machine later : Machine} (sound : machine.store.Sound)
    (steps : Relation.ReflTransGen Silent machine later)
    : (∀ expr env,
          env < machine.store.frames.size
          → FinishTogether (Finishes expr env machine) (Finishes expr env later)
              fun outcome _ outcome' _ => SameOutcome Closure.SameCode outcome outcome')
      ∧ ∀ callee args,
          (∀ value ∈ callee :: args, value.Made machine.store.extent)
          → FinishTogether (CallFinishes callee args machine) (CallFinishes callee args later)
              fun outcome _ outcome' _ => SameOutcome Closure.SameCode outcome outcome' := by
  obtain ⟨_, untouched⟩ := untouched_of_silent sound steps
  have stores := Matching.stores_untouched sound untouched
  constructor
  · intro expr env present
    refine finishTogether_of_ends fun depth => Matching.ends_same ?_ stores
    exact Matching.relatedEvaluators_evaluate depth _ () env env expr expr ⟨rfl, present⟩ rfl
  · intro callee args made
    refine finishTogether_of_ends fun depth => Matching.ends_same ?_ stores
    rw [List.forall_mem_cons] at made
    exact Simulation.related_apply (Matching.relatedEvaluators_evaluate depth)
      (Matching.alike_diagonal made.1)
      (List.forall₂_same.mpr fun value member => Matching.alike_diagonal (made.2 value member))

/-- After a call that binds a global name in its own frame, and one that fails, the name means what
it did, and calls do what they did.
-/
theorem global_name_outlasts_calls
    : ∃ start middle later : Machine,
        start.store.Sound
        ∧ Silent start middle
        ∧ middle.store.local? 1 "true" = some (.integer .zero)
        ∧ Silent middle later
        ∧ FinishTogether (Finishes (.symbol "true") 0 start) (Finishes (.symbol "true") 0 later)
            (fun outcome _ outcome' _ => SameOutcome Closure.SameCode outcome outcome')
        ∧ FinishTogether (CallFinishes (.primitive .add) [.bool true] start)
            (CallFinishes (.primitive .add) [.bool true] later)
            (fun outcome _ outcome' _ => SameOutcome Closure.SameCode outcome outcome') := by
  let body : Expr := .form .definition [.symbol "true", .number .zero]
  let start : Machine := ⟨(Store.addGlobal ∅).2, #[]⟩
  have sound : start.store.Sound := sound_empty.addGlobal
  have bodiesOnly (name : String)
      : ¬ (Expr.list [.form .lambda [.list [.symbol "x"], body], .number .zero]).DefinesHere
          name := by
    intro defined
    obtain ⟨item, member, inside⟩ := defined.of_application rfl
    rcases List.mem_pair.mp member with rfl | rfl
    · exact Expr.not_definesHere_lambda _ inside
    · exact Expr.not_definesHere_number _ inside
  have present : 0 < start.store.frames.size := by decide
  have made : ∀ value ∈ [Value.closure ⟨0, ["x"], body, 0⟩], value.Made ⟨2, 1⟩ := by
    rintro _ member closure same
    obtain rfl := Value.closure.inj ((List.mem_singleton.mp member).symm.trans same)
    exact ⟨by decide, by decide⟩
  have steps
      : ∃ middle later,
          Silent start middle
          ∧ middle.store.local? 1 "true" = some (.integer .zero)
          ∧ Silent middle later :=
    ⟨_, _, .eval bodiesOnly present ⟨3, rfl⟩, rfl,
      @Silent.call _ (.closure ⟨0, ["x"], body, 0⟩) [] _ _ made ⟨1, rfl⟩⟩
  obtain ⟨middle, later, first, bound, second⟩ := steps
  have unobservable := silent_evaluations_unobservable sound (.tail (.single first) second)
  refine ⟨start, middle, later, sound, first, bound, second, unobservable.1 _ _ present,
    unobservable.2 _ _ fun value member closure same => ?_⟩
  rcases List.mem_pair.mp member with rfl | rfl <;> cases same

end Eval

end MiniLisp

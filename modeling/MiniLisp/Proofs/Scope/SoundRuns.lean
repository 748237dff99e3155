import MiniLisp.Proofs.Scope.Soundness
import MiniLisp.Proofs.Simulation.Congruence
import MiniLisp.Proofs.Simulation.Session

/-! Evaluation keeps stores sound.
A sound run corresponds to itself: what a simulation says of two runs side by side is an invariant
when both are one run, so the rules of evaluation need not be followed once more.
-/

namespace MiniLisp

/-- The values that an error is about. -/
def EvalError.values : EvalError → List Value
  | .notAProcedure found => [found]
  | .notAnInteger found => [found]
  | _ => []

/-- The values that come with an outcome: the result, or those that the error is about. -/
def Outcome.values : Outcome → List Value
  | .ok value => [value]
  | .error (.eval error) => error.values
  | .error (.read _) => []

-----------------------------------------------------------------------------------------
-- Relations of a run to itself
-----------------------------------------------------------------------------------------

section Diagonal

variable {closures : Closure → Closure → Prop} {holds : Closure → Prop}
  (itself : ∀ left right, closures left right → left = right ∧ holds left)

include itself

/-- Values that are alike are the same, where related closures are. -/
theorem Value.Alike.diagonal {value value' : Value} (alike : Value.Alike closures value value')
    : value = value' ∧ ∀ closure, value = .closure closure → holds closure := by
  cases alike with
  | closure together =>
      obtain ⟨rfl, held⟩ := itself _ _ together
      refine ⟨rfl, fun closure same => ?_⟩
      obtain rfl := Value.closure.inj same
      exact held
  | integer _ | bool _ | primitive _ | unspecified => exact ⟨rfl, nofun⟩

theorem Outcome.Alike.diagonal {malformed : Malformed → Malformed → Prop}
    {outcome outcome' : Outcome} (alike : Outcome.Alike closures malformed outcome outcome')
    : ∀ value ∈ outcome.values, ∀ closure, value = .closure closure → holds closure := by
  cases alike with
  | value together => exact List.forall_mem_singleton.mpr (together.diagonal itself).2
  | failure together =>
      cases together with
      | notAProcedure found | notAnInteger found =>
          exact List.forall_mem_singleton.mpr (found.diagonal itself).2
      | undefinedName _ | arityMismatch _ | closureArity _ _ _ | emptyForm | malformed _
      | overflow _ => exact fun _ member => nomatch member

end Diagonal

section Alone

variable {S : Simulation} (stays : ¬ S.secondMayStop) {w : S.World} {machine after : Machine}
  (stores : S.stores w machine.store machine.store)

include stays stores

/-- An evaluation that corresponds to itself leaves a store that corresponds to itself, and so does
its outcome.
-/
theorem Simulation.itself_of_related {evaluation : Eval Value}
    (related : S.Related w S.Values evaluation evaluation) {outcome : Except EvalError Value}
    (finished : evaluation.on machine = .ok (outcome, after))
    : ∃ w',
        S.Extends w w'
        ∧ S.stores w' after.store after.store
        ∧ S.Results w' (outcome.mapError .eval) (outcome.mapError .eval) := by
  have ends := related machine machine stores
  rw [finished] at ends
  obtain ⟨_, same, w', grows, storesAfter, outcomes⟩ := ends.exists_right stays
  obtain rfl := Except.ok.inj same
  exact ⟨w', grows, storesAfter, outcomes.alike⟩

/-- So do forms in order. -/
theorem Simulation.itself_of_runForms {depth : Nat}
    (agree : S.RelatedEvaluators (evaluate depth) (evaluate depth)) {mode : S.Mode} {env : FrameId}
    (frames : S.frames w mode env env) (code : ∀ form, S.code mode form form) {text : String}
    {forms : List Expr} {outcomes : List Outcome}
    (finished : (Session.runForms depth text env forms).run machine = .ok (outcomes, after))
    : ∃ w',
        S.Extends w w'
        ∧ S.stores w' after.store after.store
        ∧ ∀ outcome ∈ outcomes, S.Results w' outcome outcome := by
  have ends := runForms_together agree mode frames
    (List.forall₂_same.mpr fun form (_ : form ∈ forms) => code form) text text machine machine stores
  rw [finished] at ends
  obtain ⟨_, same, w', grows, storesAfter, results⟩ := ends.exists_right stays
  obtain rfl := Except.ok.inj same
  exact ⟨w', grows, storesAfter, List.forall₂_same.mp results⟩

end Alone

/-- The closures are the same one, which has been made. -/
def Closure.SameMade (extent : Extent) (left right : Closure) : Prop :=
  left = right ∧ left.Made extent

section Alike

variable {extent : Extent}

theorem Value.Made.alike {value : Value} (made : value.Made extent)
    : Value.Alike (Closure.SameMade extent) value value :=
  Value.alike_self fun closure same => ⟨rfl, made closure same⟩

theorem Value.Alike.made {value value' : Value}
    (alike : Value.Alike (Closure.SameMade extent) value value')
    : value = value' ∧ value.Made extent :=
  alike.diagonal fun _ _ => id

theorem Outcome.Alike.made {malformed : Malformed → Malformed → Prop} {outcome outcome' : Outcome}
    (alike : Outcome.Alike (Closure.SameMade extent) malformed outcome outcome')
    : ∀ value ∈ outcome.values, value.Made extent :=
  alike.diagonal fun _ _ => id

end Alike

namespace Soundness

open Store

/-- The correspondence of a run with itself in a sound store whose frames without a parent are among
the roots.
-/
def simulation (roots : FrameId → Prop) : Simulation where
  World := Extent
  Extends := Extent.Within
  Mode := Unit
  frames extent _ env env' := env = env' ∧ env < extent.frames
  closures := Closure.SameMade
  stores extent store store' :=
    store = store' ∧ store.extent = extent ∧ store.Sound ∧ store.Rooted roots
  names _ := Eq
  code _ := Eq
  procedures _ parameters body parameters' body' := parameters = parameters' ∧ body = body'
  fillings extent filling filling' := filling = filling' ∧ filling.frame < extent.frames
  malformed := Eq
  firstMayStop := False
  secondMayStop := False
  preorder := inferInstance
  frames_mono grows frame := ⟨frame.1, Nat.lt_of_lt_of_le frame.2 grows.frames⟩
  closures_mono grows together := ⟨together.1, together.2.mono grows⟩
  fillings_mono grows together := ⟨together.1, Nat.lt_of_lt_of_le together.2 grows.frames⟩
  same _ one another := by rw [one.1, another.1]
  code_of_closures := by
    intro extent left right together
    obtain ⟨rfl, made⟩ := together
    exact ⟨(), ⟨rfl, made.env⟩, rfl, rfl⟩
  procedures_length procedures := congrArg List.length procedures.1
  lookup := by
    intro extent _ store store' env env' name name' stores frame same
    obtain ⟨rfl, rfl, sound, _⟩ := stores
    obtain ⟨rfl, _⟩ := frame
    obtain rfl : name = name' := same
    refine ⟨?_, fun _ => rfl⟩
    cases found : store.lookup? env name with
    | none => exact .none
    | some value => exact .some (sound.lookup? found).alike
  bind := by
    intro extent _ store store' env env' name name' value value' stores frame same together
    obtain ⟨rfl, rfl, sound, rooted⟩ := stores
    obtain ⟨rfl, _⟩ := frame
    obtain rfl : name = name' := same
    obtain ⟨rfl, made⟩ := together.made
    exact ⟨rfl, extent_bind .., sound.bind made env name, rooted.bind env name value⟩
  make := by
    intro extent _ store store' env env' parameters body parameters' body' stores frame procedures
    obtain ⟨rfl, rfl, sound, rooted⟩ := stores
    obtain ⟨rfl, present⟩ := frame
    obtain ⟨rfl, rfl⟩ := procedures
    refine ⟨⟨store.frames.size, store.closures + 1⟩, ⟨Nat.le_refl _, Nat.le_succ _⟩,
      ⟨rfl, rfl, sound.makeClosure, rooted⟩, rfl, ?_⟩
    exact ⟨present, Nat.lt_succ_self _⟩
  spawn := by
    intro extent _ store store' env env' parameters body parameters' body' stores frame procedures
    obtain ⟨rfl, rfl, sound, rooted⟩ := stores
    obtain ⟨rfl, present⟩ := frame
    obtain ⟨rfl, rfl⟩ := procedures
    refine ⟨(store.spawn env).2.extent, store.within_addFrame _,
      ⟨rfl, rfl, sound.spawn present, rooted.addFrame nofun⟩, rfl, ?_⟩
    exact Nat.lt_of_lt_of_eq (Nat.lt_succ_self _) (size_addFrame _ _).symm
  fill := by
    intro extent store store' name name' names names' body body' frame frame' value value' stores
      fillings together
    obtain ⟨rfl, rfl, sound, rooted⟩ := stores
    obtain ⟨⟨⟩, present⟩ := fillings
    obtain ⟨rfl, made⟩ := together.made
    exact ⟨store.extent, refl_of Extent.Within _,
      ⟨rfl, extent_bind .., sound.bind made frame name, rooted.bind frame name value⟩, rfl, present⟩
  filled := by
    intro extent body body' frame frame' fillings
    obtain ⟨⟨⟩, present⟩ := fillings
    exact ⟨(), ⟨rfl, present⟩, rfl⟩

variable {roots : FrameId → Prop}

theorem relatedEvaluators_evaluate (depth : Nat)
    : (simulation roots).RelatedEvaluators (evaluate depth) (evaluate depth) :=
  @Simulation.relatedEvaluators_of_eq (simulation roots) id (fun _ _ => rfl) (fun _ _ => rfl)
    (fun _ _ _ => ⟨rfl, rfl⟩) (fun _ => rfl) depth

end Soundness

-----------------------------------------------------------------------------------------
-- What sound runs leave
-----------------------------------------------------------------------------------------

/-- What a run that gives these values leaves of a sound store: it is still sound, has no new root,
and the values have been made in it.
-/
structure Store.StaysSound (roots : FrameId → Prop) (before after : Store) (values : List Value)
    : Prop where
  sound : after.Sound
  rooted : after.Rooted roots
  grows : before.extent.Within after.extent
  made : ∀ value ∈ values, value.Made after.extent

section Operations

variable {roots : FrameId → Prop} {store : Store} (sound : store.Sound)
  (rooted : store.Rooted roots)

include sound rooted

theorem Store.staysSound_self : store.StaysSound roots store [] :=
  ⟨sound, rooted, refl_of Extent.Within _, fun _ member => nomatch member⟩

theorem Store.staysSound_spawn {parent : FrameId} (present : parent < store.frames.size)
    : store.StaysSound roots (store.spawn parent).2 [] where
  sound := sound.addFrame (fun _ same => Option.some.inj same ▸ present) (by simp)
  rooted := rooted.addFrame nofun
  grows := within_addFrame _ _
  made _ member := nomatch member

theorem Store.staysSound_set {env : FrameId} {name : String} {value : Value}
    (made : value.Made store.extent)
    : store.StaysSound roots (store.set env name value).2
        (store.set env name value).1.toList where
  sound := sound.bind made env name
  rooted := rooted.bind env name value
  grows := extent_bind store env name value ▸ refl_of Extent.Within _
  made _ member := by
    rw [set, extent_bind]
    exact sound.held (Option.mem_toList.mp member)

end Operations

section Runs

open Soundness

variable {roots : FrameId → Prop} {depth : Nat} {env : FrameId} {machine after : Machine}
  (sound : machine.store.Sound) (rooted : machine.store.Rooted roots)

include sound rooted

/-- An evaluation that corresponds to itself keeps the store sound. -/
theorem Eval.staysSound_of_related {evaluation : Eval Value}
    (related
      : (simulation roots).Related machine.store.extent (simulation roots).Values evaluation
          evaluation)
    {outcome : Except EvalError Value} (finished : evaluation.on machine = .ok (outcome, after))
    : machine.store.StaysSound roots after.store (Outcome.values (outcome.mapError .eval)) := by
  have stores : (simulation roots).stores machine.store.extent machine.store machine.store :=
    ⟨rfl, rfl, sound, rooted⟩
  obtain ⟨_, grows, ⟨_, rfl, soundAfter, rootedAfter⟩, outcomes⟩ :=
    Simulation.itself_of_related not_false stores related finished
  exact ⟨soundAfter, rootedAfter, grows, outcomes.made⟩

theorem Eval.staysSound_evaluate (present : env < machine.store.frames.size) {expr : Expr}
    {outcome : Except EvalError Value}
    (finished : (evaluate depth expr env).on machine = .ok (outcome, after))
    : machine.store.StaysSound roots after.store (Outcome.values (outcome.mapError .eval)) :=
  staysSound_of_related sound rooted
    (relatedEvaluators_evaluate depth _ () env env expr expr ⟨rfl, present⟩ rfl) finished

theorem Eval.staysSound_apply {callee : Value} {args : List Value}
    (made : ∀ value ∈ callee :: args, value.Made machine.store.extent)
    {outcome : Except EvalError Value}
    (finished : (Eval.apply (evaluate depth) callee args).on machine = .ok (outcome, after))
    : machine.store.StaysSound roots after.store (Outcome.values (outcome.mapError .eval)) := by
  rw [List.forall_mem_cons] at made
  have operands : List.Forall₂ ((simulation roots).Values machine.store.extent) args args :=
    List.forall₂_same.mpr fun value member => (made.2 value member).alike
  exact staysSound_of_related sound rooted
    (Simulation.related_apply (relatedEvaluators_evaluate depth) made.1.alike operands) finished

theorem Session.staysSound_runForms (present : env < machine.store.frames.size) {text : String}
    {forms : List Expr} {outcomes : List Outcome}
    (finished : (runForms depth text env forms).run machine = .ok (outcomes, after))
    : machine.store.StaysSound roots after.store (outcomes.flatMap Outcome.values) := by
  have frames : (simulation roots).frames machine.store.extent () env env := ⟨rfl, present⟩
  have stores : (simulation roots).stores machine.store.extent machine.store machine.store :=
    ⟨rfl, rfl, sound, rooted⟩
  obtain ⟨_, grows, ⟨_, rfl, soundAfter, rootedAfter⟩, results⟩ :=
    Simulation.itself_of_runForms not_false stores (relatedEvaluators_evaluate depth) frames
      (fun _ => rfl) finished
  refine ⟨soundAfter, rootedAfter, grows, fun value member => ?_⟩
  obtain ⟨outcome, among, member⟩ := List.mem_flatMap.mp member
  exact (results outcome among).made value member

theorem Session.staysSound_runText (present : env < machine.store.frames.size) {text : String}
    {outcomes : List Outcome}
    (finished : (runText depth text env).run machine = .ok (outcomes, after))
    : machine.store.StaysSound roots after.store (outcomes.flatMap Outcome.values) := by
  rw [runText_run] at finished
  split at finished
  · next forms _ =>
    let noted : Machine := { machine with trace := machine.trace.push (.read forms.length text) }
    have soundNoted : noted.store.Sound := sound
    have rootedNoted : noted.store.Rooted roots := rooted
    exact staysSound_runForms soundNoted rootedNoted present finished
  · obtain ⟨rfl, rfl⟩ := Prod.mk.inj (Except.ok.inj finished)
    exact Store.staysSound_self sound rooted

end Runs

end MiniLisp

import MiniLisp.Proofs.Evaluation.Moves
import MiniLisp.Store.Lemmas

/-! What an evaluation does to the frames that are there.
It changes at most the frame that it runs in, and there only what its own definitions name. A call
changes no frame that is there, since its body runs in a new one.
-/

namespace MiniLisp

/-- A definition of the expression has the name as its target and is evaluated in the frame of the
expression itself: it is not part of the body of a procedure or `let`.
-/
inductive Expr.DefinesHere : Expr → String → Prop
  | plain {name body} : DefinesHere (.form .definition [.symbol name, body]) name
  | shorthand {name parameters body}
    : DefinesHere (.form .definition [.list (.symbol name :: parameters), body]) name
  | value {target body name} (inside : DefinesHere body name)
    : DefinesHere (.form .definition [.symbol target, body]) name
  | operand {operands operand name} (member : operand ∈ operands)
    (inside : DefinesHere operand name)
    : DefinesHere (.form .conditional operands) name
  | binding {items bound body name} (member : binding bound ∈ items)
    (inside : DefinesHere bound.2 name)
    : DefinesHere (.form .letIn [.list items, body]) name
  | item {head operands item name} (applied : SpecialForm.ofHead? head = none)
    (member : item ∈ head :: operands) (inside : DefinesHere item name)
    : DefinesHere (.list (head :: operands)) name

namespace Expr

variable {name : String}

/-- A `lambda` defines nothing where it stands, by cases on where a definition may be. -/
theorem not_definesHere_lambda (operands : List Expr)
    : ¬ (form .lambda operands).DefinesHere name := by
  intro defined
  generalize made : form .lambda operands = expr at defined
  cases defined with
  | item applied =>
      obtain ⟨rfl, _⟩ := List.cons.inj (Expr.list.inj made)
      cases applied
  | plain | shorthand | value | operand | binding => simp [form, SpecialForm.keyword] at made

theorem not_definesHere_number (value : Integer) : ¬ (Expr.number value).DefinesHere name :=
  nofun

/-- What an application defines where it stands, one of its items does. -/
theorem DefinesHere.of_application {head : Expr} {operands : List Expr}
    (applied : SpecialForm.ofHead? head = none)
    (defined : (Expr.list (head :: operands)).DefinesHere name)
    : ∃ item ∈ head :: operands, item.DefinesHere name := by
  generalize made : Expr.list (head :: operands) = expr at defined
  cases defined with
  | item _ member inside =>
      obtain ⟨rfl, rfl⟩ := List.cons.inj (Expr.list.inj made)
      exact ⟨_, member, inside⟩
  | plain | shorthand | value | operand | binding =>
      obtain ⟨rfl, _⟩ := List.cons.inj (Expr.list.inj made)
      cases applied

end Expr

namespace Store

/-- Every frame of the first store is the same in the second. -/
structure Preserves (before after : Store) : Prop where
  grows : before.frames.size ≤ after.frames.size
  frames : ∀ id < before.frames.size, after.frame? id = before.frame? id

/-- No frame but one differs from what it was in the first store. That one keeps its parent and its
bound names, and has bindings added or changed for the given names only.
-/
structure Changes (env : FrameId) (names : String → Prop) (before after : Store) : Prop where
  grows : before.frames.size ≤ after.frames.size
  others : ∀ id < before.frames.size, id ≠ env → after.frame? id = before.frame? id
  parent : env < before.frames.size → after.parent? env = before.parent? env
  kept : ∀ name, (before.local? env name).isSome → (after.local? env name).isSome
  only
    : env < before.frames.size
      → ∀ name, ¬ names name → after.local? env name = before.local? env name

theorem local?_eq_none_of_le {store : Store} {env : FrameId} (absent : store.frames.size ≤ env)
    (name : String)
    : store.local? env name = none := by
  rw [local?, frame?, Array.getElem?_eq_none absent, Option.bind_none]

theorem lt_size_of_local? {store : Store} {id : FrameId} {name : String}
    (bound : (store.local? id name).isSome)
    : id < store.frames.size := by
  refine Nat.lt_of_not_le fun absent => ?_
  rw [local?_eq_none_of_le absent] at bound
  cases bound

instance : IsPreorder Store Preserves where
  refl _ := ⟨Nat.le_refl _, fun _ _ => rfl⟩
  trans _ _ _ first second :=
    ⟨Nat.le_trans first.grows second.grows, fun id old =>
      (second.frames id (Nat.lt_of_lt_of_le old first.grows)).trans (first.frames id old)⟩

instance (env : FrameId) (names : String → Prop) : IsPreorder Store (Changes env names) where
  refl _ := ⟨Nat.le_refl _, fun _ _ _ => rfl, fun _ => rfl, fun _ => id, fun _ _ _ => rfl⟩
  trans _ _ _ first second := by
    have still {id} (old : id < _) : id < _ := Nat.lt_of_lt_of_le old first.grows
    refine ⟨Nat.le_trans first.grows second.grows, ?_, ?_, ?_, ?_⟩
    · intro id old other
      exact (second.others id (still old) other).trans (first.others id old other)
    · intro old
      exact (second.parent (still old)).trans (first.parent old)
    · intro name bound
      exact second.kept name (first.kept name bound)
    · intro old name unnamed
      exact (second.only (still old) name unnamed).trans (first.only old name unnamed)

theorem Preserves.changes {before after : Store} (preserves : Preserves before after)
    (env : FrameId) (names : String → Prop)
    : Changes env names before after := by
  refine ⟨preserves.grows, fun id old _ => preserves.frames id old, ?_, ?_, ?_⟩
  · intro old
    rw [parent?, parent?, preserves.frames env old]
  · intro name bound
    rwa [local?, preserves.frames env (lt_size_of_local? bound)]
  · intro old name _
    rw [local?, local?, preserves.frames env old]

theorem Changes.mono {env : FrameId} {names more : String → Prop} {before after : Store}
    (changes : Changes env names before after) (wider : ∀ name, names name → more name)
    : Changes env more before after :=
  { changes with
    only := fun old name unnamed =>
      changes.only old name fun named => unnamed (wider name named) }

theorem changes_bind {env : FrameId} {names : String → Prop} {name : String} (named : names name)
    (store : Store) (value : Value)
    : Changes env names store (store.bind env name value) := by
  refine ⟨Nat.le_of_eq (size_bind ..).symm, ?_, ?_, ?_, ?_⟩
  · intro id _ other
    rw [frame?_bind, if_neg (Ne.symm other)]
  · exact fun _ => parent?_bind ..
  · intro other bound
    rw [local?_bind]
    split
    · rfl
    · exact bound
  · intro _ other unnamed
    rw [local?_bind, if_neg]
    rintro ⟨_, rfl, _⟩
    exact unnamed named

/-- What changes a frame added since then changes no frame that was there before. -/
theorem Changes.changes_new {before middle after : Store} {env new : FrameId}
    {names others : String → Prop} (first : Changes env names before middle)
    (later : before.frames.size ≤ new) (second : Changes new others middle after)
    : Changes env names before after := by
  have same {id : FrameId} (old : id < before.frames.size) : after.frame? id = middle.frame? id :=
    second.others id (Nat.lt_of_lt_of_le old first.grows)
      (Nat.ne_of_lt (Nat.lt_of_lt_of_le old later))
  refine ⟨Nat.le_trans first.grows second.grows, fun id old other => ?_, fun old => ?_,
    fun name bound => ?_, fun old name unnamed => ?_⟩
  · exact (same old).trans (first.others id old other)
  · rw [parent?, same old]
    exact first.parent old
  · rw [local?, same (lt_size_of_local? bound)]
    exact first.kept name bound
  · rw [local?, same old]
    exact first.only old name unnamed

/-- What changes a frame added since then leaves the frames before it as they were. -/
theorem Preserves.changes_new {before middle after : Store} {env : FrameId}
    {names : String → Prop} (first : Preserves before middle) (new : before.frames.size ≤ env)
    (second : Changes env names middle after)
    : Preserves before after := by
  refine ⟨Nat.le_trans first.grows second.grows, fun id old => ?_⟩
  have other : id ≠ env := Nat.ne_of_lt (Nat.lt_of_lt_of_le old new)
  exact (second.others id (Nat.lt_of_lt_of_le old first.grows) other).trans
    (first.frames id old)

/-- The second store is of a kind, if the first is. -/
def Maintains (kind : Store → Prop) (before after : Store) : Prop :=
  kind before → kind after

instance (kind : Store → Prop) : IsPreorder Store (Maintains kind) where
  refl _ := id
  trans _ _ _ first second := second ∘ first

theorem preserves_addFrame (store : Store) (frame : Frame)
    : Preserves store (store.addFrame frame).2 := by
  refine ⟨?_, fun id old => frame?_addFrame_of_lt old frame⟩
  simp only [addFrame, Array.size_push]
  exact Nat.le_succ _

end Store

namespace Eval

open MiniLisp.Expr Store

/-- The evaluator changes no frame but the one it is given, and that one only by the definitions of
the expression.
-/
def KeepsFrames (evaluate : Evaluator) : Prop :=
  ∀ expr env, Moves (Changes env expr.DefinesHere) (evaluate expr env)

section Rules

variable {evaluate : Evaluator} {env : FrameId} {names : String → Prop}

-----------------------------------------------------------------------------------------
-- Bodies run in new frames
-----------------------------------------------------------------------------------------

/-- A body that runs in a new frame preserves the frames before it. -/
theorem KeepsFrames.enters (keeps : KeepsFrames evaluate) (outer : FrameId)
    (entries : List (String × Value)) (body : Expr)
    : Moves Preserves
        (changeStore (·.spawnWith outer entries) >>= fun frame => evaluate body frame) := by
  intro machine outcome after finished
  rw [on_bind, on_changeStore] at finished
  refine (preserves_addFrame machine.store _).changes_new ?_ (keeps body _ _ outcome after finished)
  exact Nat.le_refl _

theorem KeepsFrames.apply (keeps : KeepsFrames evaluate) (callee : Value) (args : List Value)
    : Moves Preserves (apply evaluate callee args) :=
  moves_apply keeps.enters callee args

-----------------------------------------------------------------------------------------
-- Definitions bind in the frame itself
-----------------------------------------------------------------------------------------

theorem preserves_closures (store : Store) (count : Nat)
    : Preserves store { store with closures := count } :=
  ⟨Nat.le_refl _, fun _ _ => rfl⟩

theorem Moves.changes {Result : Type} {evaluation : Eval Result}
    (moves : Moves Preserves evaluation)
    : Moves (Changes env names) evaluation :=
  moves.mono fun _ _ preserves => preserves.changes env names

theorem moves_bindName {name : String} (named : names name) (value : Value)
    : Moves (Changes env names) (bindName env name value) :=
  (still_emit _).moves.bind fun _ =>
    (moves_changeStore fun store => changes_bind named store value).bind fun _ =>
      (still_pure _).moves

/-- A `let` changes no frame that is there but by its bindings' own definitions. The names that it
binds, and those that its body defines, are bound in a frame that is new.
-/
theorem moves_let {bounds : List (String × Expr)} {next : FrameId → Eval Value}
    (inside : ∀ bound ∈ bounds, Moves (Changes env names) (evaluate bound.2 env))
    (ends : ∀ frame, Moves (Changes frame fun _ => True) (next frame))
    : Moves (Changes env names)
        (changeStore (·.spawn env) >>= fun frame =>
          bindEach evaluate env frame (bindings bounds) >>= fun _ => next frame) := by
  intro machine outcome after finished
  rw [on_bind, on_changeStore] at finished
  -- Seen from here, whatever is done to the new frame changes nothing.
  have later (frame : FrameId) (new : machine.store.frames.size ≤ frame) (middle last : Store)
      (changes : Changes frame (fun _ => True) middle last)
      : Maintains (Changes env names machine.store) middle last :=
    fun first => first.changes_new new changes
  have filled
      : Moves (Maintains (Changes env names machine.store))
          (bindEach evaluate env machine.store.frames.size (bindings bounds) >>= fun _ =>
            next machine.store.frames.size) := by
    refine (moves_bindEach (fun store name value => ?_) fun bound member => ?_).bind fun _ => ?_
    · exact later _ (Nat.le_refl _) _ _ (changes_bind trivial store value)
    · exact (inside bound member).mono fun _ _ changes first => trans_of _ first changes
    · exact (ends _).mono (later _ (Nat.le_refl _))
  exact filled _ outcome after finished ((preserves_addFrame machine.store _).changes env names)

/-- What an expression inside changes is among the changes named for the whole. -/
theorem KeepsFrames.inside (keeps : KeepsFrames evaluate) {expr : Expr}
    (named : ∀ name, expr.DefinesHere name → names name)
    : Moves (Changes env names) (evaluate expr env) :=
  (keeps expr env).mono fun _ _ changes => changes.mono named

-----------------------------------------------------------------------------------------
-- Evaluation of any depth
-----------------------------------------------------------------------------------------

/-- One level more keeps frames too, by the shapes of expressions. -/
theorem KeepsFrames.step (keeps : KeepsFrames evaluate) : KeepsFrames (step evaluate) := by
  intro expr env
  cases expr.shape with
  | symbol name => exact (still_emit _).moves.bind fun _ => (still_fetch env name).moves
  | number value => exact (still_emit _).moves.bind fun _ => (still_pure _).moves
  | empty => exact (still_emit _).moves.bind fun _ => (still_throw _).moves
  | miscounted kind operands refused =>
      rw [step_form, evalForm_miscounted _ _ refused]
      exact (still_emit _).moves.bind fun _ => (still_throw _).moves
  | conditional test yes no =>
      rw [step_form, evalForm_conditional]
      have operand (expr : Expr) (member : expr ∈ [test, yes, no])
          : Moves (Changes env (form .conditional [test, yes, no]).DefinesHere)
              (evaluate expr env) :=
        keeps.inside fun name defined => .operand member defined
      refine (still_emit _).moves.bind fun _ => (operand test (by simp)).bind fun answer => ?_
      split
      · exact operand no (by simp)
      · exact operand yes (by simp)
  | define name body =>
      rw [step_form, evalForm_define]
      exact (still_emit _).moves.bind fun _ =>
        (keeps.inside fun other defined => .value defined).bind fun value =>
          moves_bindName .plain value
  | shorthand name parameters body =>
      rw [step_form, evalForm_shorthand, makeClosure_symbols]
      exact (still_emit _).moves.bind fun _ =>
        (moves_close preserves_closures parameters body).changes.bind fun value =>
          moves_bindName .shorthand value
  | shorthandParameter name parameters found rest body noSymbol =>
      rw [step_form, evalForm_shorthand, makeClosure_first env parameters noSymbol]
      exact (still_emit _).moves.bind fun _ => (still_throw _).moves
  | defineTarget target body noSymbol noShorthand =>
      rw [step_form, evalForm_defineTarget evaluate env noSymbol noShorthand]
      exact (still_emit _).moves.bind fun _ => (still_throw _).moves
  | lambda parameters body =>
      rw [step_form, evalForm_lambda, makeClosure_symbols]
      exact (still_emit _).moves.bind fun _ =>
        (moves_close preserves_closures parameters body).changes
  | lambdaParameter parameters found rest body noSymbol =>
      rw [step_form, evalForm_lambda, makeClosure_first env parameters noSymbol]
      exact (still_emit _).moves.bind fun _ => (still_throw _).moves
  | parameterList found body noList =>
      rw [step_form, evalForm_parameterList evaluate env noList]
      exact (still_emit _).moves.bind fun _ => (still_throw _).moves
  | letIn bounds body =>
      rw [step_form, evalForm_letIn]
      refine (still_emit _).moves.bind fun _ => moves_let (fun bound member => ?_) fun frame => ?_
      · exact keeps.inside fun name defined => .binding (List.mem_map_of_mem member) defined
      · exact keeps.inside fun _ _ => trivial
  | letBinding bounds found rest body noBinding =>
      rw [step_form, evalForm_letBinding evaluate env bounds noBinding]
      refine (still_emit _).moves.bind fun _ => moves_let (fun bound member => ?_) fun frame =>
        (still_throw _).moves
      exact keeps.inside fun name defined =>
        .binding (List.mem_append_left _ (List.mem_map_of_mem member)) defined
  | bindingList found body noList =>
      rw [step_form, evalForm_bindingList evaluate env noList]
      exact (still_emit _).moves.bind fun _ => (still_throw _).moves
  | application head operands applied =>
      rw [step_application evaluate env applied]
      refine (still_emit _).moves.bind fun _ => moves_evalApplication (fun item member => ?_)
        fun callee args => (keeps.apply callee args).changes
      exact keeps.inside fun name defined => .item applied member defined

end Rules

theorem keepsFrames_evaluate (depth : Nat) : KeepsFrames (evaluate depth) := by
  induction depth with
  | zero => exact fun _ _ => moves_abort .tooDeep
  | succ depth ih => exact ih.step

/-- Whatever it comes to, an evaluation changes no frame that is there but the one it runs in, where
every bound name stays bound and none is bound anew but by the definitions outside bodies. A call
changes none of the frames that are there.
-/
theorem evaluation_changes_own_frame_only (depth : Nat) (machine after : Machine)
    (outcome : Except EvalError Value)
    : (∀ expr env,
          (evaluate depth expr env).on machine = .ok (outcome, after)
          → Changes env expr.DefinesHere machine.store after.store)
      ∧ ∀ callee args,
          (Eval.apply (evaluate depth) callee args).on machine = .ok (outcome, after)
          → Preserves machine.store after.store :=
  ⟨fun expr env finished => keepsFrames_evaluate depth expr env machine outcome after finished,
    fun callee args finished =>
      (keepsFrames_evaluate depth).apply callee args machine outcome after finished⟩

/-- A `let` that defines one name among its bindings and another in its body, and a call of a
closure that defines a name.
-/
theorem definitions_stay_in_their_frames
    : (∃ outcome after,
        (evaluate 3
              (.form .letIn
                [.list [.list [.symbol "a", .form .definition [.symbol "b", .number .one]]],
                  .form .definition [.symbol "c", .number .one]])
              0).on
            ⟨(Store.addGlobal ∅).2, #[]⟩
          = .ok (outcome, after)
        ∧ Changes 0
            (Expr.form .letIn
                [.list [.list [.symbol "a", .form .definition [.symbol "b", .number .one]]],
                  .form .definition [.symbol "c", .number .one]]).DefinesHere
            (Store.addGlobal ∅).2 after.store)
      ∧ ∃ outcome after,
        (Eval.apply (evaluate 2)
              (.closure ⟨0, ["x"], .form .definition [.symbol "true", .number .zero], 0⟩)
              [.unspecified]).on
            ⟨(Store.addGlobal ∅).2, #[]⟩
          = .ok (outcome, after)
        ∧ Preserves (Store.addGlobal ∅).2 after.store := by
  refine ⟨⟨_, _, rfl, ?_⟩, _, _, rfl, ?_⟩
  · exact (evaluation_changes_own_frame_only 3 ⟨(Store.addGlobal ∅).2, #[]⟩ _ _).1 _ _ rfl
  · exact (evaluation_changes_own_frame_only 2 ⟨(Store.addGlobal ∅).2, #[]⟩ _ _).2
      (.closure ⟨0, ["x"], .form .definition [.symbol "true", .number .zero], 0⟩)
      [.unspecified] rfl

end Eval

end MiniLisp

import MiniLisp.Proofs.Evaluation.Forms
import MiniLisp.Proofs.Simulation.Correspondence
import MiniLisp.Store.Lemmas

/-! Simulations: correspondences that every operation on the store keeps.
The rules of evaluation keep them then too, given that the evaluation of the expressions inside
does. A frame for a body is made empty and filled name by name, and between the bindings of a `let`
there are evaluations; only when it is filled is the body evaluated in it.
-/

namespace MiniLisp

/-- A frame that has been made for a body, and the names that are still to be bound in it. -/
structure Filling where
  names : List String
  body : Expr
  frame : FrameId

/-- A correspondence that looking up, binding, making closures and filling new frames keep. -/
structure Simulation extends Correspondence where
  fillings : World → Filling → Filling → Prop
  preorder : IsPreorder World Extends
  frames_mono
    : ∀ {w w' mode env env'}, Extends w w' → frames w mode env env' → frames w' mode env env'
  closures_mono
    : ∀ {w w' left right}, Extends w w' → closures w left right → closures w' left right
  fillings_mono
    : ∀ {w w' filling filling'},
        Extends w w' → fillings w filling filling' → fillings w' filling filling'
  same
    : ∀ {w store store' left right other other'},
        stores w store store'
        → closures w left right
        → closures w other other'
        → (left.id = other.id ↔ right.id = other'.id)
  code_of_closures
    : ∀ {w left right},
        closures w left right
        → ∃ mode,
            frames w mode left.env right.env
            ∧ procedures mode left.parameters left.body right.parameters right.body
  procedures_length
    : ∀ {mode parameters body parameters' body'},
        procedures mode parameters body parameters' body'
        → parameters.length = parameters'.length
  lookup
    : ∀ {w mode store store' env env' name name'},
        stores w store store'
        → frames w mode env env'
        → names mode name name'
        → Option.Rel (toCorrespondence.Values w) (store.lookup? env name)
            (store'.lookup? env' name')
          ∧ (store.lookup? env name = none → name = name')
  bind
    : ∀ {w mode store store' env env' name name' value value'},
        stores w store store'
        → frames w mode env env'
        → names mode name name'
        → toCorrespondence.Values w value value'
        → stores w (store.bind env name value) (store'.bind env' name' value')
  make
    : ∀ {w mode store store' env env' parameters body parameters' body'},
        stores w store store'
        → frames w mode env env'
        → procedures mode parameters body parameters' body'
        → ∃ w',
            Extends w w'
            ∧ stores w' (store.makeClosure parameters body env).2
                (store'.makeClosure parameters' body' env').2
            ∧ closures w' (store.makeClosure parameters body env).1
                (store'.makeClosure parameters' body' env').1
  spawn
    : ∀ {w mode store store' env env' parameters body parameters' body'},
        stores w store store'
        → frames w mode env env'
        → procedures mode parameters body parameters' body'
        → ∃ w',
            Extends w w'
            ∧ stores w' (store.spawn env).2 (store'.spawn env').2
            ∧ fillings w' ⟨parameters, body, (store.spawn env).1⟩
                ⟨parameters', body', (store'.spawn env').1⟩
  fill
    : ∀ {w store store' name name' names names' body body' frame frame' value value'},
        stores w store store'
        → fillings w ⟨name :: names, body, frame⟩ ⟨name' :: names', body', frame'⟩
        → toCorrespondence.Values w value value'
        → ∃ w',
            Extends w w'
            ∧ stores w' (store.bind frame name value) (store'.bind frame' name' value')
            ∧ fillings w' ⟨names, body, frame⟩ ⟨names', body', frame'⟩
  filled
    : ∀ {w body body' frame frame'},
        fillings w ⟨[], body, frame⟩ ⟨[], body', frame'⟩
        → ∃ mode, frames w mode frame frame' ∧ code mode body body'

namespace Simulation

open MiniLisp.Expr Eval Correspondence

variable {S : Simulation} {w w' : S.World}

instance (S : Simulation) : IsPreorder S.World S.Extends :=
  S.preorder

-----------------------------------------------------------------------------------------
-- What belongs together does so forever
-----------------------------------------------------------------------------------------

theorem values_mono (grows : S.Extends w w') {value value' : Value}
    (together : S.Values w value value')
    : S.Values w' value value' :=
  together.imp fun _ _ => S.closures_mono grows

-----------------------------------------------------------------------------------------
-- Names, definitions and closures
-----------------------------------------------------------------------------------------

/-- Bindings correspond wherever the stores still do with them. -/
theorem related_bindName_of_kept {env env' : FrameId} {name name' : String} {value value' : Value}
    (kept
      : ∀ store other,
          S.stores w store other
          → S.stores w (store.bind env name value) (other.bind env' name' value'))
    : S.Related w S.Values (bindName env name value) (bindName env' name' value') := by
  have bound : S.Related w (fun _ _ _ => True) (define env name value)
      (define env' name' value') :=
    related_changeStore fun store other stores =>
      ⟨w, refl_of S.Extends w, kept store other stores, trivial⟩
  exact (bound.bind fun _ _ _ _ _ => related_pure .unspecified).emitBoth _ _

section Steps

variable {mode : S.Mode} {env env' : FrameId} (frames : S.frames w mode env env')

include frames

theorem related_fetch {name name' : String} (names : S.names mode name name')
    : S.Related w S.Values (fetch env name) (fetch env' name') := by
  intro machine other stores
  obtain ⟨found, undefined⟩ := S.lookup stores frames names
  rw [on_fetch, on_fetch]
  generalize machine.store.lookup? env name = value at found undefined ⊢
  generalize other.store.lookup? env' name' = value' at found ⊢
  cases found with
  | some together => exact .finished ⟨w, refl_of S.Extends w, stores, .ok together⟩
  | none =>
      obtain rfl := undefined rfl
      exact .finished ⟨w, refl_of S.Extends w, stores, .error (.undefinedName name)⟩

theorem related_bindName {name name' : String} (names : S.names mode name name')
    {value value' : Value} (together : S.Values w value value')
    : S.Related w S.Values (bindName env name value) (bindName env' name' value') :=
  related_bindName_of_kept fun _ _ stores => S.bind stores frames names together

theorem related_close {parameters parameters' : List String} {body body' : Expr}
    (procedures : S.procedures mode parameters body parameters' body')
    : S.Related w S.Values (close env parameters body) (close env' parameters' body') := by
  have made : S.Related w S.closures (changeStore (·.makeClosure parameters body env))
      (changeStore (·.makeClosure parameters' body' env')) :=
    related_changeStore fun store other stores => S.make stores frames procedures
  exact made.bind fun _ _ _ _ together => related_pure (.closure together)

omit frames in
/-- Frames are filled with corresponding values, one after the other, by induction on these. -/
theorem fillAll {store store' : Store} (stores : S.stores w store store')
    {parameters parameters' : List String} (count : parameters.length = parameters'.length)
    {body body' : Expr} {frame frame' : FrameId}
    (fillings : S.fillings w ⟨parameters, body, frame⟩ ⟨parameters', body', frame'⟩)
    {values values' : List Value} (together : List.Forall₂ (S.Values w) values values')
    (enough : values.length = parameters.length)
    : ∃ w' mode',
        S.Extends w w'
        ∧ S.stores w' (store.bindAll frame (parameters.zip values))
            (store'.bindAll frame' (parameters'.zip values'))
        ∧ S.frames w' mode' frame frame'
        ∧ S.code mode' body body' := by
  induction values generalizing w store store' parameters parameters' values' with
  | nil =>
      obtain rfl := List.length_eq_zero_iff.mp enough.symm
      obtain rfl := List.length_eq_zero_iff.mp count.symm
      obtain ⟨mode', frames, code⟩ := S.filled fillings
      exact ⟨w, mode', refl_of S.Extends w, stores, frames, code⟩
  | cons value values ih =>
      obtain ⟨value', values', head, rest, rfl⟩ := List.forall₂_cons_left_iff.mp together
      obtain ⟨name, names, rfl⟩ := List.exists_cons_of_length_eq_add_one enough.symm
      obtain ⟨name', names', rfl⟩ := List.exists_cons_of_length_eq_add_one count.symm
      obtain ⟨middle, grows, stores, fillings⟩ := S.fill stores fillings head
      obtain ⟨w', mode', grows', after, entered⟩ :=
        ih stores (Nat.succ.inj count) fillings
          (rest.imp fun _ _ => values_mono grows) (Nat.succ.inj enough)
      exact ⟨w', mode', trans_of S.Extends grows grows', after, entered⟩

/-- Procedures entered with corresponding values run corresponding code in corresponding frames. -/
theorem related_enter {evaluate evaluate' : Evaluator}
    (agree : S.RelatedEvaluators evaluate evaluate') {parameters parameters' : List String}
    {body body' : Expr} (procedures : S.procedures mode parameters body parameters' body')
    {values values' : List Value} (together : List.Forall₂ (S.Values w) values values')
    (count : values.length = parameters.length)
    : S.Related w S.Values
        (changeStore (·.spawnWith env (parameters.zip values)) >>= fun frame =>
          evaluate body frame)
        (changeStore (·.spawnWith env' (parameters'.zip values')) >>= fun frame =>
          evaluate' body' frame) := by
  have entered : S.Related w
      (fun w' frame frame' =>
        ∃ mode', S.frames w' mode' frame frame' ∧ S.code mode' body body')
      (changeStore (·.spawnWith env (parameters.zip values)))
      (changeStore (·.spawnWith env' (parameters'.zip values'))) := by
    refine related_changeStore fun store other stores => ?_
    obtain ⟨middle, grows, stores, fillings⟩ := S.spawn stores frames procedures
    obtain ⟨w', mode', grows', after, frames, code⟩ :=
      fillAll stores (S.procedures_length procedures) fillings
        (together.imp fun _ _ => values_mono grows) count
    rw [Store.spawnWith_eq_bindAll, Store.spawnWith_eq_bindAll]
    exact ⟨w', trans_of S.Extends grows grows', after, mode', frames, code⟩
  refine entered.bind fun w' frame frame' grows inside => ?_
  obtain ⟨mode', frame, code⟩ := inside
  exact agree w' mode' _ _ body body' frame code

/-- A frame that is made for a body in both runs. -/
theorem related_spawn {parameters parameters' : List String} {body body' : Expr}
    (procedures : S.procedures mode parameters body parameters' body')
    : S.Related w
        (fun w' frame frame' =>
          S.fillings w' ⟨parameters, body, frame⟩ ⟨parameters', body', frame'⟩)
        (changeStore (·.spawn env)) (changeStore (·.spawn env')) :=
  related_changeStore fun _ _ stores => S.spawn stores frames procedures

/-- The bindings of a `let` fill corresponding frames, by induction on them: what is still to be
bound stays so while the next expression is evaluated.
-/
theorem related_bindEach {evaluate evaluate' : Evaluator}
    (agree : S.RelatedEvaluators evaluate evaluate') {bounds bounds' : List (String × Expr)}
    (code : List.Forall₂ (S.code mode) (bounds.map (·.2)) (bounds'.map (·.2)))
    {body body' : Expr} {frame frame' : FrameId}
    (fillings : S.fillings w ⟨bounds.map (·.1), body, frame⟩ ⟨bounds'.map (·.1), body', frame'⟩)
    : S.Related w (fun w' _ _ => S.fillings w' ⟨[], body, frame⟩ ⟨[], body', frame'⟩)
        (bindEach evaluate env frame (bindings bounds))
        (bindEach evaluate' env' frame' (bindings bounds')) := by
  induction bounds generalizing w bounds' with
  | nil =>
      cases bounds' with
      | nil => exact related_pure fillings
      | cons _ _ => cases code
  | cons bound rest ih =>
      cases bounds' with
      | nil => cases code
      | cons bound' rest' =>
          rw [bindEach_cons, bindEach_cons]
          rw [List.map_cons, List.map_cons, List.forall₂_cons] at code
          refine (agree w mode env env' _ _ frames code.1).bind
            fun w₁ value value' grows together => ?_
          have bound
              : S.Related w₁
                  (fun w' _ _ =>
                    S.fillings w' ⟨rest.map (·.1), body, frame⟩ ⟨rest'.map (·.1), body', frame'⟩)
                  (define frame bound.1 value) (define frame' bound'.1 value') :=
            related_changeStore fun _ _ stores =>
              S.fill stores (S.fillings_mono grows fillings) together
          exact bound.bind fun w₂ _ _ grows' fillings =>
            ih (S.frames_mono (trans_of S.Extends grows grows') frames) code.2 fillings

/-- A `let` up to its end, which is the evaluation of its body or a complaint. -/
theorem related_let {evaluate evaluate' : Evaluator}
    (agree : S.RelatedEvaluators evaluate evaluate') {bounds bounds' : List (String × Expr)}
    (code : List.Forall₂ (S.code mode) (bounds.map (·.2)) (bounds'.map (·.2)))
    {body body' : Expr}
    (procedures : S.procedures mode (bounds.map (·.1)) body (bounds'.map (·.1)) body')
    {next next' : FrameId → Eval Value}
    (ends
      : ∀ w' frame frame',
          S.fillings w' ⟨[], body, frame⟩ ⟨[], body', frame'⟩
          → S.Related w' S.Values (next frame) (next' frame'))
    : S.Related w S.Values
        (changeStore (·.spawn env) >>= fun frame =>
          bindEach evaluate env frame (bindings bounds) >>= fun _ => next frame)
        (changeStore (·.spawn env') >>= fun frame =>
          bindEach evaluate' env' frame (bindings bounds') >>= fun _ => next' frame) := by
  refine (related_spawn frames procedures).bind fun w₁ frame frame' grows fillings => ?_
  exact (related_bindEach (S.frames_mono grows frames) agree code fillings).bind
    fun w₂ _ _ _ filled => ends w₂ frame frame' filled

/-- Expressions evaluated one after the other: later ones run in a world that earlier ones have
extended, which the values of the earlier ones outlast.
-/
theorem related_each {evaluate evaluate' : Evaluator}
    (agree : S.RelatedEvaluators evaluate evaluate') {exprs exprs' : List Expr}
    (code : List.Forall₂ (S.code mode) exprs exprs')
    : S.Related w
        (fun w' values values' =>
          List.Forall₂ (S.Values w') values values' ∧ values.length = exprs.length)
        (each evaluate env exprs) (each evaluate' env' exprs') := by
  induction code generalizing w with
  | nil => exact related_pure ⟨.nil, rfl⟩
  | cons head _ ih =>
      refine (agree w mode env env' _ _ frames head).bind fun w₁ value value' grows together => ?_
      refine (ih (S.frames_mono grows frames)).bind fun w₂ values values' grows' rest => ?_
      obtain ⟨rest, count⟩ := rest
      exact related_pure ⟨.cons (values_mono grows' together) rest, by simp [count]⟩

end Steps

-----------------------------------------------------------------------------------------
-- Calls
-----------------------------------------------------------------------------------------

/-- Corresponding operands are the same integers, or their first failures correspond. -/
theorem integers_together {args args' : List Value}
    (together : List.Forall₂ (S.Values w) args args')
    : (∃ numbers, integers args = .ok numbers ∧ integers args' = .ok numbers)
      ∨ ∃ error error',
          integers args = .error error
          ∧ integers args' = .error error'
          ∧ S.Errors w error error' := by
  induction together with
  | nil => exact .inl ⟨[], rfl, rfl⟩
  | cons head _ ih =>
      cases head with
      | integer value =>
          rcases ih with ⟨numbers, first, second⟩ | ⟨error, error', first, second, together⟩
          · exact .inl ⟨value :: numbers, by simp [integers, first, Except.map],
              by simp [integers, second, Except.map]⟩
          · exact .inr ⟨error, error', by simp [integers, first, Except.map],
              by simp [integers, second, Except.map], together⟩
      | bool value => exact .inr ⟨_, _, rfl, rfl, .notAnInteger (.bool value)⟩
      | closure together => exact .inr ⟨_, _, rfl, rfl, .notAnInteger (.closure together)⟩
      | primitive given => exact .inr ⟨_, _, rfl, rfl, .notAnInteger (.primitive given)⟩
      | unspecified => exact .inr ⟨_, _, rfl, rfl, .notAnInteger .unspecified⟩

/-- Equality is the same on both sides, by cases on the kinds of values. -/
theorem same_together {store store' : Store} (stores : S.stores w store store')
    {left left' right right' : Value} (first : S.Values w left left')
    (second : S.Values w right right')
    : left.same right = left'.same right' := by
  cases first <;> cases second <;> simp only [Value.same]
  rename_i left left' first right right' second
  exact decide_eq_decide.mpr (S.same stores first second)

/-- What comes of a computation that takes integers or complains. -/
inductive Computed (S : Simulation) (w : S.World)
    : Option (Except EvalError Value) → Option (Except EvalError Value) → Prop
  | none : Computed S w none none
  | some {outcome outcome'} (together : S.Outcomes w (S.Values w) outcome outcome')
    : Computed S w (some outcome) (some outcome')

theorem computed_fitted (primitive : Primitive) (result : Option Integer)
    : Computed S w (some (primitive.fitted result)) (some (primitive.fitted result)) := by
  cases result with
  | none => exact .some (.error (.overflow primitive))
  | some value => exact .some (.ok (.integer value))

theorem computed_onIntegers {compute : List Integer → Option (Except EvalError Value)}
    (self : ∀ numbers, Computed S w (compute numbers) (compute numbers))
    {args args' : List Value} (together : List.Forall₂ (S.Values w) args args')
    : Computed S w (Primitive.onIntegers compute args) (Primitive.onIntegers compute args') := by
  unfold Primitive.onIntegers
  rcases integers_together together with ⟨numbers, first, second⟩ | ⟨_, _, first, second, same⟩
  · rw [first, second]
    exact self numbers
  · rw [first, second]
    exact .some (.error same)

theorem computed_compute {store store' : Store} (stores : S.stores w store store')
    (primitive : Primitive) {args args' : List Value}
    (together : List.Forall₂ (S.Values w) args args')
    : Computed S w (primitive.compute? args) (primitive.compute? args') := by
  cases primitive with
  | add => exact computed_onIntegers (fun numbers => computed_fitted .add _) together
  | mul => exact computed_onIntegers (fun numbers => computed_fitted .mul _) together
  | sub =>
      refine computed_onIntegers (fun numbers => ?_) together
      unfold Primitive.difference?
      split
      · exact computed_fitted .sub _
      · exact computed_fitted .sub _
      · exact .none
  | less =>
      refine computed_onIntegers (fun numbers => ?_) together
      unfold Primitive.order?
      split
      · exact .some (.ok (.bool _))
      · exact .none
  | equal =>
      rcases together with _ | ⟨first, _ | ⟨second, _ | ⟨_, _⟩⟩⟩
      · exact .none
      · exact .none
      · simp only [Primitive.compute?, Primitive.equality?, same_together stores first second]
        exact .some (.ok (.bool _))
      · exact .none

theorem related_checkArity (expected : Arity) (got : Nat) {name name' : String}
    (together
      : S.Errors w (.arityMismatch ⟨name, expected, got⟩) (.arityMismatch ⟨name', expected, got⟩))
    : S.Related w (fun _ _ _ => expected.Admits got) (checkArity expected got name)
        (checkArity expected got name') := by
  unfold checkArity
  split
  · next admits => exact related_pure admits
  · exact related_throw together

theorem related_callPrimitive (primitive : Primitive) {args args' : List Value}
    (together : List.Forall₂ (S.Values w) args args')
    : S.Related w S.Values (callPrimitive primitive args) (callPrimitive primitive args') := by
  unfold callPrimitive
  rw [together.length_eq]
  refine (related_checkArity primitive.arity args'.length (.arityMismatch _)).bind
    fun w' _ _ grows _ => RelatedSince.emitBoth ?_ _ _
  intro machine other stores
  have later := together.imp fun _ _ => values_mono grows
  have computed := computed_compute stores primitive later
  generalize primitive.compute? args = result at computed ⊢
  generalize primitive.compute? args' = result' at computed ⊢
  cases computed with
  | none => exact related_abort _ _ machine other stores
  | some together =>
      exact (related_of_outcomes together).emitBoth _ _ machine other stores

theorem related_callClosure {evaluate evaluate' : Evaluator}
    (agree : S.RelatedEvaluators evaluate evaluate') {closure closure' : Closure}
    (closures : S.closures w closure closure') {args args' : List Value}
    (together : List.Forall₂ (S.Values w) args args')
    : S.Related w S.Values (callClosure evaluate closure args)
        (callClosure evaluate' closure' args') := by
  obtain ⟨mode, frames, procedures⟩ := S.code_of_closures closures
  have arity : closure'.arity = closure.arity := by
    rw [Closure.arity, Closure.arity, S.procedures_length procedures]
  unfold callClosure
  rw [← together.length_eq, arity]
  refine RelatedSince.emitBoth (Related.bind (related_checkArity closure.arity args.length
    (.closureArity closures _ _)) fun w' _ _ grows admitted => ?_) _ _
  have count : args.length = closure.parameters.length := Arity.exactly_admits_iff.mp admitted
  rw [noteReturn_changeStore, noteReturn_changeStore]
  exact (related_enter (S.frames_mono grows frames) agree procedures
    (together.imp fun _ _ => values_mono grows) count).noteBoth

theorem related_apply {evaluate evaluate' : Evaluator}
    (agree : S.RelatedEvaluators evaluate evaluate') {callee callee' : Value}
    (procedure : S.Values w callee callee') {args args' : List Value}
    (together : List.Forall₂ (S.Values w) args args')
    : S.Related w S.Values (apply evaluate callee args) (apply evaluate' callee' args') := by
  cases procedure with
  | primitive given => exact related_callPrimitive given together
  | closure closures => exact related_callClosure agree closures together
  | integer value => exact related_throw (.notAProcedure (.integer value))
  | bool value => exact related_throw (.notAProcedure (.bool value))
  | unspecified => exact related_throw (.notAProcedure .unspecified)

theorem related_evalApplication {evaluate evaluate' : Evaluator}
    (agree : S.RelatedEvaluators evaluate evaluate') {mode : S.Mode} {env env' : FrameId}
    (frames : S.frames w mode env env') {items items' : List Expr}
    (code : List.Forall₂ (S.code mode) items items')
    : S.Related w S.Values (evalApplication evaluate items env)
        (evalApplication evaluate' items' env') := by
  refine (related_each frames agree code).bind fun w' values values' grows together => ?_
  obtain ⟨together, _⟩ := together
  cases together with
  | nil => exact related_abort _ _
  | cons procedure args => exact related_apply agree procedure args

end Simulation

end MiniLisp

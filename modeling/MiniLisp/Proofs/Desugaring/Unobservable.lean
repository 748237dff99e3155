import MiniLisp.Proofs.Desugaring.Rewriting
import MiniLisp.Proofs.Simulation.Congruence
import MiniLisp.Proofs.Simulation.Programs

/-! Desugared programs do what the programs did.
The two runs match up to the identities of closures and the places of frames: a `let` that has been
rewritten makes a closure that nothing else ever sees, and needs one more level of depth to do so. The
`let` makes its frame before its expressions are evaluated and has it to itself until they all have
been, when the rewritten one makes the frame of its call.
-/

namespace MiniLisp

open MiniLisp.Expr Eval Correspondence

/-- The correspondence of a run with that of the rewritten program: wherever the one evaluates an
expression or keeps it in a closure, the other has it rewritten.
-/
abbrev desugaring (firstMayStop secondMayStop : Prop) : Simulation :=
  PrivateMatching.simulation (fun expr expr' => expr' = expr.desugar) Eq firstMayStop secondMayStop

/-- What the bindings of a `let` have come to, of which the first run binds each as its turn comes and
the second only evaluates them: as many values, which are bound to the names in the frame that the
first run has to itself.
-/
structure Gathered (w : PrivateMatching) (id : FrameId) (frame : Frame) (names : List String)
    (w' : PrivateMatching) (values' : List Value)
    : Prop where
  matching : w.toMatching.Extends w'.toMatching
  count : values'.length = names.length
  filled
    : ∃ values,
        List.Forall₂ (Value.Alike (w'.Closures fun expr expr' => expr' = expr.desugar)) values
          values'
        ∧ w'.own id
          = some { frame with bindings := frame.bindings.insertAll (names.zip values) }

section Steps

variable {first second : Prop} {base w : PrivateMatching} {env env' : FrameId} {depth : Nat}

-----------------------------------------------------------------------------------------
-- What only one run does
-----------------------------------------------------------------------------------------

/-- Only the second run makes a closure, if it has the depth to evaluate the `lambda`. -/
theorem related_makeSecond (allowed : depth = 0 → second) {Left : Type}
    {results : PrivateMatching → Left → Value → Prop} {evaluation : Eval Left}
    (parameters : List String) (body : Expr) (env' : FrameId) {next : Value → Eval Value}
    (rest
      : ∀ id,
          (desugaring first second).RelatedSince base w results evaluation
            (next (.closure ⟨id, parameters, body, env'⟩)))
    : (desugaring first second).RelatedSince base w results evaluation
        (evaluate depth (form .lambda [.list (symbols parameters), body]) env' >>= next) := by
  cases depth with
  | zero => exact fun _ _ _ => .secondStopped (allowed rfl) _ _
  | succ depth =>
      rw [evaluate, step_form, evalForm_lambda, makeClosure_symbols, close, bind_assoc, bind_assoc]
      refine RelatedSince.emitSecond (RelatedSince.secondAlone fun machine other stores => ?_) _
      exact ⟨_, _, w, rfl, ⟨stores.closureSecond _ (Nat.le_succ _), stores.kept, stores.unmatched⟩,
        rest other.store.closures⟩

/-- Only the first run makes a frame, which it has to itself. -/
theorem related_spawnFirst (frames : (desugaring first second).frames w () env env')
    {results : PrivateMatching → Value → Value → Prop} {next : FrameId → Eval Value}
    {evaluation : Eval Value}
    (rest
      : ∀ id,
          w.own id = none
          → env < id
          → (desugaring first second).RelatedSince w (w.withOwn id (some ⟨∅, some env⟩)) results
              (next id) evaluation)
    : (desugaring first second).Related w results (changeStore (·.spawn env) >>= next)
        evaluation := by
  refine RelatedSince.firstAlone fun machine other stores => ?_
  obtain ⟨unowned, after⟩ := stores.spawnFirst env
  exact ⟨_, _, _, rfl, after, rest _ unowned (stores.present frames).1⟩

/-- Only the first run binds a name, in a frame that it has to itself. -/
theorem related_defineFirst {id : FrameId} {frame : Frame} (mine : w.own id = some frame)
    (name : String) (value : Value) {Left Right : Type}
    {results : PrivateMatching → Left → Right → Prop} {evaluation : Eval Left}
    {evaluation' : Eval Right}
    (rest
      : (desugaring first second).RelatedSince base
          (w.withOwn id (some { frame with bindings := frame.bindings.insert name value })) results
          evaluation evaluation')
    : (desugaring first second).RelatedSince base w results
        (define id name value >>= fun _ => evaluation) evaluation' :=
  RelatedSince.firstAlone fun _ _ stores =>
    ⟨_, _, _, rfl, stores.bindFirst mine name value, rest⟩

/-- Only the second run makes a frame: the one that the first run has had to itself, with matching
contents.
-/
theorem related_adopt {id : FrameId} {names : List String} {values values' : List Value}
    (mine : w.own id = some ⟨(∅ : Bindings Value).insertAll (names.zip values), some env⟩)
    (older : env < id) (frames : (desugaring first second).frames w () env env')
    (together : List.Forall₂ ((desugaring first second).Values w) values values')
    {results : PrivateMatching → Value → Value → Prop} {evaluation : Eval Value}
    {next : FrameId → Eval Value}
    (rest
      : ∀ id',
          (desugaring first second).RelatedSince base (w.sharing id id') results evaluation
            (next id'))
    : (desugaring first second).RelatedSince base w results evaluation
        (changeStore (·.spawnWith env' (names.zip values')) >>= next) := by
  refine RelatedSince.secondAlone fun machine other stores => ?_
  refine ⟨_, _, _, rfl, stores.adopt mine ?_ (.some frames) fun name => ?_, rest _⟩
  · exact fun _ same => Option.some.inj same ▸ older
  · exact Bindings.get?_insertAll_zip (List.forall₂_same.mpr fun _ _ => Iff.rfl) together

-----------------------------------------------------------------------------------------
-- Shorthands and `let`
-----------------------------------------------------------------------------------------

variable (frames : (desugaring first second).frames w () env env') (allowed : depth = 0 → second)

section Shorthand

include frames allowed

/-- Both runs make a closure, the second one by evaluating a `lambda`. -/
theorem related_closeSecond (parameters : List String) {body body' : Expr}
    (code : body' = body.desugar)
    : (desugaring first second).Related w (desugaring first second).Values
        (close env parameters body)
        (evaluate depth (form .lambda [.list (symbols parameters), body']) env') := by
  cases depth with
  | zero => exact fun _ _ _ => .secondStopped (allowed rfl) _ _
  | succ depth =>
      rw [evaluate, step_form, evalForm_lambda, makeClosure_symbols]
      exact RelatedSince.emitSecond (Simulation.related_close frames ⟨code, rfl⟩) _

/-- The shorthand and the definition of a `lambda` make and bind the same procedure. -/
theorem step_shorthand {evaluate : Evaluator} (name : String) (parameters : List String)
    (body : Expr)
    : (desugaring first second).Related w (desugaring first second).Values
        (step evaluate (form .definition [.list (.symbol name :: symbols parameters), body]) env)
        (step (MiniLisp.evaluate depth)
          (form .definition [.list (.symbol name :: symbols parameters), body]).desugar env') := by
  rw [desugar_shorthand, step_form, evalForm_shorthand, makeClosure_symbols, step_form,
    evalForm_define]
  refine RelatedSince.emitBoth ?_ _ _
  exact (related_closeSecond frames allowed parameters rfl).bind
    fun w' value value' grows together =>
      Simulation.related_bindName ((desugaring first second).frames_mono grows frames) rfl together

end Shorthand

variable {evaluate : Evaluator}
  (agree : (desugaring first second).RelatedEvaluators evaluate (MiniLisp.evaluate depth))

include agree

/-- The expressions of a `let` and the operands of its call, by induction on them: the frame that the
first run fills stays its own while the next expression is evaluated.
-/
theorem related_gather (frames : (desugaring first second).frames base () env env')
    (grows : base.Extends w) {id : FrameId} (unowned : base.own id = none) {frame : Frame}
    (mine : w.own id = some frame) (bounds : List (String × Expr))
    : (desugaring first second).RelatedSince base w
        (fun w' _ values' => Gathered w id frame (bounds.map (·.1)) w' values')
        (bindEach evaluate env id (bindings bounds))
        (each (MiniLisp.evaluate depth) env' (bounds.map (desugar ·.2))) := by
  induction bounds generalizing w frame with
  | nil =>
      have gathered : Gathered w id frame [] w [] :=
        ⟨refl_of Matching.Extends _, rfl, [], .nil, mine⟩
      exact ((related_pure gathered).since grows).imp fun _ _ _ => And.right
  | cons bound rest ih =>
      rw [bindEach_cons, List.map_cons, List.map_cons, each]
      have evaluated := agree w () env env' bound.2 _ (grows.matching.frames frames) rfl
      refine (evaluated.since grows).bind fun w₁ value value' grows₁ together => ?_
      obtain ⟨extends₁, together⟩ := together
      refine related_defineFirst (extends₁.own mine) bound.1 value ?_
      refine (ih (grows₁.withOwn unowned _) (Function.update_self ..)).mapSecond
        fun w₂ _ values' _ gathered => ?_
      obtain ⟨extends₂, count, values, others, filled⟩ := gathered
      refine ⟨trans_of Matching.Extends extends₁.matching extends₂, congrArg (· + 1) count,
        value :: values, .cons ?_ others, filled⟩
      exact together.imp fun _ _ => Matching.Closures.mono extends₂

include frames allowed

/-- A `let` and an applied `lambda`: the expressions are evaluated in the same order, and the body
in a frame that binds the same names.
-/
theorem step_letIn (bounds : List (String × Expr)) (body : Expr)
    : (desugaring first second).Related w (desugaring first second).Values
        (step evaluate (form .letIn [.list (bindings bounds), body]) env)
        (step (MiniLisp.evaluate depth)
          (form .letIn [.list (bindings bounds), body]).desugar env') := by
  rw [desugar_letIn, step_form, evalForm_letIn, step_application _ _ rfl, evalApplication, each,
    bind_assoc]
  -- Before the expressions are evaluated, the one run makes its frame and the other its closure.
  refine RelatedSince.emitBoth (related_makeSecond allowed _ _ env' fun made => ?_) _ _
  refine related_spawnFirst frames fun id unowned older => ?_
  simp only [bind_assoc, pure_bind]
  refine (related_gather agree frames ((refl_of PrivateMatching.Extends w).withOwn unowned _)
    unowned (Function.update_self ..) bounds).bind fun w' _ values' grows gathered => ?_
  obtain ⟨_, count, values, together, filled⟩ := gathered
  have admitted : (Closure.arity ⟨made, bounds.map (·.1), body.desugar, env'⟩).Admits
      values'.length :=
    Arity.exactly_admits_iff.mpr count
  rw [apply, callClosure, checkArity, if_pos admitted, pure_bind, noteReturn_changeStore]
  refine RelatedSince.emitSecond (RelatedSince.noteSecond ?_) _
  refine related_adopt filled older (grows.matching.frames frames) together fun id' => ?_
  have inside : (desugaring first second).frames (PrivateMatching.sharing w' id id') () id id' :=
    .inr ⟨rfl, rfl⟩
  exact ((agree _ () id id' body _ inside rfl).since (grows.sharing unowned id')).imp
    fun _ _ _ => And.right

/-- One level of evaluation agrees on an expression and what it is rewritten to, by cases on its
shape.
-/
theorem step_desugar (expr : Expr)
    : (desugaring first second).Related w (desugaring first second).Values
        (step evaluate expr env) (step (MiniLisp.evaluate depth) expr.desugar env') := by
  have same {expr : Expr}
      (congruent : (desugaring first second).Congruent () expr expr.desugar)
      : (desugaring first second).Related w (desugaring first second).Values
          (step evaluate expr env) (step (MiniLisp.evaluate depth) expr.desugar env') :=
    Simulation.step_congruent agree frames congruent
  cases expr.shape with
  | letIn bounds body => exact step_letIn frames allowed agree bounds body
  | shorthand name parameters body => exact step_shorthand frames allowed name parameters body
  | symbol name => exact same (.symbol rfl)
  | number value => exact same (.number value)
  | empty => exact same .empty
  | miscounted kind operands refused =>
      refine same ?_
      rw [desugar_miscounted refused]
      exact .miscounted kind refused rfl
  | conditional test yes no => exact same (.conditional rfl rfl rfl)
  | define name body => exact same (.define rfl rfl)
  | shorthandParameter name parameters found rest body noSymbol =>
      refine same ?_
      rw [desugar_shorthandParameter name parameters noSymbol]
      exact .shorthandParameter noSymbol noSymbol rfl
  | defineTarget target body noSymbol noShorthand =>
      refine same ?_
      rw [desugar_defineTarget noSymbol noShorthand]
      exact .defineTarget noSymbol noShorthand noSymbol noShorthand rfl
  | lambda parameters body =>
      refine same ?_
      rw [desugar_lambda]
      exact .lambda ⟨rfl, rfl⟩
  | lambdaParameter parameters found rest body noSymbol =>
      refine same ?_
      rw [desugar_lambdaParameter parameters noSymbol]
      exact .lambdaParameter noSymbol noSymbol rfl
  | parameterList found body noList =>
      refine same ?_
      rw [desugar_parameterList noList]
      exact .parameterList noList noList rfl
  | letBinding bounds found rest body noBinding =>
      refine same ?_
      rw [desugar_letBinding bounds noBinding]
      have procedures
          : (desugaring first second).procedures () (bounds.map (·.1)) body
              ((bounds.map fun bound => (bound.1, bound.2.desugar)).map (·.1)) body.desugar := by
        refine ⟨rfl, ?_⟩
        rw [List.map_map]
        rfl
      refine .letBinding ?_ procedures noBinding noBinding rfl
      rw [List.map_map, List.forall₂_map_left_iff, List.forall₂_map_right_iff, List.forall₂_same]
      exact fun bound _ => rfl
  | bindingList found body noList =>
      refine same ?_
      rw [desugar_bindingList noList]
      exact .bindingList noList noList rfl
  | application head operands applied =>
      refine same ?_
      rw [desugar_application applied, List.map_cons]
      refine .application applied ((ofHead?_desugar head).trans applied) ?_
      rw [← List.map_cons, List.forall₂_map_right_iff, List.forall₂_same]
      exact fun item _ => rfl

end Steps

-----------------------------------------------------------------------------------------
-- Runs and programs
-----------------------------------------------------------------------------------------

/-- Given one more level, the rewritten program finishes wherever the program does, by induction on
the depth.
-/
theorem desugared_follows (depth : Nat)
    : (desugaring True False).RelatedEvaluators (evaluate depth) (evaluate (depth + 1)) := by
  induction depth with
  | zero => exact fun _ _ _ _ _ _ _ _ _ _ _ => .firstStopped trivial _ _
  | succ depth ih =>
      intro w mode env env' expr _ frames same
      subst same
      exact step_desugar frames (fun none => absurd none (Nat.succ_ne_zero depth)) ih expr

/-- The program finishes wherever the rewritten one does, by induction on the depth. -/
theorem desugared_leads (depth : Nat)
    : (desugaring False True).RelatedEvaluators (evaluate depth) (evaluate depth) := by
  induction depth with
  | zero => exact fun _ _ _ _ _ _ _ _ => related_abort _ _
  | succ depth ih =>
      intro w mode env env' expr _ frames same
      subst same
      exact step_desugar frames (fun _ => trivial) ih expr

/-- Desugaring is unobservable: a program and its rewritten form finish alike, show the same values
and the same complaints, and leave the same scope.
-/
theorem Session.shows_desugar_iff (text text' : String) (program : List Expr)
    (shown : List (Except String String)) (scope : String)
    : Shows text (program.map desugar) shown scope ↔ Shows text' program shown scope := by
  have related : List.Forall₂ (fun expr expr' : Expr => expr' = expr.desugar) program
      (program.map desugar) := by
    rw [List.forall₂_map_right_iff, List.forall₂_same]
    exact fun expr _ => rfl
  constructor
  · exact PrivateMatching.shows_of_second related fun depth => ⟨depth, desugared_leads depth⟩
  · exact PrivateMatching.shows_of_first related fun depth => ⟨depth + 1, desugared_follows depth⟩

open Session in
/-- `(let ((n 1)) 1)` is rewritten and shows its value, `(let (n) 1)` is not and shows why. -/
example
    : ∃ scope,
        Shows ""
          ([form .letIn [.list [binding ("n", .number .one)], .number .one],
            form .letIn [.list [.symbol "n"], .number .one]].map desugar)
          [.ok "1", .error "bad syntax: let: malformed binding n"] scope :=
  ⟨_, _, _, ⟨3, _, rfl⟩, by decide, rfl⟩

end MiniLisp

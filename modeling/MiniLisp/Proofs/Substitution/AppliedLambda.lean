import MiniLisp.Proofs.Simulation.Congruence
import MiniLisp.Proofs.Simulation.Silence
import MiniLisp.Proofs.Substitution.Scopes

/-! Applying a `lambda` to a number is evaluating its body with the number for the parameter.
The parameter may be looked up long after the call has returned, from a procedure that was made in
it: the frame of the call is where every such search ends.
-/

namespace MiniLisp.Substitution

open MiniLisp.Expr Eval

/-- The correspondence of a run that binds a name to a number and a run that has the number for the
name.
-/
def simulation (name : String) (constant : Integer) : Simulation where
  World := List (Place Side)
  Extends := Settling
  Mode := Side
  frames places side env env' := env = env' ∧ places[env]? = some (.settled side)
  closures := Closures name constant
  stores := Stores name constant
  names side key key' := key = key' ∧ Used name side key
  code := Code name constant
  procedures := Procedures name constant
  fillings := Fillings name constant
  malformed := Eq
  firstMayStop := False
  secondMayStop := False
  preorder := inferInstance
  frames_mono grows frames := ⟨frames.1, grows.settled frames.2⟩
  closures_mono grows := Closures.mono grows
  fillings_mono grows := Fillings.mono grows
  same := by
    intro places store store' left right other other' stores first second
    rw [first.id, second.id]
  code_of_closures := by
    intro places left right together
    obtain ⟨side, found, procedures⟩ := together.code
    exact ⟨side, ⟨together.env, found⟩, procedures⟩
  procedures_length procedures := congrArg List.length procedures.same
  lookup := by
    intro places side store store' env _ key _ stores frames named
    obtain ⟨rfl, found⟩ := frames
    obtain ⟨rfl, used⟩ := named
    exact ⟨stores.lookup found used, fun _ => rfl⟩
  bind := by
    intro places side store store' env _ key _ value value' stores frames named together
    obtain ⟨rfl, found⟩ := frames
    obtain ⟨rfl, used⟩ := named
    exact stores.bind found used together
  make := by
    intro places side store store' env _ parameters body parameters' body' stores frames procedures
    obtain ⟨rfl, found⟩ := frames
    exact ⟨places, refl_of Settling places, stores.makeClosure, stores.closures, rfl, side, found,
      procedures⟩
  spawn := by
    intro places side store store' env _ parameters body parameters' body' stores frames procedures
    obtain ⟨rfl, found⟩ := frames
    obtain ⟨made, after, fillings⟩ := stores.spawnFor found procedures
    exact ⟨_, settling_append places made, after, fillings⟩
  fill stores fillings together := stores.fill fillings together
  filled := by
    intro places body body' frame frame' fillings
    obtain ⟨same, _, place, side, found, filled, code⟩ := fillings
    cases filled with
    | settled _ => exact ⟨side, ⟨same, found⟩, code⟩
    | entering awaited => cases awaited

variable {name : String} {constant : Integer}

-----------------------------------------------------------------------------------------
-- Code in which the number stands for the name
-----------------------------------------------------------------------------------------

/-- A body goes together with what becomes of it under its parameters. -/
theorem procedures_under {body : Expr} (never : NeverDefines name body) (parameters : List String)
    : Procedures name constant .inside parameters body parameters
        (substituteUnder name constant parameters body) := by
  refine ⟨rfl, ?_⟩
  unfold inner substituteUnder
  split
  · exact .outside body
  · exact .inside never

/-- So does the body of a `let`, under the names that it binds. -/
theorem procedures_bounds {body : Expr} (never : NeverDefines name body)
    (bounds : List (String × Expr))
    : Procedures name constant .inside (bounds.map (·.1)) body
        ((bounds.map (substituteBound name constant)).map (·.1))
        (substituteUnder name constant (bounds.map (·.1)) body) := by
  have names : (bounds.map (substituteBound name constant)).map (·.1) = bounds.map (·.1) := by
    rw [List.map_map]
    rfl
  rw [names]
  exact procedures_under never (bounds.map (·.1))

theorem procedures_outside (parameters : List String) (body : Expr)
    : Procedures name constant .outside parameters body parameters body := by
  refine ⟨rfl, ?_⟩
  unfold inner
  rw [ite_self]
  exact .outside body

theorem code_each {exprs : List Expr} (never : ∀ expr ∈ exprs, NeverDefines name expr)
    : List.Forall₂ (Code name constant .inside) exprs (exprs.map (substitute name constant)) := by
  rw [List.forall₂_map_right_iff, List.forall₂_same]
  exact fun expr member => .inside (never expr member)

theorem code_bounds {bounds : List (String × Expr)}
    (never : ∀ bound ∈ bounds, NeverDefines name bound.2)
    : List.Forall₂ (Code name constant .inside) (bounds.map (·.2))
        ((bounds.map (substituteBound name constant)).map (·.2)) := by
  rw [List.map_map, List.forall₂_map_left_iff, List.forall₂_map_right_iff, List.forall₂_same]
  exact fun bound member => .inside (never bound member)

theorem congruent_outside (expr : Expr)
    : (simulation name constant).Congruent .outside expr expr :=
  @Correspondence.congruent_self (simulation name constant).toCorrespondence .outside
    (fun _ => ⟨rfl, nofun⟩) .outside procedures_outside (fun _ => rfl) expr

/-- An expression other than the name itself keeps its shape, by cases on that. -/
theorem congruent_inside {expr : Expr} (other : expr ≠ .symbol name)
    (never : NeverDefines name expr)
    : (simulation name constant).Congruent .inside expr (substitute name constant expr) := by
  cases expr.shape with
  | symbol key =>
      have differs : key ≠ name := fun same => other (congrArg Expr.symbol same)
      rw [substitute_symbol_other differs]
      exact .symbol ⟨rfl, fun _ => differs⟩
  | number value => exact .number value
  | empty => exact .empty
  | miscounted kind operands refused =>
      rw [substitute_miscounted refused]
      exact .miscounted kind refused rfl
  | conditional test yes no =>
      have inside := never.operand
      rw [substitute_conditional]
      exact .conditional (.inside (inside test (by simp))) (.inside (inside yes (by simp)))
        (.inside (inside no (by simp)))
  | define target body =>
      rw [substitute_define]
      exact .define ⟨rfl, fun _ => never.target_ne⟩ (.inside (never.operand body (by simp)))
  | shorthand target parameters body =>
      rw [substitute_shorthand]
      exact .shorthand ⟨rfl, fun _ => never.shorthand_ne⟩
        (procedures_under (never.operand body (by simp)) parameters)
  | shorthandParameter target parameters found rest body noSymbol =>
      rw [substitute_shorthandParameter target parameters noSymbol]
      exact .shorthandParameter noSymbol noSymbol rfl
  | defineTarget target body noSymbol noShorthand =>
      rw [substitute_defineTarget noSymbol noShorthand]
      exact .defineTarget noSymbol noShorthand noSymbol noShorthand rfl
  | lambda parameters body =>
      rw [substitute_lambda]
      exact .lambda (procedures_under (never.operand body (by simp)) parameters)
  | lambdaParameter parameters found rest body noSymbol =>
      rw [substitute_lambdaParameter parameters noSymbol]
      exact .lambdaParameter noSymbol noSymbol rfl
  | parameterList found body noList =>
      rw [substitute_parameterList noList]
      exact .parameterList noList noList rfl
  | letIn bounds body =>
      have values : ∀ bound ∈ bounds, NeverDefines name bound.2 := by
        rw [← List.append_nil (bindings bounds)] at never
        exact never.bound
      rw [substitute_letIn]
      exact .letIn (code_bounds values) (procedures_bounds (never.operand body (by simp)) bounds)
  | letBinding bounds found rest body noBinding =>
      rw [substitute_letBinding bounds noBinding]
      exact .letBinding (code_bounds never.bound)
        (procedures_bounds (never.operand body (by simp)) bounds) noBinding noBinding rfl
  | bindingList found body noList =>
      rw [substitute_bindingList noList]
      exact .bindingList noList noList rfl
  | application head operands applied =>
      rw [substitute_application applied, List.map_cons]
      exact .application applied (ofHead?_substitute applied) (code_each never.item)

-----------------------------------------------------------------------------------------
-- Evaluation
-----------------------------------------------------------------------------------------

/-- Inside, the name comes to the number. -/
theorem related_constant {places : List (Place Side)} {env : FrameId}
    (found : places[env]? = some (.settled .inside))
    : (simulation name constant).Related places (simulation name constant).Values (fetch env name)
        (pure (.integer constant)) := by
  intro machine other stores
  have meaning : machine.store.lookup? env name = some (.integer constant) :=
    Stores.lookup_inside stores found
  rw [on_fetch, meaning]
  exact .finished ⟨places, refl_of Settling places, stores, .ok (.integer constant)⟩

/-- Runs of the same depth correspond, by induction on it. Only the name itself changes its shape. -/
theorem relatedEvaluators_evaluate (name : String) (constant : Integer) (depth : Nat)
    : (simulation name constant).RelatedEvaluators (evaluate depth) (evaluate depth) := by
  induction depth with
  | zero => exact fun _ _ _ _ _ _ _ _ => Correspondence.related_abort .tooDeep .tooDeep
  | succ depth ih =>
      intro places side env env' expr expr' frames code
      cases code with
      | outside expr =>
          exact Simulation.step_congruent ih frames (congruent_outside expr)
      | inside never =>
          by_cases same : expr = .symbol name
          · subst same
            rw [substitute_symbol_self]
            exact (related_constant frames.2).emitBoth _ _
          · exact Simulation.step_congruent ih frames (congruent_inside same never)

/-- An applied `lambda` makes a closure and evaluates its body in a new frame, which binds the
parameter.
-/
theorem on_appliedOne (depth : Nat) (parameter : String) (body : Expr) (operand : Integer)
    (env : FrameId) (machine : Machine)
    : ∃ trace,
        (evaluate (depth + 2)
              (.list [form .lambda [.list (symbols [parameter]), body], .number operand]) env).on
            machine
          = (noteReturn (evaluate (depth + 1) body machine.store.frames.size)).on
              ⟨((machine.store.makeClosure [parameter] body env).2.spawnWith env
                  [(parameter, .integer operand)]).2, trace⟩ :=
  ⟨_, rfl⟩

/-- Without a parameter the new frame binds nothing. -/
theorem on_appliedNone (depth : Nat) (body : Expr) (env : FrameId) (machine : Machine)
    : ∃ trace,
        (evaluate (depth + 2) (.list [form .lambda [.list (symbols []), body]]) env).on machine
          = (noteReturn (evaluate (depth + 1) body machine.store.frames.size)).on
              ⟨((machine.store.makeClosure [] body env).2.spawnWith env []).2, trace⟩ :=
  ⟨_, rfl⟩

/-- The call of the `lambda` and the body with the number in it end together. -/
theorem applied_together {machine : Machine} (sound : machine.store.Sound) {env : FrameId}
    (present : env < machine.store.frames.size) {body : Expr} (never : NeverDefines name body)
    (depth : Nat)
    : EndTogether False False
        (fun left right => SameOutcome Closure.SameText left.1 right.1)
        ((evaluate depth
            (.list [form .lambda [.list (symbols [name]), body], .number constant]) env).on
          machine)
        ((evaluate depth
            (.list [form .lambda [.list (symbols []), substitute name constant body]]) env).on
          machine) := by
  match depth with
  | 0 | 1 => exact .stopped .tooDeep .tooDeep
  | depth + 2 =>
      obtain ⟨trace, first⟩ := on_appliedOne depth name body constant env machine
      obtain ⟨trace', second⟩ :=
        on_appliedNone depth (substitute name constant body) env machine
      rw [first, second]
      have outside
          : (List.replicate machine.store.frames.size (Place.settled Side.outside))[env]?
            = some (.settled .outside) := by
        rw [List.getElem?_replicate, if_pos present]
      have inside
          : (List.replicate machine.store.frames.size (Place.settled Side.outside)
                ++ [.settled .inside])[machine.store.frames.size]?
            = some (.settled .inside) := by
        simp
      have before
          : Stores name constant (List.replicate machine.store.frames.size (.settled .outside))
              machine.store machine.store :=
        stores_outside sound
      have stores := before.makeClosure.bindConstant outside
      have related := relatedEvaluators_evaluate name constant (depth + 1) _ _ _ _ body _
        ⟨rfl, inside⟩ (.inside never)
      refine (related.noteBoth ⟨_, trace⟩ ⟨_, trace'⟩ stores).imp fun left right together => ?_
      obtain ⟨places, _, _, outcomes⟩ := together
      have named (one another : Closure) (closures : Closures name constant places one another)
          : one.parameters = another.parameters := by
        obtain ⟨_, _, procedures⟩ := closures.code
        exact procedures.same
      exact sameOutcome_of_outcomes named
        (fun one another closures => closure_text_eq (named one another closures))
        (fun _ _ same => same) outcomes

/-- An applied `lambda` over numbers defines nothing in the frame that it is evaluated in. -/
theorem not_definesHere_applied {parameters : List Expr} {body : Expr} (operands : List Integer)
    (key : String)
    : ¬ (Expr.list (form .lambda [.list parameters, body] :: operands.map .number)).DefinesHere
        key := by
  intro defined
  obtain ⟨item, member, inside⟩ := defined.of_application rfl
  rcases List.mem_cons.mp member with rfl | member
  · exact not_definesHere_lambda _ inside
  · obtain ⟨operand, _, rfl⟩ := List.mem_map.mp member
    exact not_definesHere_number operand inside

/-- Applying a `lambda` to a number agrees with evaluating its body with the number for every free
occurrence of the parameter that is evaluated, as long as the body defines the parameter nowhere: the
two finish together, with the same value, a closure in the same printed form or an error in the same
words, and both leave all that was there as it was.
-/
theorem applied_lambda_substitutes {machine : Machine} (sound : machine.store.Sound)
    {env : FrameId} (present : env < machine.store.frames.size) (constant : Integer) {name : String}
    {body : Expr} (never : NeverDefines name body)
    : FinishTogether
        (Finishes (.list [form .lambda [.list [.symbol name], body], .number constant]) env machine)
        (Finishes (.list [form .lambda [.list [], substitute name constant body]]) env machine)
        fun outcome after outcome' after' =>
          SameOutcome Closure.SameText outcome outcome'
          ∧ machine.store.Untouched after.store
          ∧ machine.store.Untouched after'.store := by
  refine (finishTogether_of_ends (applied_together sound present never)).imp
    fun first second same => ⟨same, ?_, ?_⟩
  · have silent := Silent.eval (not_definesHere_applied [constant]) present first
    exact (silent.untouched sound).2
  · have silent := Silent.eval (not_definesHere_applied []) present second
    exact (silent.untouched sound).2

/-- A procedure that looks its maker's parameter up when it is called: with the number for the
parameter it has another body and the same printed form.
-/
theorem captured_parameter_substitutes
    : ∃ start after after' : Machine,
        start.store.Sound
        ∧ NeverDefines "x" (form .lambda [.list [.symbol "y"], .symbol "x"])
        ∧ Finishes
            (.list [form .lambda [.list [.symbol "x"],
              form .lambda [.list [.symbol "y"], .symbol "x"]], .number .one])
            0 start (.ok (.closure ⟨1, ["y"], .symbol "x", 1⟩)) after
        ∧ Finishes
            (.list [form .lambda [.list [], form .lambda [.list [.symbol "y"], .number .one]]])
            0 start (.ok (.closure ⟨1, ["y"], .number .one, 1⟩)) after'
        ∧ SameOutcome Closure.SameText
            (.ok (.closure ⟨1, ["y"], .symbol "x", 1⟩))
            (.ok (.closure ⟨1, ["y"], .number .one, 1⟩))
        ∧ start.store.Untouched after.store
        ∧ start.store.Untouched after'.store := by
  let start : Machine := ⟨(Store.addGlobal ∅).2, #[]⟩
  have sound : start.store.Sound := Store.sound_empty.addGlobal
  have present : 0 < start.store.frames.size := by decide
  have never : NeverDefines "x" (form .lambda [.list [.symbol "y"], .symbol "x"]) := by
    refine .list (fun item member => ?_) (by simp [form]) (by simp [form])
    simp only [List.mem_cons, List.not_mem_nil, or_false] at member
    rcases member with rfl | rfl | rfl
    · exact .symbol _
    · refine .list (fun item member => ?_) (by simp [form]) (by simp [form])
      obtain rfl := List.mem_singleton.mp member
      exact .symbol "y"
    · exact .symbol "x"
  have runs
      : ∃ after after',
          Finishes
            (.list [form .lambda [.list [.symbol "x"],
              form .lambda [.list [.symbol "y"], .symbol "x"]], .number .one])
            0 start (.ok (.closure ⟨1, ["y"], .symbol "x", 1⟩)) after
          ∧ Finishes
            (.list [form .lambda [.list [], form .lambda [.list [.symbol "y"], .number .one]]])
            0 start (.ok (.closure ⟨1, ["y"], .number .one, 1⟩)) after' :=
    ⟨_, _, ⟨2, rfl⟩, ⟨2, rfl⟩⟩
  obtain ⟨after, after', first, second⟩ := runs
  obtain ⟨outcome, _, second', same, untouched, untouched'⟩ :=
    (applied_lambda_substitutes sound present .one never).follows first
  obtain ⟨rfl, rfl⟩ := second.unique second'
  exact ⟨start, after, after', sound, never, first, second, same, untouched, untouched'⟩

end MiniLisp.Substitution

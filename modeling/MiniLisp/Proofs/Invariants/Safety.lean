import MiniLisp.Proofs.Invariants.Texts

/-! No program breaks a promise between parts of the evaluator, and arithmetic never wraps. -/

namespace MiniLisp

namespace Invariant

/-- The invariant that asks for nothing. Every evaluation obeys it, and what obeys an invariant
breaks no promise.
-/
def nothing : Invariant where
  Grows _ _ := True
  stores _ := True
  frames _ _ := True
  closures _ _ := True
  code _ := True
  preorder := isPreorder_anything
  frames_mono _ := id
  closures_mono _ := id
  code_item _ _ := trivial
  code_of_closure _ := ⟨trivial, trivial⟩
  held _ _ _ _ := trivial
  bind _ _ _ := ⟨trivial, trivial⟩
  make _ _ _ _ := ⟨trivial, trivial, trivial⟩
  spawn _ _ := ⟨trivial, trivial, trivial⟩

theorem Ends.not_breach {Result : Type} {I : Invariant} {before : Store}
    {results : Store → Result → Prop}
    {ended : Except Abort (Except EvalError Result × Machine)} (ends : I.Ends before results ended)
    (what : Breach)
    : ended ≠ .error (.breach what) := by
  cases ends <;> exact nofun

theorem FormsEnd.not_breach {I : Invariant} {before : Store}
    {ended : Except Abort (List Outcome × Machine)} (ends : I.FormsEnd before ended) (what : Breach)
    : ended ≠ .error (.breach what) := by
  cases ends <;> exact nofun

end Invariant

-----------------------------------------------------------------------------------------
-- Calls of primitives
-----------------------------------------------------------------------------------------

namespace Primitive

/-- The outcome of arithmetic that comes to an unbounded integer: that integer if everything on the
way to it fits, and otherwise an overflow.
-/
structure Arithmetic (primitive : Primitive) (numbers : List Integer) (total : Int)
    (outcome : Except EvalError Value)
    : Prop where
  result
    : (∀ number ∈ primitive.partials (values numbers), Integer.Fits number)
      → ∃ result, result.toInt = total ∧ outcome = .ok (.integer result)
  overflow
    : (∃ number ∈ primitive.partials (values numbers), ¬ Integer.Fits number)
      → outcome = .error (.overflow primitive)

theorem operands_inj {numbers others : List Integer} (same : operands numbers = operands others)
    : numbers = others := by
  have decoded := congrArg integers same
  rw [integers_operands, integers_operands] at decoded
  exact Except.ok.inj decoded

/-- Operands that are all integers have no first that is none. -/
theorem operands_ne_first {numbers others : List Integer} {found : Value}
    (other : ∀ number, found ≠ .integer number) (rest : List Value)
    : operands numbers ≠ operands others ++ found :: rest := by
  intro same
  have member : found ∈ operands numbers := by simp [same]
  obtain ⟨number, _, rfl⟩ := List.mem_map.mp member
  exact other number rfl

/-- What primitives are to make of integers is arithmetic, for the primitives that it is defined
for.
-/
theorem Computes.arithmetic {primitive : Primitive} {numbers : List Integer} {total : Int}
    (defined : primitive.unbounded? (values numbers) = some total)
    {outcome : Except EvalError Value} (computes : primitive.Computes (operands numbers) outcome)
    : primitive.Arithmetic numbers total outcome := by
  generalize same : operands numbers = args at computes
  cases computes with
  | @exact _ others result computed fit =>
      obtain rfl := operands_inj same
      refine ⟨fun _ => ⟨result, ?_, rfl⟩, fun ⟨number, among, outside⟩ => ?_⟩
      · exact Option.some.inj (computed.symm.trans defined)
      · exact absurd (fit number among) outside
  | @overflow _ others number among outside =>
      obtain rfl := operands_inj same
      exact ⟨fun fit => absurd (fit number among) outside, fun _ => rfl⟩
  | less left right => simp [unbounded?] at defined
  | equal left right => simp [unbounded?] at defined
  | notAnInteger others wants other rest => exact absurd same (operands_ne_first other rest)

/-- Arithmetic is defined for the operand counts that are accepted only. -/
theorem admits_of_unbounded? {primitive : Primitive} {numbers : List Integer} {total : Int}
    (defined : primitive.unbounded? (values numbers) = some total)
    : primitive.arity.Admits (operands numbers).length := by
  cases primitive with
  | add | mul => exact Nat.zero_le _
  | equal | less => cases defined
  | sub =>
      match numbers with
      | [] => cases defined
      | [_] | [_, _] => simp [operands, arity, Arity.Admits]
      | _ :: _ :: _ :: _ => cases defined

end Primitive

namespace Eval

/-- A primitive called with an accepted operand count finishes with what it is to compute. -/
theorem on_callPrimitive_of_admits {primitive : Primitive} {args : List Value}
    (admitted : primitive.arity.Admits args.length) (machine : Machine)
    : ∃ outcome after,
        (callPrimitive primitive args).on machine = .ok (outcome, after)
        ∧ primitive.Computes args outcome := by
  obtain ⟨outcome, computed, computes⟩ := Primitive.exists_compute? admitted
  simp only [callPrimitive, on_bind, on_checkArity_of_admits admitted, on_emit, computed,
    on_ofOutcome]
  exact ⟨outcome, _, rfl, computes⟩

/-- Every call of a primitive finishes, with a complaint if the operand count is not accepted. -/
theorem exists_on_callPrimitive (primitive : Primitive) (args : List Value) (machine : Machine)
    : ∃ outcome after, (callPrimitive primitive args).on machine = .ok (outcome, after) := by
  by_cases admitted : primitive.arity.Admits args.length
  · obtain ⟨outcome, after, finished, _⟩ := on_callPrimitive_of_admits admitted machine
    exact ⟨outcome, after, finished⟩
  · rw [callPrimitive, on_bind, on_checkArity_of_not_admits admitted]
    exact ⟨_, machine, rfl⟩

-----------------------------------------------------------------------------------------
-- All programs
-----------------------------------------------------------------------------------------

/-- No evaluation breaks a promise between parts of the evaluator, of whatever expression in
whatever frame of whatever store, and neither does a call of a value with whatever operands or a
text that is run. Primitives finish on all operands. Arithmetic is exact where everything on the
way to its result fits, and an overflow where something does not.
-/
theorem never_breaches (depth : Nat) (machine : Machine)
    : (∀ what expr env, (evaluate depth expr env).on machine ≠ .error (.breach what))
      ∧ (∀ what callee args,
          (apply (evaluate depth) callee args).on machine ≠ .error (.breach what))
      ∧ (∀ what text env,
          (Session.runText depth text env).run machine ≠ .error (.breach what))
      ∧ (∀ primitive args,
          ∃ outcome after, (callPrimitive primitive args).on machine = .ok (outcome, after))
      ∧ ∀ primitive numbers total,
          Primitive.unbounded? primitive (Primitive.values numbers) = some total
          → ∃ outcome after,
              (callPrimitive primitive (Primitive.operands numbers)).on machine
                = .ok (outcome, after)
              ∧ primitive.Arithmetic numbers total outcome := by
  have obeys : Invariant.nothing.ObeysEvaluator (evaluate depth) :=
    Invariant.obeys_evaluate .nothing depth
  refine ⟨fun what expr env => ?_, fun what callee args => ?_, fun what text env => ?_,
    fun primitive args => exists_on_callPrimitive primitive args machine,
    fun primitive numbers total defined => ?_⟩
  · have evaluates
        : Invariant.nothing.Obeys machine.store Invariant.nothing.Values
            (evaluate depth expr env) :=
      obeys trivial trivial
    exact (evaluates machine trivial trivial).not_breach what
  · have calls
        : Invariant.nothing.Obeys machine.store Invariant.nothing.Values
            (apply (evaluate depth) callee args) :=
      Invariant.obeys_apply obeys (fun _ _ => trivial) fun _ _ _ _ => trivial
    exact (calls machine trivial trivial).not_breach what
  · have runs
        : Invariant.nothing.FormsEnd machine.store ((Session.runText depth text env).run machine) :=
      Invariant.formsEnd_runText trivial trivial fun _ _ _ _ => trivial
    exact runs.not_breach what
  · obtain ⟨outcome, after, finished, computes⟩ :=
      on_callPrimitive_of_admits (Primitive.admits_of_unbounded? defined) machine
    exact ⟨outcome, after, finished, computes.arithmetic defined⟩

/-- The lowest integer has no negation in the range, and to ask for it is an overflow. -/
theorem lowest_negation_overflows
    : Primitive.unbounded? .sub [-integerBound] = some integerBound
      ∧ ∃ after,
          (callPrimitive .sub [.integer ⟨-integerBound, by decide, by decide⟩]).on ⟨∅, #[]⟩
          = .ok (.error (.overflow .sub), after) := by
  refine ⟨rfl, ?_⟩
  obtain ⟨_, _, _, _, calls⟩ := never_breaches 0 ⟨∅, #[]⟩
  obtain ⟨outcome, after, finished, arithmetic⟩ :=
    calls .sub [⟨-integerBound, by decide, by decide⟩] integerBound rfl
  obtain rfl := arithmetic.overflow ⟨integerBound, List.mem_singleton.mpr rfl, by decide⟩
  exact ⟨after, finished⟩

end Eval

end MiniLisp

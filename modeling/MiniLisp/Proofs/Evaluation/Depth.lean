import MiniLisp.Eval.Basic
import MiniLisp.Machine.Lemmas

/-! More depth changes nothing about an evaluation that finishes.
The rules of evaluation are followed once, for any two ways to evaluate of which the second finishes
like the first wherever the first does.
-/

namespace MiniLisp

namespace Eval

variable {Result Next : Type}

/-- Where the first evaluation finishes, the second finishes in the same way. -/
def Within (first second : Eval Result) : Prop :=
  ∀ machine ended, first.on machine = .ok ended → second.on machine = .ok ended

theorem Within.refl (evaluation : Eval Result) : Within evaluation evaluation :=
  fun _ _ finished => finished

theorem within_abort (reason : Abort) (evaluation : Eval Result)
    : Within (abort reason) evaluation := by
  intro machine ended finished
  cases finished

theorem Within.bind {first second : Eval Result} {next next' : Result → Eval Next}
    (head : Within first second) (tail : ∀ result, Within (next result) (next' result))
    : Within (first >>= next) (second >>= next') := by
  intro machine ended finished
  rw [on_bind] at finished ⊢
  cases done : first.on machine with
  | error reason =>
      rw [done] at finished
      cases finished
  | ok middle =>
      rw [head machine middle done]
      rw [done] at finished
      obtain ⟨error | result, middle⟩ := middle
      · exact finished
      · exact tail result middle ended finished

theorem Within.noteReturn {first second : Eval Value} (within : Within first second)
    : Within (noteReturn first) (noteReturn second) := by
  intro machine ended finished
  rw [on_noteReturn] at finished ⊢
  cases done : first.on machine with
  | error reason =>
      rw [done] at finished
      cases finished
  | ok middle =>
      rw [within machine middle done]
      rw [done] at finished
      exact finished

-----------------------------------------------------------------------------------------
-- The rules of evaluation
-----------------------------------------------------------------------------------------

section Rules

variable {evaluate evaluate' : Evaluator}
  (inside : ∀ expr env, Within (evaluate expr env) (evaluate' expr env))

include inside

theorem within_each (env : FrameId) (exprs : List Expr)
    : Within (each evaluate env exprs) (each evaluate' env exprs) := by
  induction exprs with
  | nil => exact .refl _
  | cons expr rest ih => exact (inside expr env).bind fun _ => ih.bind fun _ => .refl _

theorem within_bindEach (env frame : FrameId) (bindings : List Expr)
    : Within (bindEach evaluate env frame bindings) (bindEach evaluate' env frame bindings) := by
  induction bindings using bindEach.induct with
  | case1 => exact .refl _
  | case2 name expr rest ih => exact (inside expr env).bind fun _ => (Within.refl _).bind fun _ => ih
  | case3 found rest noBinding =>
      rw [bindEach, bindEach]
      · exact .refl _
      · exact noBinding
      · exact noBinding

theorem within_apply (callee : Value) (args : List Value)
    : Within (apply evaluate callee args) (apply evaluate' callee args) := by
  cases callee with
  | closure closure =>
      exact (Within.refl _).bind fun _ => (Within.refl _).bind fun _ =>
        (Within.refl _).bind fun _ => (inside _ _).noteReturn
  | integer _ | bool _ | primitive _ | unspecified => exact .refl _

theorem within_evalIf (env : FrameId) (operands : List Expr)
    : Within (evalIf evaluate env operands) (evalIf evaluate' env operands) := by
  unfold evalIf
  split
  · refine (inside _ env).bind fun answer => ?_
    split
    · exact inside _ env
    · exact inside _ env
  · exact .refl _

theorem within_evalDefine (env : FrameId) (operands : List Expr)
    : Within (evalDefine evaluate env operands) (evalDefine evaluate' env operands) := by
  unfold evalDefine
  split
  · next target body =>
    have named : Within (definition evaluate target body env)
        (definition evaluate' target body env) := by
      unfold definition
      split
      · exact (inside body env).bind fun _ => .refl _
      · exact .refl _
      · exact .refl _
    exact named.bind fun _ => .refl _
  · exact .refl _

theorem within_evalLet (env : FrameId) (operands : List Expr)
    : Within (evalLet evaluate env operands) (evalLet evaluate' env operands) := by
  unfold evalLet
  split
  · exact (Within.refl _).bind fun frame =>
      (within_bindEach inside env frame _).bind fun _ => inside _ _
  · exact .refl _
  · exact .refl _

theorem within_evalForm (kind : SpecialForm) (operands : List Expr) (env : FrameId)
    : Within (evalForm evaluate kind operands env) (evalForm evaluate' kind operands env) := by
  refine (Within.refl _).bind fun _ => ?_
  cases kind with
  | conditional => exact within_evalIf inside env operands
  | definition => exact within_evalDefine inside env operands
  | lambda => exact .refl _
  | letIn => exact within_evalLet inside env operands

theorem within_step (expr : Expr) (env : FrameId)
    : Within (step evaluate expr env) (step evaluate' expr env) := by
  refine (Within.refl _).bind fun _ => ?_
  split
  · exact .refl _
  · exact .refl _
  · exact .refl _
  · split
    · exact within_evalForm inside _ _ env
    · refine (within_each inside env _).bind fun values => ?_
      split
      · exact within_apply inside _ _
      · exact .refl _

end Rules

/-- Evaluations that finish do so in the same way at every greater depth, by induction on the
depth.
-/
theorem within_evaluate {depth more : Nat} (le : depth ≤ more) (expr : Expr) (env : FrameId)
    : Within (evaluate depth expr env) (evaluate more expr env) := by
  induction depth generalizing more expr env with
  | zero => exact within_abort .tooDeep _
  | succ depth ih =>
      obtain ⟨more, rfl⟩ := Nat.exists_eq_add_of_le' (Nat.one_le_of_lt le)
      exact within_step (ih (Nat.le_of_succ_le_succ le)) expr env

end Eval

/-- A run that more depth changes nothing about ends in one way only, whatever depth it is given. -/
theorem ended_unique {Ended : Type} {run : Nat → Except Abort Ended} (depth depth' : Nat)
    {ended ended' : Ended} (finished : run depth = .ok ended) (finished' : run depth' = .ok ended')
    (deeper : ∀ {depth more ended}, depth ≤ more → run depth = .ok ended → run more = .ok ended)
    : ended = ended' := by
  have deep := deeper (Nat.le_max_left depth depth') finished
  have deep' := deeper (Nat.le_max_right depth depth') finished'
  exact Except.ok.inj (deep.symm.trans deep')

/-- A run of whose end something is known has ended. -/
theorem exists_of_map_eq_ok {Ended Known : Type} {run : Except Abort Ended} {look : Ended → Known}
    {known : Known} (seen : run.map look = .ok known)
    : ∃ ended, run = .ok ended ∧ look ended = known := by
  cases run with
  | error reason => cases seen
  | ok ended => exact ⟨ended, rfl, Except.ok.inj seen⟩

end MiniLisp

import Mathlib.Data.List.Forall2
import Mathlib.Order.Defs.Unbundled
import MiniLisp.Eval.Basic
import MiniLisp.Machine.Lemmas

/-! Two runs side by side: what it means that computations on two stores correspond.
A correspondence says which frames and closures of the two stores belong together. It grows as the
runs go on, and what belonged together once does so forever. The traces of the runs are left out of
account.
-/

namespace MiniLisp

/-- Values that agree, closures up to a relation of closures. -/
inductive Value.Alike (closures : Closure → Closure → Prop) : Value → Value → Prop
  | integer (value) : Alike closures (.integer value) (.integer value)
  | bool (value) : Alike closures (.bool value) (.bool value)
  | closure {left right} (together : closures left right)
    : Alike closures (.closure left) (.closure right)
  | primitive (given) : Alike closures (.primitive given) (.primitive given)
  | unspecified : Alike closures .unspecified .unspecified

/-- A value is like itself, if it is no closure or a closure that is related to itself. -/
theorem Value.alike_self {closures : Closure → Closure → Prop} {value : Value}
    (related : ∀ closure, value = .closure closure → closures closure closure)
    : Value.Alike closures value value := by
  cases value with
  | integer value => exact .integer value
  | bool value => exact .bool value
  | closure closure => exact .closure (related closure rfl)
  | primitive given => exact .primitive given
  | unspecified => exact .unspecified

/-- Errors of one kind about things that agree: names, operand counts and primitives are the same,
values are alike, closures and malformed operands are related.
-/
inductive EvalError.Alike (closures : Closure → Closure → Prop)
    (malformed : Malformed → Malformed → Prop)
    : EvalError → EvalError → Prop
  | undefinedName (name) : Alike closures malformed (.undefinedName name) (.undefinedName name)
  | arityMismatch (mismatch)
    : Alike closures malformed (.arityMismatch mismatch) (.arityMismatch mismatch)
  | closureArity {left right} (together : closures left right) (expected got)
    : Alike closures malformed (.arityMismatch ⟨left.text, expected, got⟩)
        (.arityMismatch ⟨right.text, expected, got⟩)
  | notAProcedure {left right} (together : Value.Alike closures left right)
    : Alike closures malformed (.notAProcedure left) (.notAProcedure right)
  | emptyForm : Alike closures malformed (.emptyForm (.list [])) (.emptyForm (.list []))
  | malformed {left right} (together : malformed left right)
    : Alike closures malformed (.malformed left) (.malformed right)
  | notAnInteger {left right} (together : Value.Alike closures left right)
    : Alike closures malformed (.notAnInteger left) (.notAnInteger right)
  | overflow (primitive) : Alike closures malformed (.overflow primitive) (.overflow primitive)

section Weakening

variable {closures weaker : Closure → Closure → Prop}
  {malformed milder : Malformed → Malformed → Prop}

theorem Value.Alike.imp (weaken : ∀ left right, closures left right → weaker left right)
    {value value' : Value} (alike : Value.Alike closures value value')
    : Value.Alike weaker value value' := by
  cases alike with
  | integer value => exact .integer value
  | bool value => exact .bool value
  | closure together => exact .closure (weaken _ _ together)
  | primitive given => exact .primitive given
  | unspecified => exact .unspecified

theorem EvalError.Alike.imp (weaken : ∀ left right, closures left right → weaker left right)
    (soften : ∀ left right, malformed left right → milder left right) {error error' : EvalError}
    (alike : EvalError.Alike closures malformed error error')
    : EvalError.Alike weaker milder error error' := by
  cases alike with
  | undefinedName name => exact .undefinedName name
  | arityMismatch mismatch => exact .arityMismatch mismatch
  | closureArity together expected got => exact .closureArity (weaken _ _ together) expected got
  | notAProcedure together => exact .notAProcedure (together.imp weaken)
  | emptyForm => exact .emptyForm
  | malformed together => exact .malformed (soften _ _ together)
  | notAnInteger together => exact .notAnInteger (together.imp weaken)
  | overflow primitive => exact .overflow primitive

end Weakening

/-- A way in which two runs may correspond.
A world records what belongs together so far. A mode is a kind of scope: it says how names and code
of the first run turn into those of the second where they are looked up and evaluated. Either run
may be allowed to be given up before the other.
-/
structure Correspondence where
  World : Type
  Extends : World → World → Prop
  Mode : Type
  frames : World → Mode → FrameId → FrameId → Prop
  closures : World → Closure → Closure → Prop
  stores : World → Store → Store → Prop
  names : Mode → String → String → Prop
  code : Mode → Expr → Expr → Prop
  procedures : Mode → List String → Expr → List String → Expr → Prop
  malformed : Malformed → Malformed → Prop
  firstMayStop : Prop
  secondMayStop : Prop

/-- How two computations end together: both finish with results that go together, or neither does,
apart from a run that is allowed to be given up.
-/
inductive EndTogether {Left Right : Type} (first second : Prop) (post : Left → Right → Prop)
    : Except Abort Left → Except Abort Right → Prop
  | finished {left right} (together : post left right)
    : EndTogether first second post (.ok left) (.ok right)
  | stopped (reason other) : EndTogether first second post (.error reason) (.error other)
  | firstStopped (allowed : first) (reason right)
    : EndTogether first second post (.error reason) right
  | secondStopped (allowed : second) (left reason)
    : EndTogether first second post left (.error reason)

section Ends

variable {Left Right Left' Right' : Type} {first second : Prop} {post : Left → Right → Prop}
  {post' : Left' → Right' → Prop}

/-- Runs that end together go on together. -/
theorem EndTogether.bind {run : Except Abort Left} {other : Except Abort Right}
    {next : Left → Except Abort Left'} {next' : Right → Except Abort Right'}
    (ends : EndTogether first second post run other)
    (rest
      : ∀ left right,
          post left right → EndTogether first second post' (next left) (next' right))
    : EndTogether first second post' (run.bind next) (other.bind next') := by
  cases ends with
  | finished together => exact rest _ _ together
  | stopped reason other => exact .stopped reason other
  | firstStopped allowed reason => exact .firstStopped allowed reason _
  | secondStopped allowed _ reason => exact .secondStopped allowed _ reason

theorem EndTogether.imp {weaker : Left → Right → Prop} {run : Except Abort Left}
    {other : Except Abort Right} (ends : EndTogether first second post run other)
    (weaken : ∀ left right, post left right → weaker left right)
    : EndTogether first second weaker run other := by
  cases ends with
  | finished together => exact .finished (weaken _ _ together)
  | stopped reason other => exact .stopped reason other
  | firstStopped allowed reason => exact .firstStopped allowed reason _
  | secondStopped allowed _ reason => exact .secondStopped allowed _ reason

/-- Where the first run has finished, so has the second, unless it was given up. -/
theorem EndTogether.exists_right (stays : ¬ second) {left : Left} {other : Except Abort Right}
    (ends : EndTogether first second post (.ok left) other)
    : ∃ right, other = .ok right ∧ post left right := by
  cases ends with
  | finished together => exact ⟨_, rfl, together⟩
  | secondStopped allowed => exact absurd allowed stays

/-- Where the second run has finished, so has the first, unless it was given up. -/
theorem EndTogether.exists_left (stays : ¬ first) {run : Except Abort Left} {right : Right}
    (ends : EndTogether first second post run (.ok right))
    : ∃ left, run = .ok left ∧ post left right := by
  cases ends with
  | finished together => exact ⟨_, rfl, together⟩
  | firstStopped allowed => exact absurd allowed stays

end Ends

/-- Goes on with a result, and not with an error. -/
def Eval.continueWith {Result Next : Type} (next : Result → Eval Next)
    : Except EvalError Result × Machine → Except Abort (Except EvalError Next × Machine)
  | (.ok result, machine) => (next result).on machine
  | (.error error, machine) => .ok (.error error, machine)

theorem Eval.on_bind_eq {Result Next : Type} (first : Eval Result) (next : Result → Eval Next)
    (machine : Machine)
    : (first >>= next).on machine = (first.on machine).bind (continueWith next) := by
  rw [on_bind]
  rcases first.on machine with _ | ⟨_ | _, _⟩ <;> rfl

/-- Ends the trace with an outcome that is noted down. -/
def Eval.noted (ended : Except EvalError Value × Machine)
    : Except Abort (Except EvalError Value × Machine) :=
  .ok (ended.1, { ended.2 with trace := ended.2.trace.push (.closureReturned ended.1) })

theorem Eval.on_noteReturn_eq (evaluation : Eval Value) (machine : Machine)
    : (noteReturn evaluation).on machine = (evaluation.on machine).bind noted := by
  rw [on_noteReturn]
  rcases evaluation.on machine with _ | ⟨_, _⟩ <;> rfl

namespace Correspondence

variable {c : Correspondence} {Left Right Left' Right' : Type}

/-- Values that belong together: closures that do, and otherwise equal ones. -/
abbrev Values (c : Correspondence) (w : c.World) : Value → Value → Prop :=
  Value.Alike (c.closures w)

/-- Errors that belong together: of one kind, and about things that belong together. -/
abbrev Errors (c : Correspondence) (w : c.World) : EvalError → EvalError → Prop :=
  EvalError.Alike (c.closures w) c.malformed

/-- Outcomes that belong together: results that do, or errors that do. -/
inductive Outcomes (c : Correspondence) (w : c.World) (results : Left → Right → Prop)
    : Except EvalError Left → Except EvalError Right → Prop
  | ok {left right} (together : results left right) : Outcomes c w results (.ok left) (.ok right)
  | error {left right} (together : c.Errors w left right)
    : Outcomes c w results (.error left) (.error right)

theorem Outcomes.imp {w : c.World} {results weaker : Left → Right → Prop}
    {outcome : Except EvalError Left} {outcome' : Except EvalError Right}
    (together : c.Outcomes w results outcome outcome')
    (weaken : ∀ left right, results left right → weaker left right)
    : c.Outcomes w weaker outcome outcome' := by
  cases together with
  | ok together => exact .ok (weaken _ _ together)
  | error together => exact .error together

/-- Wherever the stores correspond, the two evaluations end together, with outcomes and stores that
correspond in a world that extends a base. What the runs have done since the base may be revised on
the way.
-/
def RelatedSince (c : Correspondence) (base w : c.World)
    (results : c.World → Left → Right → Prop) (first : Eval Left) (second : Eval Right)
    : Prop :=
  ∀ machine other,
    c.stores w machine.store other.store
    → EndTogether c.firstMayStop c.secondMayStop
        (fun left right =>
          ∃ w',
            c.Extends base w'
            ∧ c.stores w' left.2.store right.2.store
            ∧ c.Outcomes w' (results w') left.1 right.1)
        (first.on machine) (second.on other)

/-- Wherever the stores correspond, the two evaluations end together, with outcomes and stores that
correspond in a world that extends the one before.
-/
def Related (c : Correspondence) (w : c.World) (results : c.World → Left → Right → Prop)
    (first : Eval Left) (second : Eval Right)
    : Prop :=
  c.RelatedSince w w results first second

/-- Two ways to evaluate that agree on corresponding expressions in corresponding frames. -/
def RelatedEvaluators (c : Correspondence) (first second : Evaluator) : Prop :=
  ∀ w mode env env' expr expr',
    c.frames w mode env env'
    → c.code mode expr expr'
    → c.Related w c.Values (first expr env) (second expr' env')

-----------------------------------------------------------------------------------------
-- The ways to build an evaluation
-----------------------------------------------------------------------------------------

section Building

variable {w : c.World} {results : c.World → Left → Right → Prop}
  {results' : c.World → Left' → Right' → Prop} {first : Eval Left} {second : Eval Right}

theorem related_of_outcomes [IsPreorder c.World c.Extends] {left : Except EvalError Left}
    {right : Except EvalError Right} (together : c.Outcomes w (results w) left right)
    : c.Related w results (Eval.ofOutcome left) (Eval.ofOutcome right) :=
  fun _ _ stores => .finished ⟨w, refl_of c.Extends w, stores, together⟩

theorem related_pure [IsPreorder c.World c.Extends] {left : Left} {right : Right}
    (together : results w left right)
    : c.Related w results (pure left) (pure right) :=
  related_of_outcomes (.ok together)

theorem related_throw [IsPreorder c.World c.Extends] {left right : EvalError}
    (together : c.Errors w left right)
    : c.Related w results (throw left) (throw right) :=
  related_of_outcomes (.error together)

theorem related_abort (reason other : Abort)
    : c.Related w results (Eval.abort reason) (Eval.abort other) :=
  fun _ _ _ => .stopped reason other

/-- A change of both stores that keeps them in correspondence. -/
theorem related_changeStore {change : Store → Left × Store} {change' : Store → Right × Store}
    (kept
      : ∀ store other,
          c.stores w store other
          → ∃ w',
              c.Extends w w'
              ∧ c.stores w' (change store).2 (change' other).2
              ∧ results w' (change store).1 (change' other).1)
    : c.Related w results (Eval.changeStore change) (Eval.changeStore change') := by
  intro machine other stores
  obtain ⟨w', grows, after, together⟩ := kept machine.store other.store stores
  exact .finished ⟨w', grows, after, .ok together⟩

/-- What corresponds in a world does so since any base that the world extends; and it has led to a
world that extends this one, unless it has failed.
-/
theorem Related.since [IsPreorder c.World c.Extends] {base : c.World}
    (related : c.Related w results first second) (grows : c.Extends base w)
    : c.RelatedSince base w (fun w' left right => c.Extends w w' ∧ results w' left right) first
        second := by
  intro machine other stores
  refine (related machine other stores).imp fun _ _ together => ?_
  obtain ⟨w', grows', after, outcomes⟩ := together
  exact ⟨w', trans_of c.Extends grows grows', after, outcomes.imp fun _ _ => .intro grows'⟩

theorem RelatedSince.imp {base : c.World} {weaker : c.World → Left → Right → Prop}
    (related : c.RelatedSince base w results first second)
    (weaken : ∀ w' left right, results w' left right → weaker w' left right)
    : c.RelatedSince base w weaker first second := by
  intro machine other stores
  refine (related machine other stores).imp fun _ _ together => ?_
  obtain ⟨w', grows, after, outcomes⟩ := together
  exact ⟨w', grows, after, outcomes.imp (weaken w')⟩

/-- Sequences correspond if their parts do, the second ones in any world that the first may lead
to.
-/
theorem RelatedSince.bind {base : c.World} {next : Left → Eval Left'} {next' : Right → Eval Right'}
    (head : c.RelatedSince base w results first second)
    (tail
      : ∀ w' left right,
          c.Extends base w'
          → results w' left right
          → c.RelatedSince base w' results' (next left) (next' right))
    : c.RelatedSince base w results' (first >>= next) (second >>= next') := by
  intro machine other stores
  rw [Eval.on_bind_eq, Eval.on_bind_eq]
  refine (head machine other stores).bind fun left right together => ?_
  obtain ⟨outcome, middle⟩ := left
  obtain ⟨outcome', middle'⟩ := right
  obtain ⟨w', grows, after, outcomes⟩ := together
  cases outcomes with
  | ok together =>
      -- The rest starts where the first part ends, in the world that this has led to.
      exact tail w' _ _ grows together middle middle' after
  | error together => exact .finished ⟨w', grows, after, .error together⟩

theorem Related.bind [IsPreorder c.World c.Extends] {next : Left → Eval Left'}
    {next' : Right → Eval Right'} (head : c.Related w results first second)
    (tail
      : ∀ w' left right,
          c.Extends w w'
          → results w' left right
          → c.Related w' results' (next left) (next' right))
    : c.Related w results' (first >>= next) (second >>= next') :=
  RelatedSince.bind head fun w' left right grows together =>
    ((tail w' left right grows together).since grows).imp fun _ _ _ => And.right

end Building

-----------------------------------------------------------------------------------------
-- What one run does by itself
-----------------------------------------------------------------------------------------

section Alone

variable {base w : c.World} {results : c.World → Left → Right → Prop} {first : Eval Left}
  {second : Eval Right}

theorem RelatedSince.emitFirst (related : c.RelatedSince base w results first second)
    (event : Event)
    : c.RelatedSince base w results (Eval.emit event >>= fun _ => first) second := by
  intro machine other stores
  rw [Eval.on_bind, Eval.on_emit]
  exact related _ other stores

theorem RelatedSince.emitSecond (related : c.RelatedSince base w results first second)
    (event : Event)
    : c.RelatedSince base w results first (Eval.emit event >>= fun _ => second) := by
  intro machine other stores
  rw [Eval.on_bind, Eval.on_emit]
  exact related machine _ stores

theorem RelatedSince.emitBoth (related : c.RelatedSince base w results first second)
    (event other : Event)
    : c.RelatedSince base w results (Eval.emit event >>= fun _ => first)
        (Eval.emit other >>= fun _ => second) :=
  (related.emitFirst event).emitSecond other

theorem RelatedSince.noteBoth {results : c.World → Value → Value → Prop}
    {first second : Eval Value} (related : c.RelatedSince base w results first second)
    : c.RelatedSince base w results (Eval.noteReturn first) (Eval.noteReturn second) := by
  intro machine other stores
  rw [Eval.on_noteReturn_eq, Eval.on_noteReturn_eq]
  exact (related machine other stores).bind fun _ _ together => .finished together

/-- Only the second run notes down a return. -/
theorem RelatedSince.noteSecond {results : c.World → Left → Value → Prop} {second : Eval Value}
    (related : c.RelatedSince base w results first second)
    : c.RelatedSince base w results first (Eval.noteReturn second) := by
  intro machine other stores
  rw [Eval.on_noteReturn_eq]
  have ends := related machine other stores
  generalize first.on machine = ended at ends ⊢
  generalize second.on other = ended' at ends ⊢
  cases ends with
  | finished together => exact .finished together
  | stopped reason other => exact .stopped reason other
  | firstStopped allowed reason => exact .firstStopped allowed reason _
  | secondStopped allowed _ reason => exact .secondStopped allowed _ reason

/-- Only the second run makes something of its result. -/
theorem RelatedSince.mapSecond (related : c.RelatedSince base w results first second)
    {made : c.World → Left → Right' → Prop} {make : Right → Right'}
    (holds
      : ∀ w' left right,
          c.Extends base w' → results w' left right → made w' left (make right))
    : c.RelatedSince base w made first (second >>= fun right => pure (make right)) := by
  intro machine other stores
  rw [Eval.on_bind_eq]
  have ends := related machine other stores
  generalize first.on machine = ended at ends ⊢
  generalize second.on other = ended' at ends ⊢
  cases ends with
  | @finished left right together =>
      obtain ⟨outcome, after⟩ := left
      obtain ⟨outcome', after'⟩ := right
      obtain ⟨w', grows, after, outcomes⟩ := together
      cases outcomes with
      | ok together => exact .finished ⟨w', grows, after, .ok (holds w' _ _ grows together)⟩
      | error together => exact .finished ⟨w', grows, after, .error together⟩
  | stopped reason other => exact .stopped reason other
  | firstStopped allowed reason => exact .firstStopped allowed reason _
  | secondStopped allowed _ reason => exact .secondStopped allowed _ reason

/-- The first run does a part by itself, and corresponds in whatever world that leads to. -/
theorem RelatedSince.firstAlone {part : Eval Left'} {next : Left' → Eval Left}
    (alone
      : ∀ machine other : Machine,
          c.stores w machine.store other.store
          → ∃ result after w',
              part.on machine = .ok (.ok result, after)
              ∧ c.stores w' after.store other.store
              ∧ c.RelatedSince base w' results (next result) second)
    : c.RelatedSince base w results (part >>= next) second := by
  intro machine other stores
  obtain ⟨result, after, w', finished, stores', rest⟩ := alone machine other stores
  rw [Eval.on_bind, finished]
  exact rest after other stores'

/-- The second run does a part by itself, and corresponds in whatever world that leads to. -/
theorem RelatedSince.secondAlone {part : Eval Right'}
    {next : Right' → Eval Right}
    (alone
      : ∀ machine other : Machine,
          c.stores w machine.store other.store
          → ∃ result after w',
              part.on other = .ok (.ok result, after)
              ∧ c.stores w' machine.store after.store
              ∧ c.RelatedSince base w' results first (next result))
    : c.RelatedSince base w results first (part >>= next) := by
  intro machine other stores
  obtain ⟨result, after, w', finished, stores', rest⟩ := alone machine other stores
  rw [Eval.on_bind, finished]
  exact rest machine after stores'

end Alone

end Correspondence

end MiniLisp

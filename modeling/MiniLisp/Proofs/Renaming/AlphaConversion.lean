import MiniLisp.Proofs.Renaming.Shapes
import MiniLisp.Proofs.Renaming.Sides
import MiniLisp.Proofs.Simulation.Session

/-! Scoping is lexical: a bound name can be changed without anyone noticing.
The runs of a program and of the same program with one bound name renamed go in step.
-/

namespace MiniLisp

open MiniLisp.Expr

/-- Closures that take equally many operands. -/
def Closure.SameCount (left right : Closure) : Prop :=
  left.parameters.length = right.parameters.length

/-- How two finished programs agree: form by form in the kinds of their outcomes, and in what is not
a matter of bound names; and in the global names.
-/
structure Session.Agree (outcomes outcomes' : List Outcome) (store store' : Store) : Prop where
  outcomes : List.Forall₂ (Outcome.Alike Closure.SameCount Malformed.SameKind) outcomes outcomes'
  globals
    : ∀ name,
        (store.local? (Store.addGlobal ∅).1 name).isSome
        = (store'.local? (Store.addGlobal ∅).1 name).isSome

namespace Renaming

/-- The correspondence of a run with that of the program with a bound name renamed. -/
def simulation (old new : String) : Simulation where
  World := List (Place Side)
  Extends := Settling
  Mode := Side
  frames places side env env' := env = env' ∧ places[env]? = some (.settled side)
  closures := Closures old new
  stores := Stores old new
  names := Named old new
  code := Code old new
  procedures := Procedures old new
  fillings := Fillings old new
  malformed := Malformed.SameKind
  firstMayStop := False
  secondMayStop := False
  preorder := inferInstance
  frames_mono grows frames := ⟨frames.1, grows.settled frames.2⟩
  closures_mono grows := Closures.mono grows
  fillings_mono grows := Fillings.mono grows
  same := by
    intro places store store' left right other other' stores first second
    rw [first.id, second.id]
  code_of_closures := by
    intro places left right together
    obtain ⟨side, found, procedures⟩ := together.code
    exact ⟨side, ⟨together.env, found⟩, procedures⟩
  procedures_length := by
    intro side parameters body parameters' body' procedures
    obtain ⟨inner, _, rfl, _⟩ := procedures
    rw [List.length_map]
  lookup := by
    intro places side store store' env _ name name' stores frames named
    obtain ⟨rfl, found⟩ := frames
    exact stores.lookup found named
  bind := by
    intro places side store store' env _ name name' value value' stores frames named together
    obtain ⟨rfl, found⟩ := frames
    exact stores.bind found named together
  make := by
    intro places side store store' env _ parameters body parameters' body' stores frames procedures
    obtain ⟨rfl, found⟩ := frames
    exact ⟨places, refl_of Settling places, stores.makeClosure, stores.closures, rfl, side, found,
      procedures⟩
  spawn := by
    intro places side store store' env _ parameters body parameters' body' stores frames procedures
    obtain ⟨rfl, found⟩ := frames
    obtain ⟨made, after, fillings⟩ := stores.spawnFor found procedures
    exact ⟨_, settling_append places made, after, fillings⟩
  fill stores fillings together := stores.fill fillings together
  filled := by
    intro places body body' frame frame' fillings
    obtain ⟨same, _, place, side, found, filled, _, code⟩ := fillings
    cases filled with
    | settled side => exact ⟨side, ⟨same, found⟩, code⟩
    | entering awaited => cases awaited

variable {old new : String}

-----------------------------------------------------------------------------------------
-- Code around the renamed form and in it
-----------------------------------------------------------------------------------------

theorem code_same {expr : Expr} (avoids : Avoids new expr) : Code old new .outside expr expr :=
  ⟨.inl (mapNames_id expr).symm, avoids⟩

theorem code_around {expr expr' : Expr} (inside : RenamedForm old new expr expr')
    (avoids : Avoids new expr)
    : Code old new .outside expr expr' :=
  ⟨.inr ⟨rfl, inside⟩, avoids⟩

theorem code_each_same {exprs : List Expr} (avoid : ∀ expr ∈ exprs, Avoids new expr)
    : List.Forall₂ (Code old new .outside) exprs exprs :=
  List.forall₂_same.mpr fun expr member => code_same (avoid expr member)

/-- Expressions of which one holds the renamed form. -/
theorem code_each_around {front back : List Expr} {expr expr' : Expr}
    (inside : RenamedForm old new expr expr')
    (avoid : ∀ part ∈ front ++ expr :: back, Avoids new part)
    : List.Forall₂ (Code old new .outside) (front ++ expr :: back) (front ++ expr' :: back) := by
  rw [List.forall_mem_append, List.forall_mem_cons] at avoid
  obtain ⟨before, here, behind⟩ := avoid
  exact List.rel_append (code_each_same before)
    (.cons (code_around inside here) (code_each_same behind))

/-- Procedures made outside whose bodies correspond outside. -/
theorem procedures_outside {parameters : List String} (absent : new ∉ parameters)
    {body body' : Expr} (code : Code old new .outside body body')
    : Procedures old new .outside parameters body parameters body' :=
  ⟨.outside, .same .outside parameters, (List.map_id parameters).symm, code, absent⟩

/-- The procedure of the renamed form: its body is evaluated inside. -/
theorem procedures_renamed {parameters : List String} (bound : old ∈ parameters)
    (absent : new ∉ parameters) {body : Expr} (avoids : Avoids new body)
    : Procedures old new .outside parameters body (parameters.map (replaceName old new))
        (mapNames (replaceName old new) body) :=
  ⟨.inside, .into bound, rfl, ⟨.inl rfl, avoids⟩, absent⟩

/-- A `let` with the renamed form in the expression of one of its bindings, well formed or not
behind that binding.
-/
theorem congruent_binding (front : List (String × Expr)) (name : String) {expr expr' : Expr}
    (inside : RenamedForm old new expr expr') (rest : List Expr) (body : Expr)
    (avoids : Avoids new (form .letIn [.list (bindings (front ++ [(name, expr)]) ++ rest), body]))
    : (simulation old new).Congruent .outside
        (form .letIn [.list (bindings (front ++ [(name, expr)]) ++ rest), body])
        (form .letIn [.list (bindings (front ++ [(name, expr')]) ++ rest), body]) := by
  have values (bounds : List (String × Expr))
      (avoid : ∀ bound ∈ front ++ (name, expr) :: bounds, Avoids new bound.2)
      : List.Forall₂ (Code old new .outside) ((front ++ (name, expr) :: bounds).map (·.2))
          ((front ++ (name, expr') :: bounds).map (·.2)) := by
    have avoid := List.forall_mem_map.mpr avoid
    rw [List.map_append, List.map_cons] at avoid
    rw [List.map_append, List.map_append, List.map_cons, List.map_cons]
    exact code_each_around inside avoid
  have whole (expr : Expr) (bounds : List (String × Expr)) (rest : List Expr)
      : bindings (front ++ [(name, expr)]) ++ (bounds.map binding ++ rest)
        = bindings (front ++ (name, expr) :: bounds) ++ rest := by
    simp [bindings]
  obtain ⟨_, operands⟩ := avoids_form_iff.mp avoids
  have items := avoids_list_iff.mp (operands _ List.mem_cons_self)
  have procedures (bounds : List (String × Expr))
      (absent : new ∉ (front ++ (name, expr) :: bounds).map (·.1))
      : Procedures old new .outside ((front ++ (name, expr) :: bounds).map (·.1)) body
          ((front ++ (name, expr') :: bounds).map (·.1)) body := by
    have names : (front ++ (name, expr') :: bounds).map (·.1)
        = (front ++ (name, expr) :: bounds).map (·.1) := by simp
    rw [names]
    exact procedures_outside absent
      (code_same (operands body (List.mem_cons_of_mem _ List.mem_cons_self)))
  rcases image_or_first binding rest with ⟨bounds, rfl⟩ | ⟨bounds, found, more, rfl, noBinding⟩
  · rw [← List.append_nil (bounds.map binding), whole, List.append_nil] at items ⊢
    rw [whole, List.append_nil]
    obtain ⟨absent, avoid⟩ := forall_mem_bindings_iff.mp items
    exact .letIn (values bounds avoid) (procedures bounds absent)
  · rw [whole] at items ⊢
    rw [whole]
    obtain ⟨absent, avoid⟩ := forall_mem_bindings_iff.mp (List.forall_mem_append.mp items).1
    exact .letBinding (values bounds avoid) (procedures bounds absent) noBinding noBinding
      (.binding _ _)

variable (plain : SpecialForm.ofKeyword? old = none) (plain' : SpecialForm.ofKeyword? new = none)

include plain plain'

/-- On either side, code corresponds by what becomes of the names there. -/
theorem renames (side : Side)
    : (simulation old new).Renames side (side.rename old new) new where
  keywords := by
    cases side with
    | outside => exact fun _ => rfl
    | inside => exact keepsKeywords_replaceName plain plain'
  names differs := named_of_ne differs side
  code avoids := ⟨.inl rfl, avoids⟩
  procedures absent avoids := ⟨side, .same side _, rfl, ⟨.inl rfl, avoids⟩, absent⟩
  malformed same := same

/-- Code that corresponds has one shape, by cases on the place of the renamed form in it. -/
theorem congruent {side : Side} {expr expr' : Expr} (code : Code old new side expr expr')
    : (simulation old new).Congruent side expr expr' := by
  obtain ⟨rfl | ⟨rfl, renamed⟩, avoids⟩ := code
  · exact (renames plain plain' side).congruent avoids
  · cases renamed with
    | @lambda parameters bound body =>
        obtain ⟨_, absent, body⟩ : _ ∧ new ∉ parameters ∧ Avoids new body := by simpa using avoids
        exact .lambda (procedures_renamed bound absent body)
    | @shorthand name parameters bound body =>
        obtain ⟨_, ⟨_, absent⟩, body⟩ : _ ∧ (_ ∧ new ∉ parameters) ∧ Avoids new body := by
          simpa using avoids
        exact .shorthand (.outside name) (procedures_renamed bound absent body)
    | @letIn bounds bound body =>
        obtain ⟨_, ⟨absent, values⟩, body⟩
          : _ ∧ (new ∉ bounds.map (·.1) ∧ ∀ bound ∈ bounds, Avoids new bound.2)
            ∧ Avoids new body := by simpa using avoids
        refine .letIn ?_ ?_
        · rw [List.map_map]
          exact code_each_same (List.forall_mem_map.mpr values)
        · have procedures := procedures_renamed bound absent body
          rw [List.map_map] at procedures ⊢
          exact procedures
    | @test test test' inside yes no =>
        obtain ⟨_, test, yes, no⟩ : _ ∧ Avoids new test ∧ Avoids new yes ∧ Avoids new no := by
          simpa using avoids
        exact .conditional (code_around inside test) (code_same yes) (code_same no)
    | @yes test yes yes' inside no =>
        obtain ⟨_, test, yes, no⟩ : _ ∧ Avoids new test ∧ Avoids new yes ∧ Avoids new no := by
          simpa using avoids
        exact .conditional (code_same test) (code_around inside yes) (code_same no)
    | @no test yes no no' inside =>
        obtain ⟨_, test, yes, no⟩ : _ ∧ Avoids new test ∧ Avoids new yes ∧ Avoids new no := by
          simpa using avoids
        exact .conditional (code_same test) (code_same yes) (code_around inside no)
    | @defined name body body' inside =>
        obtain ⟨_, _, body⟩ : _ ∧ _ ∧ Avoids new body := by simpa using avoids
        exact .define (.outside name) (code_around inside body)
    | @shorthandBody name parameters body body' inside =>
        obtain ⟨_, ⟨_, absent⟩, body⟩ : _ ∧ (_ ∧ new ∉ parameters) ∧ Avoids new body := by
          simpa using avoids
        exact .shorthand (.outside name) (procedures_outside absent (code_around inside body))
    | @lambdaBody parameters body body' inside =>
        obtain ⟨_, absent, body⟩ : _ ∧ new ∉ parameters ∧ Avoids new body := by simpa using avoids
        exact .lambda (procedures_outside absent (code_around inside body))
    | @letBody bounds body body' inside =>
        obtain ⟨_, ⟨absent, values⟩, body⟩
          : _ ∧ (new ∉ bounds.map (·.1) ∧ ∀ bound ∈ bounds, Avoids new bound.2)
            ∧ Avoids new body := by simpa using avoids
        exact .letIn (code_each_same (List.forall_mem_map.mpr values))
          (procedures_outside absent (code_around inside body))
    | binding front name inside rest body =>
        exact congruent_binding front name inside rest body avoids
    | callee inside operands =>
        obtain ⟨head, operands⟩ := List.forall_mem_cons.mp (avoids_list_iff.mp avoids)
        exact .application inside.ofHead?_eq_none.1 inside.ofHead?_eq_none.2
          (.cons (code_around inside head) (code_each_same operands))
    | operand applied front inside back =>
        obtain ⟨head, operands⟩ := List.forall_mem_cons.mp (avoids_list_iff.mp avoids)
        exact .application applied applied
          (.cons (code_same head) (code_each_around inside operands))

-----------------------------------------------------------------------------------------
-- Programs
-----------------------------------------------------------------------------------------

omit plain plain' in
/-- Fresh global frames correspond, and lie outside. -/
theorem stores_fresh
    : Stores old new [.settled .outside] (Store.addGlobal ∅).2 (Store.addGlobal ∅).2 where
  size := rfl
  size' := rfl
  closures := rfl
  outer _ := rfl
  around := by
    intro id place outer found further
    cases id with
    | zero => cases further
    | succ id => cases found
  locals := by
    intro id place name name' found named
    obtain ⟨rfl, rfl⟩ : id = 0 ∧ place = .settled .outside := by
      cases id with
      | zero => exact ⟨rfl, (Option.some.inj found).symm⟩
      | succ id => cases found
    cases named with
    | outside name => exact globals_together _ name
  outside := by
    intro id outer found further
    cases id with
    | zero => cases further
    | succ id => cases found
  inside := by
    intro id found
    cases id with
    | zero => cases found
    | succ id => cases found

omit plain plain' in
/-- Runs that correspond at their ends agree. -/
theorem agree_of_stores {places : List (Place Side)} {store store' : Store}
    (stores : Stores old new places store store') (grows : Settling [.settled .outside] places)
    {outcomes outcomes' : List Outcome}
    (results
      : List.Forall₂ (Outcome.Alike (Closures old new places) Malformed.SameKind) outcomes
          outcomes')
    : Session.Agree outcomes outcomes' store store' where
  outcomes := by
    refine results.imp fun _ _ => .imp fun left right together => ?_
    obtain ⟨side, _, procedures⟩ := together.code
    exact (simulation old new).procedures_length procedures
  globals name := (stores.locals (grows.settled rfl) (.outside name)).isSome_eq

end Renaming

open Session Renaming in
/-- Scoping is lexical. One form of a program is given a new name for a name that it binds, and the
new name stands nowhere in the program. Then the program finishes exactly if it did before, and
agrees with what it was form by form. The new name may even be that of a global.
-/
theorem Session.finishes_renamed {old new : String} (plain : SpecialForm.ofKeyword? old = none)
    (plain' : SpecialForm.ofKeyword? new = none) {front back : List Expr} {expr expr' : Expr}
    (renamed : RenamedForm old new expr expr')
    (avoid : ∀ form ∈ front ++ expr :: back, Avoids new form) (text text' : String)
    : (∀ outcomes store,
        Finishes text (front ++ expr :: back) outcomes store
        → ∃ outcomes' store',
            Finishes text' (front ++ expr' :: back) outcomes' store'
            ∧ Agree outcomes outcomes' store store')
      ∧ ∀ outcomes' store',
          Finishes text' (front ++ expr' :: back) outcomes' store'
          → ∃ outcomes store,
              Finishes text (front ++ expr :: back) outcomes store
              ∧ Agree outcomes outcomes' store store' := by
  have together (depth : Nat)
      : (simulation old new).RelatedEvaluators (evaluate depth) (evaluate depth) :=
    Simulation.relatedEvaluators_evaluate (fun _ _ _ => congruent plain plain') depth
  have frames : (simulation old new).frames [.settled .outside] Side.outside (Store.addGlobal ∅).1
      (Store.addGlobal ∅).1 := ⟨rfl, rfl⟩
  have code := code_each_around renamed avoid
  constructor
  · intro outcomes store finishes
    obtain ⟨places, outcomes', store', finishes', grows, after, results⟩ :=
      Simulation.finishes_of_first Side.outside frames stores_fresh code not_false
        (fun depth => ⟨depth, together depth⟩) finishes
    exact ⟨outcomes', store', finishes', agree_of_stores after grows results⟩
  · intro outcomes' store' finishes'
    obtain ⟨places, outcomes, store, finishes, grows, after, results⟩ :=
      Simulation.finishes_of_second Side.outside frames stores_fresh code not_false
        (fun depth => ⟨depth, together depth⟩) finishes'
    exact ⟨outcomes, store, finishes, agree_of_stores after grows results⟩

open Session in
/-- A parameter that a procedure inside the body uses gets another name: `(define (const n)
(lambda (m) n))` becomes `(define (const k) (lambda (m) k))`.
-/
theorem Session.finishes_renamed_captured
    : ∃ outcomes store outcomes' store',
        Finishes "" [form .definition
          [.list (.symbol "const" :: symbols ["n"]),
            form .lambda [.list (symbols ["m"]), .symbol "n"]]] outcomes store
        ∧ Finishes "" [form .definition
          [.list (.symbol "const" :: symbols ["k"]),
            form .lambda [.list (symbols ["m"]), .symbol "k"]]] outcomes' store'
        ∧ Agree outcomes outcomes' store store' := by
  have finishes : ∃ outcomes store, Finishes "" [form .definition
      [.list (.symbol "const" :: symbols ["n"]),
        form .lambda [.list (symbols ["m"]), .symbol "n"]]] outcomes store :=
    ⟨_, _, 1, _, rfl⟩
  obtain ⟨outcomes, store, finishes⟩ := finishes
  obtain ⟨outcomes', store', finishes', agree⟩ :=
    (@Session.finishes_renamed "n" "k" rfl rfl [] [] _ _
      (.shorthand "const" List.mem_cons_self (form .lambda [.list (symbols ["m"]), .symbol "n"]))
      (by simp [SpecialForm.keyword]) "" "").1 outcomes store finishes
  exact ⟨outcomes, store, outcomes', store', finishes, finishes', agree⟩

end MiniLisp

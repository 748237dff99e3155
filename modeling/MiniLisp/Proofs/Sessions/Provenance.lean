import MiniLisp.Proofs.Invariants.Moments
import MiniLisp.Proofs.Invariants.Texts
import MiniLisp.Proofs.Shell.PrintedForms
import MiniLisp.Shell.Respond

/-! Where code comes from: what a session holds, returns or complains about has been read in it.
So it can be printed and read back, as every part of what has been read can.
-/

namespace MiniLisp

namespace Expr

/-- The expression is a part of another: that itself, or a part of one of its items. -/
inductive Part (part : Expr) : Expr → Prop
  | self : Part part part
  | item {items item} (among : item ∈ items) (inside : Part part item) : Part part (.list items)

/-- The expression is a part of one of these. -/
def PartOf (forms : List Expr) (part : Expr) : Prop :=
  ∃ form ∈ forms, part.Part form

variable {forms : List Expr}

/-- Items of parts are parts, by induction on the part. -/
theorem Part.of_item {items : List Expr} {item whole : Expr} (part : (list items).Part whole)
    (among : item ∈ items)
    : item.Part whole := by
  induction part with
  | self => exact .item among .self
  | item member _ ih => exact .item member ih

theorem PartOf.of_item {items : List Expr} {item : Expr} (part : PartOf forms (.list items))
    (among : item ∈ items)
    : PartOf forms item := by
  obtain ⟨form, member, inside⟩ := part
  exact ⟨form, member, inside.of_item among⟩

theorem partOf_of_mem {form : Expr} (member : form ∈ forms) : PartOf forms form :=
  ⟨form, member, .self⟩

theorem PartOf.mono {more : List Expr} (subset : forms ⊆ more) {part : Expr}
    (inside : PartOf forms part)
    : PartOf more part := by
  obtain ⟨form, member, part⟩ := inside
  exact ⟨form, subset member, part⟩

/-- Parts of readable expressions are readable, by induction on the part. -/
theorem Part.readable {part whole : Expr} (inside : part.Part whole) (readable : whole.Readable)
    : part.Readable := by
  induction inside with
  | self => exact readable
  | item member _ ih =>
      cases readable with
      | list items => exact ih (items _ member)

end Expr

open MiniLisp.Expr

/-- The code of a closure has been read: its body and its parameters are parts of these forms. -/
structure Closure.ReadIn (forms : List Expr) (closure : Closure) : Prop where
  body : PartOf forms closure.body
  parameters : ∀ name ∈ closure.parameters, PartOf forms (.symbol name)

theorem Closure.ReadIn.mono {forms more : List Expr} (subset : forms ⊆ more) {closure : Closure}
    (known : closure.ReadIn forms)
    : closure.ReadIn more :=
  ⟨known.body.mono subset, fun name member => (known.parameters name member).mono subset⟩

namespace Store

/-- The closures held in frames have code that has been read. -/
def HoldsRead (forms : List Expr) (store : Store) : Prop :=
  ∀ id name value, store.local? id name = some value → value.IfClosure (Closure.ReadIn forms)

theorem HoldsRead.mono {forms more : List Expr} {store : Store} (subset : forms ⊆ more)
    (holds : store.HoldsRead forms)
    : store.HoldsRead more :=
  fun id name value bound closure same => (holds id name value bound closure same).mono subset

theorem HoldsRead.bind {forms : List Expr} {store : Store} (holds : store.HoldsRead forms)
    {env : FrameId} {name : String} {value : Value} (known : value.IfClosure (Closure.ReadIn forms))
    : (store.bind env name value).HoldsRead forms :=
  forall_local?_bind holds known env name

theorem HoldsRead.spawn {forms : List Expr} {store : Store} (holds : store.HoldsRead forms)
    {env : FrameId}
    : (store.spawn env).2.HoldsRead forms :=
  forall_local?_addFrame holds (by simp)

/-- A fresh global frame holds no closures. -/
theorem holdsRead_global : (addGlobal ∅).2.HoldsRead [] := by
  have sound := sound_empty.addGlobal
  have none : (addGlobal ∅).2.extent.closures = 0 := rfl
  intro id name value bound closure same
  have made := (sound.held bound closure same).id
  omega

end Store

namespace Provenance

/-- Closures in frames have code that is a part of the forms, and only such code is evaluated. -/
def invariant (forms : List Expr) : Invariant where
  Grows _ _ := True
  stores store := store.HoldsRead forms
  frames _ _ := True
  closures _ := Closure.ReadIn forms
  code := PartOf forms
  preorder := Invariant.isPreorder_anything
  frames_mono _ := id
  closures_mono _ := id
  code_item part among := part.of_item among
  code_of_closure known := ⟨trivial, known.body⟩
  held stores := stores _ _ _
  bind stores _ known := ⟨trivial, stores.bind known⟩
  make stores _ names code := ⟨trivial, stores, code, names⟩
  spawn stores _ := ⟨trivial, stores.spawn, trivial⟩

end Provenance

/-- The expressions that an outcome is about: those of an evaluation error. -/
def Outcome.exprs : Outcome → List Expr
  | .error (.eval error) => error.exprs
  | _ => []

namespace Session

/-- The forms of a text: none if it cannot be read. -/
def formsOf (text : String) : List Expr :=
  (read text).toOption.getD []

/-- A session in which texts are given one after another: the forms read so far, the outcomes so far
and the machine. Texts are run in one frame, or answered in it, which shows their outcomes only.
-/
inductive Progress : List Expr → List Outcome → Machine → Prop
  | start : Progress [] [] ⟨(Store.addGlobal ∅).2, #[]⟩
  | text {forms outcomes machine depth text results after}
    (before : Progress forms outcomes machine)
    (finished
      : (runText depth text (Store.addGlobal ∅).1).run machine = .ok (results, after))
    : Progress (forms ++ formsOf text) (outcomes ++ results) after
  | response {forms outcomes machine depth colour text lines after}
    (before : Progress forms outcomes machine)
    (finished
      : (Shell.respond depth (Store.addGlobal ∅).1 colour text).run machine = .ok (lines, after))
    : Progress (forms ++ formsOf text) outcomes after

/-- A moment of a session, with the forms read so far, the outcomes so far and the store: between
texts, or while a form of a text is evaluated after those before it have been.
-/
inductive Moment : List Expr → List Outcome → Store → Prop
  | between {forms outcomes machine} (progress : Progress forms outcomes machine)
    : Moment forms outcomes machine.store
  | inside {forms outcomes machine text front form back depth middle limit outcome after}
    {values : List Value}
    (progress : Progress forms outcomes machine)
    (accepted : read text = .ok (front ++ form :: back))
    (earlier
      : (runForms depth text (Store.addGlobal ∅).1 front).run
          { machine with trace := machine.trace.push (.read (front ++ form :: back).length text) }
        = .ok (values.map .ok, middle))
    (interrupted
      : (evaluateUntil limit depth form (Store.addGlobal ∅).1).on middle = .ok (outcome, after))
    : Moment (forms ++ formsOf text) (outcomes ++ values.map .ok) after.store

/-- A moment in the second binding of a `let`: the frame of this `let` holds the first closure. -/
example
    : ∃ forms outcomes store,
        Moment forms outcomes store
        ∧ store.local? 1 "f" = some (.closure ⟨0, ["x"], .symbol "x", 0⟩)
        ∧ store.local? 1 "g" = none := by
  let text := "(let ((f (lambda (x) x)) (g (h))) f)"
  let procedure : Expr := .form .lambda [.list [.symbol "x"], .symbol "x"]
  let form : Expr :=
    .form .letIn
      [.list [.list [.symbol "f", procedure], .list [.symbol "g", .list [.symbol "h"]]],
        .symbol "f"]
  have accepted : read text = .ok ([] ++ form :: []) := by decide +kernel
  have interrupted
      : ∃ outcome after,
          (evaluateUntil 3 2 form 0).on ⟨(Store.addGlobal ∅).2, #[.read 1 text]⟩
            = .ok (outcome, after)
          ∧ after.store.local? 1 "f" = some (.closure ⟨0, ["x"], .symbol "x", 0⟩)
          ∧ after.store.local? 1 "g" = none :=
    ⟨_, _, rfl, rfl, rfl⟩
  obtain ⟨outcome, after, interrupted, held⟩ := interrupted
  have earlier
      : (runForms 2 text 0 []).run ⟨(Store.addGlobal ∅).2, #[.read 1 text]⟩
        = .ok (([] : List Value).map .ok, ⟨(Store.addGlobal ∅).2, #[.read 1 text]⟩) :=
    rfl
  exact ⟨_, _, _, .inside .start accepted earlier interrupted, held⟩

/-- All code in a store, and in what comes with outcomes, has been read; and what has been read is
read back from its printed form, part by part.
-/
structure CodeRead (forms : List Expr) (outcomes : List Outcome) (store : Store) : Prop where
  held : store.HoldsRead forms
  returned
    : ∀ outcome ∈ outcomes, ∀ value ∈ outcome.values, value.IfClosure (Closure.ReadIn forms)
  reported : ∀ outcome ∈ outcomes, ∀ expr ∈ outcome.exprs, PartOf forms expr
  readBack : ∀ {expr}, PartOf forms expr → read expr.text = .ok [expr]

theorem formsOf_eq {text : String} {forms : List Expr} (accepted : read text = .ok forms)
    : formsOf text = forms := by
  rw [formsOf, accepted]
  rfl

/-- Every part of what a text reads to is read back, as it is readable. -/
theorem read_text_of_partOf {text : String} {expr : Expr} (part : PartOf (formsOf text) expr)
    : read expr.text = .ok [expr] := by
  obtain ⟨form, member, inside⟩ := part
  cases accepted : read text with
  | error error => simp [formsOf, accepted, Except.toOption] at member
  | ok forms =>
      rw [formsOf_eq accepted] at member
      exact (inside.readable (readable_of_read accepted form member)).read_text

theorem codeRead_start : CodeRead [] [] (Store.addGlobal ∅).2 where
  held := Store.holdsRead_global
  returned _ member := nomatch member
  reported _ member := nomatch member
  readBack part := by
    obtain ⟨form, member, _⟩ := part
    cases member

/-- What the invariant holds of comes with code that has been read. -/
theorem codeRead_of_allows {forms : List Expr} {store : Store} {outcome : Outcome}
    (allowed : (Provenance.invariant forms).Allows store outcome)
    : (∀ value ∈ outcome.values, value.IfClosure (Closure.ReadIn forms))
      ∧ ∀ expr ∈ outcome.exprs, PartOf forms expr := by
  match outcome with
  | .ok value => exact ⟨List.forall_mem_singleton.mpr allowed, fun _ member => nomatch member⟩
  | .error (.eval error) => exact ⟨allowed.values, allowed.exprs⟩
  | .error (.read error) => exact ⟨fun _ member => (nomatch member), fun _ member => nomatch member⟩

section Texts

variable {forms : List Expr} {outcomes results : List Outcome} {before : Store} {after : Machine}
  {text : String} (known : CodeRead forms outcomes before)

include known

/-- A text adds its forms to what has been read, and then its outcomes come with what has been read
too.
-/
theorem CodeRead.later {later : Store} (held : later.HoldsRead (forms ++ formsOf text))
    (allowed
      : ∀ outcome ∈ results,
          ∃ store, (Provenance.invariant (forms ++ formsOf text)).Allows store outcome)
    : CodeRead (forms ++ formsOf text) (outcomes ++ results) later where
  held := held
  returned := by
    refine List.forall_mem_append.mpr ⟨fun outcome member value among closure same => ?_,
      fun outcome member => ?_⟩
    · exact (known.returned outcome member value among closure same).mono
        (List.subset_append_left _ _)
    · obtain ⟨store, allowed⟩ := allowed outcome member
      exact (codeRead_of_allows allowed).1
  reported := by
    refine List.forall_mem_append.mpr ⟨fun outcome member expr among => ?_,
      fun outcome member => ?_⟩
    · exact (known.reported outcome member expr among).mono (List.subset_append_left _ _)
    · obtain ⟨store, allowed⟩ := allowed outcome member
      exact (codeRead_of_allows allowed).2
  readBack := by
    rintro expr ⟨form, member, inside⟩
    rcases List.mem_append.mp member with old | new
    · exact known.readBack ⟨form, old, inside⟩
    · exact read_text_of_partOf ⟨form, new, inside⟩

theorem CodeRead.runText {depth : Nat} {env : FrameId} {machine : Machine}
    (here : machine.store = before)
    (finished : (runText depth text env).run machine = .ok (results, after))
    : CodeRead (forms ++ formsOf text) (outcomes ++ results) after.store := by
  subst here
  let I := Provenance.invariant (forms ++ formsOf text)
  have ends : I.FormsEnd machine.store ((Session.runText depth text env).run machine) :=
    Invariant.formsEnd_runText (known.held.mono (List.subset_append_left _ _)) trivial
      fun read accepted form member =>
        partOf_of_mem (List.mem_append_right _ (formsOf_eq accepted ▸ member))
  rw [finished] at ends
  cases ends with
  | outcomes _ holds allowed =>
      exact known.later holds fun outcome member => ⟨_, allowed outcome member⟩

end Texts

/-- Between texts, all code has been read; by induction on the texts. -/
theorem Progress.codeRead {forms : List Expr} {outcomes : List Outcome} {machine : Machine}
    (progress : Progress forms outcomes machine)
    : CodeRead forms outcomes machine.store := by
  induction progress with
  | start => exact codeRead_start
  | text _ finished ih => exact ih.runText rfl finished
  | response _ finished ih =>
      obtain ⟨results, middle, ran, shown⟩ := Run.run_bind_eq_ok.mp finished
      obtain ⟨rfl, rfl⟩ := Prod.mk.inj (Except.ok.inj shown)
      have known := ih.runText rfl ran
      exact ⟨known.held, fun outcome member =>
        known.returned outcome (List.mem_append_left _ member), fun outcome member =>
        known.reported outcome (List.mem_append_left _ member), known.readBack⟩

/-- At every moment of a session, between texts and while a form is evaluated, closures in frames
have bodies that are parts of forms read so far, and parameters that are symbols in such forms. So
have closures that have been returned, and errors are about parts of these forms. All of these are
read back from their printed forms.
-/
theorem moments_hold_code_read {forms : List Expr} {outcomes : List Outcome} {store : Store}
    (moment : Moment forms outcomes store)
    : CodeRead forms outcomes store := by
  cases moment with
  | between progress => exact progress.codeRead
  | @inside forms outcomes machine text front form back depth middle limit outcome after values
      progress accepted earlier interrupted =>
      have known := progress.codeRead
      let I := Provenance.invariant (forms ++ formsOf text)
      have code : ∀ item ∈ front ++ form :: back, I.code item := fun item member =>
        partOf_of_mem (List.mem_append_right _ (formsOf_eq accepted ▸ member))
      rw [List.forall_mem_append, List.forall_mem_cons] at code
      let noted : Machine :=
        { machine with trace := machine.trace.push (.read (front ++ form :: back).length text) }
      have holds : I.stores noted.store := known.held.mono (List.subset_append_left _ _)
      have ends : I.FormsEnd noted.store (.ok (values.map .ok, middle)) :=
        earlier ▸ Invariant.formsEnd_runForms holds trivial code.1
      cases ends with
      | outcomes _ holds allowed =>
          have obeys : I.Obeys middle.store I.Values
              (evaluateUntil limit depth form (Store.addGlobal ∅).1) :=
            I.obeys_evaluateUntil limit depth trivial code.2.1
          have last := obeys middle trivial holds
          rw [interrupted] at last
          exact known.later last.stores fun result member => ⟨_, allowed result member⟩

/-- A procedure is defined by a text. Its body and parameter have been read, and are read back. -/
theorem defined_procedure_read
    : ∃ forms outcomes store,
        read "(define (f x) x)" = .ok forms
        ∧ Moment forms outcomes store
        ∧ store.local? 0 "f" = some (.closure ⟨0, ["x"], .symbol "x", 0⟩)
        ∧ Closure.ReadIn forms ⟨0, ["x"], .symbol "x", 0⟩
        ∧ read (Expr.symbol "x").text = .ok [.symbol "x"] := by
  have accepted
      : read "(define (f x) x)"
        = .ok [.form .definition [.list [.symbol "f", .symbol "x"], .symbol "x"]] := by
    decide +kernel
  have moment
      : ∃ outcomes store,
          Moment (formsOf "(define (f x) x)") outcomes store
          ∧ store.local? 0 "f" = some (.closure ⟨0, ["x"], .symbol "x", 0⟩) := by
    have finished
        : ∃ outcomes after,
            (runText 1 "(define (f x) x)" 0).run ⟨(Store.addGlobal ∅).2, #[]⟩
              = .ok (outcomes, after)
            ∧ after.store.local? 0 "f" = some (.closure ⟨0, ["x"], .symbol "x", 0⟩) := by
      rw [runText_run, accepted]
      exact ⟨_, _, rfl, rfl⟩
    obtain ⟨outcomes, after, finished, held⟩ := finished
    exact ⟨_, _, .between (.text .start finished), held⟩
  obtain ⟨outcomes, store, moment, held⟩ := moment
  have known := moments_hold_code_read moment
  have closure := known.held _ _ _ held _ rfl
  have back := known.readBack closure.body
  rw [formsOf_eq accepted] at moment closure
  exact ⟨_, outcomes, store, accepted, moment, held, closure, back⟩

end Session

end MiniLisp

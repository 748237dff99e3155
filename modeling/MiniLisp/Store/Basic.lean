import MiniLisp.Bindings
import MiniLisp.Value

/-! The store: every frame made so far, and how names are looked up through nested frames.
Frames are added at the end and stay; a frame's bindings change and its parent never does. Lookup
walks outwards, from a frame to the frames around it.
-/

namespace MiniLisp

/-- One scope: its own bindings, and the frame around it unless it is a global one. -/
structure Frame where
  bindings : Bindings Value
  parent : Option FrameId

/-- All frames by their place, and how many closures have been made. -/
structure Store where
  frames : Array Frame
  closures : Nat

namespace Store

/-- Nothing has been made yet. -/
def empty : Store :=
  ⟨#[], 0⟩

instance : EmptyCollection Store :=
  ⟨empty⟩

/-- The frame at a place. -/
def frame? (store : Store) (id : FrameId) : Option Frame :=
  store.frames[id]?

/-- The frame around a frame. -/
def parent? (store : Store) (id : FrameId) : Option FrameId :=
  (store.frame? id).bind (·.parent)

/-- What a frame itself binds a name to. -/
def local? (store : Store) (id : FrameId) (name : String) : Option Value :=
  (store.frame? id).bind (·.bindings.get? name)

/-- A frame and the frames around it, from the inside out. A frame is younger than the one around
it, so the walk follows links to older frames only and ends.
-/
def chain (store : Store) (id : FrameId) : List FrameId :=
  match store.frame? id with
  | none => []
  | some frame =>
      id :: match frame.parent with
        | none => []
        | some parent => if parent < id then store.chain parent else []
termination_by id

/-- What a name means in a frame: the innermost binding on the frame's chain. -/
def lookup? (store : Store) (id : FrameId) (name : String) : Option Value :=
  (store.chain id).findSome? (store.local? · name)

/-- Binds a name in one frame, which shadows outer bindings and touches none. -/
def bind (store : Store) (id : FrameId) (name : String) (value : Value) : Store :=
  { store with
    frames := store.frames.modify id fun frame =>
      { frame with bindings := frame.bindings.insert name value } }

/-- Binds a name in one frame, and gives what that frame itself bound it to before. -/
def set (store : Store) (id : FrameId) (name : String) (value : Value)
    : Option Value × Store :=
  (store.local? id name, store.bind id name value)

/-- Adds a frame at the next place. -/
def addFrame (store : Store) (frame : Frame) : FrameId × Store :=
  (store.frames.size, { store with frames := store.frames.push frame })

/-- Adds an empty frame inside another. -/
def spawn (store : Store) (parent : FrameId) : FrameId × Store :=
  store.addFrame ⟨∅, some parent⟩

/-- Adds a frame inside another with bindings made in order, so that the last of a repeated name
stands.
-/
def spawnWith (store : Store) (parent : FrameId) (entries : List (String × Value))
    : FrameId × Store :=
  store.addFrame ⟨(∅ : Bindings Value).insertAll entries, some parent⟩

/-- The booleans and primitives under their names. -/
def globals : Bindings Value :=
  (∅ : Bindings Value).insertAll
    ([("true", .bool true), ("false", .bool false)]
      ++ Primitive.all.map fun primitive => (primitive.name, .primitive primitive))

/-- Adds a fresh global frame. -/
def addGlobal (store : Store) : FrameId × Store :=
  store.addFrame ⟨globals, none⟩

/-- Makes a closure over a frame, with an identity that no closure had before. -/
def makeClosure (store : Store) (parameters : List String) (body : Expr) (env : FrameId)
    : Closure × Store :=
  (⟨store.closures, parameters, body, env⟩, { store with closures := store.closures + 1 })

/-- The names that a frame itself binds, in braces. -/
def frameText (store : Store) (id : FrameId) : String :=
  match store.frame? id with
  | none => ""
  | some frame => "\x7b" ++ " ".intercalate frame.bindings.names ++ "\x7d"

/-- The names bound in a frame and in each of the frames around it, from the inside out. -/
def scopeText (store : Store) (id : FrameId) : String :=
  " -> ".intercalate ((store.chain id).map store.frameText)

end Store

end MiniLisp

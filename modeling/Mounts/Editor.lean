import Mounts.Spec.Textual
import Mounts.Spec.Basic

/-!
# Editing specs

An editor holds a spec that edits change in place, and one saved spec beside it, at first none.
-/

namespace Mounts

set_option autoImplicit false

/-- A step of editing. -/
inductive Edit
  /-- Stores a parameter. -/
  | set (key value : String)
  /-- Stores as much of a parameter as fits in a number of bytes. -/
  | setWithin (key value : String) (limit : Option Nat)
  /-- Claims another path prefix. -/
  | rescope (scope : String)
  /-- Asks for a parameter. -/
  | get (key : String)
  /-- Asks for the mount type. -/
  | type
  /-- Saves a copy of the spec. -/
  | save
  /-- Exchanges the spec with the saved one, or saves a copy if none is saved. -/
  | swap
  /-- Asks whether the saved spec equals the current one. -/
  | same
  /-- Asks for the compact form. -/
  | text
  /-- Takes the spec from a compact form. -/
  | load (line : String)
deriving Repr

/-- What an edit answers. -/
inductive EditReply
  /-- Nothing to tell. -/
  | nothing
  /-- A text. -/
  | text (answer : String)
  /-- Yes or no. -/
  | flag (answer : Bool)
  /-- Why a spec could not be read. -/
  | failed (why : SpecError)
deriving Repr, DecidableEq

/-- A spec under change and a saved one. -/
structure Editor where
  /-- The spec that edits change. -/
  current : Spec
  /-- The saved spec, if one was saved. -/
  saved : Option Spec
deriving Repr, DecidableEq

namespace Editor

/-- Starts from a spec of the given type with nothing saved. -/
def start (mountType : Option String) : Editor :=
  ⟨Spec.ofType mountType, none⟩

/-- A text to tell, if there is one. -/
def tell : Option String → EditReply
  | some answer => .text answer
  | none => .nothing

/-- Carries out one edit. -/
def apply (editor : Editor) : Edit → EditReply × Editor
  | .set key value => (.nothing, { editor with current := editor.current.set key value })
  | .setWithin key value limit =>
    (.nothing, { editor with current := editor.current.setWithin key value limit })
  | .rescope scope => (.nothing, { editor with current := editor.current.rescope scope })
  | .get key => (tell (editor.current.get? key), editor)
  | .type => (tell editor.current.type?, editor)
  | .save => (.nothing, { editor with saved := some editor.current })
  | .swap => (.nothing, ⟨editor.saved.getD editor.current, some editor.current⟩)
  | .same =>
    match editor.saved with
    | some saved => (.flag (saved = editor.current), editor)
    | none => (.nothing, editor)
  | .text => (.text editor.current.toText, editor)
  | .load line =>
    match Spec.ofText line with
    | .ok spec => (.nothing, { editor with current := spec })
    | .error why => (.failed why, editor)

/-- Carries out edits in turn and records each answer with the spec after it. -/
def run (editor : Editor) : List Edit → List (EditReply × Spec)
  | [] => []
  | edit :: edits =>
    let (reply, after) := editor.apply edit
    (reply, after.current) :: after.run edits

end Editor

end Mounts

import Mounts.Spec.Wire

/-!
# Reading a message step by step

A reader holds a cursor on the innermost container that it has entered and the cursors of the
containers around it.  Each step asks for something at the current element, moves on, enters a
container or leaves one.  A step that fails changes nothing.
-/

namespace Mounts

set_option autoImplicit false

open Message (Cursor Fault Kind)

/-- A step of reading. -/
inductive ReadStep
  /-- Asks for the kind of the current element. -/
  | kind
  /-- Asks for the declared kind of the items of the current element. -/
  | itemKind
  /-- Moves past the current element. -/
  | next
  /-- Reads a text of the given kind and moves past it. -/
  | text (kind : Kind)
  /-- Reads a spec and moves past it. -/
  | spec
  /-- Enters the current container. -/
  | enter
  /-- Goes back to the container around the current one. -/
  | leave
deriving Repr, DecidableEq

/-- What a step of reading answers. -/
inductive ReadReply
  /-- A kind, if there is one. -/
  | kind (found : Option Kind)
  /-- Yes or no. -/
  | flag (answer : Bool)
  /-- A text. -/
  | text (read : String)
  /-- A spec. -/
  | spec (read : Spec)
  /-- Why an element could not be read. -/
  | fault (why : Fault)
  /-- Why a spec could not be read. -/
  | failed (why : SpecError)
deriving Repr, DecidableEq

/-- A place in a message together with the places of the containers around it. -/
structure Reader where
  /-- The place in the innermost container. -/
  current : Cursor
  /-- The places of the containers around it, the innermost first. -/
  outer : List Cursor
deriving Repr, DecidableEq

namespace Reader

/-- The start of a message. -/
def ofBytes (data : List UInt8) : Reader :=
  ⟨Cursor.ofBytes data, []⟩

/-- Carries out one step. -/
def apply (reader : Reader) : ReadStep → ReadReply × Reader
  | .kind => (.kind reader.current.kind?, reader)
  | .itemKind => (.kind reader.current.itemKind?, reader)
  | .next =>
    let after := reader.current.next
    (.flag after.kind?.isSome, { reader with current := after })
  | .text kind =>
    match reader.current.readText kind with
    | .ok (text, after) => (.text text, { reader with current := after })
    | .error why => (.fault why, reader)
  | .spec =>
    match Spec.read reader.current with
    | .ok (spec, after) => (.spec spec, { reader with current := after })
    | .error why => (.failed why, reader)
  | .enter =>
    match reader.current.enter with
    | .ok inner => (.flag true, ⟨inner, reader.current :: reader.outer⟩)
    | .error why => (.fault why, reader)
  | .leave =>
    match reader.outer with
    | around :: further => (.flag true, ⟨around, further⟩)
    | [] => (.flag false, reader)

/-- Carries out steps in turn and records each answer with the reader after it. -/
def run (reader : Reader) : List ReadStep → List (ReadReply × Reader)
  | [] => []
  | step :: steps =>
    let outcome := reader.apply step
    outcome :: outcome.2.run steps

end Reader

end Mounts

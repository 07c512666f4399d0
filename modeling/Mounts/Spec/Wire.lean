import Mounts.Message.Writer
import Mounts.Spec.Basic
import Mounts.Spec.Textual

/-!
# Specs in messages

In a message a spec is a struct of the path prefix, as a text that a NUL ends, and an array of
structs, each with a key and a value.  A path may be announced in place of the spec's own prefix.

Reading is strict about the struct, the path and the array, and lenient about single entries: one
that does not start with a key and a value is passed over and the rest of the array still counts.
What follows the parts that reading asks for is ignored.
-/

namespace Mounts.Spec

set_option autoImplicit false

open Message (Cursor Draft Fault Value Writer)

/-! ## Writing -/

/-- The value of one parameter. -/
def entryValue (entry : String × String) : Value :=
  .struct [.string entry.1, .cstring entry.2]

/-- The value of a spec, with a path in place of its prefix if one is given. -/
def toValue (spec : Spec) (path : Option String) : Value :=
  .struct [.cstring ((path.map Text.untilNul).getD spec.scope),
    .array .struct (spec.params.entries.map entryValue)]

/-- The bytes of a spec, with a path in place of its prefix if one is given. -/
def toWire (spec : Spec) (path : Option String) : List UInt8 :=
  (spec.toValue path).encode

/-- Appends a spec to a message, with a path in place of its prefix if one is given. -/
def writeTo (spec : Spec) (path : Option String) (writer : Writer) : Option Fault × Writer :=
  writer.extend (.ofValue (spec.toValue path))

/-! ## Reading -/

/-- The key and the value at the start of an entry. -/
def readItem? (entry : Cursor) : Option (String × String) := do
  let (key, further) ← (entry.readText .string).toOption
  let (value, _) ← (further.readText .cstring).toOption
  return (key, value)

/-- The entries from a cursor up to the first element that is not a struct, unreadable entries left
out. -/
def readEntries (cursor : Cursor) : List (String × String) :=
  match _found : cursor.frameOf? .struct with
  | none => []
  | some frame => (readItem? (Cursor.inside frame)).toList ++ readEntries (cursor.past frame)
termination_by cursor.remaining
decreasing_by exact Cursor.remaining_past (Cursor.frame_of_frameOf? _found).1

/-- The spec whose fields start at a cursor. -/
def readFields (fields : Cursor) : Except SpecError Spec :=
  match fields.readText .cstring with
  | .error _ => .error (.malformed .path)
  | .ok (scope, further) =>
    match further.frameOf? .array with
    | none => .error (.malformed .items)
    | some items =>
      if items.item = some .struct then
        .ok (ofParams (Params.ofPairs (readEntries (Cursor.inside items))) (some scope))
      else .error (.malformed .items)

/-- The spec at a cursor, and the place after it. -/
def read (cursor : Cursor) : Except SpecError (Spec × Cursor) :=
  match cursor.frameOf? .struct with
  | none => .error (.malformed .whole)
  | some frame => (readFields (Cursor.inside frame)).map fun spec => (spec, cursor.past frame)

/-- A spec that is read leaves fewer bytes after it. -/
theorem remaining_read {cursor after : Cursor} {spec : Spec}
    (accepted : read cursor = .ok (spec, after)) : after.remaining < cursor.remaining := by
  simp only [read] at accepted
  split at accepted
  · cases accepted
  · next frame found =>
    cases inner : readFields (Cursor.inside frame) with
    | error why => simp [inner, Except.map] at accepted
    | ok spec =>
      simp only [inner, Except.map, Except.ok.injEq, Prod.mk.injEq] at accepted
      rw [← accepted.2]
      exact Cursor.remaining_past (Cursor.frame_of_frameOf? found).1

/-- The specs from a cursor on, each with the place after it, and last why no further one can be
read, with the place where that is so. -/
def readSequence (cursor : Cursor) : List (Except SpecError Spec × Nat) :=
  match _accepted : read cursor with
  | .error why => [(.error why, cursor.position)]
  | .ok (spec, after) => (.ok spec, after.position) :: readSequence after
termination_by cursor.remaining
decreasing_by exact remaining_read _accepted

end Mounts.Spec

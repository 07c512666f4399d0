import Mounts.Message.Basic
import Mounts.Message.Cursor
import Mounts.Text.Basic

/-!
# Writing messages

What a message says is a list of values, whose bytes are fixed.  Callers ask for it by drafts, which
may be refused, and a writer puts the bytes together.
-/

namespace Mounts.Message

set_option autoImplicit false

/-!
## Values and their bytes

A message value is a text or a container of values.  Its bytes are its kind followed by its
contents:

```text
string   's' length bytes
cstring  'z' bytes 00
struct   'r' length fields
array    'a' kind of the items, length, items
```

A length counts bytes, so an element can be skipped without a look at what it holds.
-/

/-- A text or a container of values. -/
inductive Value
  /-- A text written with its length in front. -/
  | string (text : String)
  /-- A text written with a NUL at its end. -/
  | cstring (text : String)
  /-- Fields of any kinds. -/
  | struct (fields : List Value)
  /-- Items of one declared kind. -/
  | array (item : Kind) (items : List Value)
deriving Repr, Inhabited

namespace Value

/-- What a value is. -/
def kind : Value → Kind
  | .string _ => .string
  | .cstring _ => .cstring
  | .struct _ => .struct
  | .array _ _ => .array

/-- A length in front of the bytes that it counts. -/
def counted (body : List UInt8) : List UInt8 :=
  Length.encode body.length ++ body

mutual

/-- The bytes of a value. -/
def encode : Value → List UInt8
  | .string text => Kind.string.code :: counted (Text.utf8 text)
  | .cstring text => Kind.cstring.code :: (Text.utf8 text ++ [0])
  | .struct fields => Kind.struct.code :: counted (encodeAll fields)
  | .array item items => Kind.array.code :: item.code :: counted (encodeAll items)

/-- The bytes of values one after another. -/
def encodeAll : List Value → List UInt8
  | [] => []
  | value :: values => value.encode ++ encodeAll values

end

end Value

/-!
## Drafts

A draft is what a caller asks to append to a message.  Not every draft may be written: no text of it
may hold a NUL, every array has to declare a kind that its items keep, and no length may exceed what
four bytes can hold.  A part under `attempt` that may not be written spoils nothing around it.
-/

/-- What a caller asks to append to a message. -/
inductive Draft
  /-- A text with its length in front. -/
  | string (text : String)
  /-- A text with a NUL at its end. -/
  | cstring (text : String)
  /-- Fields of any kinds. -/
  | struct (fields : List Draft)
  /-- Items of a declared kind, if one is declared. -/
  | array (item : Option Kind) (items : List Draft)
  /-- A part that is left out if it may not be written. -/
  | attempt (part : Draft)
deriving Repr, Inhabited

namespace Draft

mutual

/-- The request to write a given value. -/
def ofValue : Value → Draft
  | .string text => .string text
  | .cstring text => .cstring text
  | .struct fields => .struct (ofValues fields)
  | .array item items => .array (some item) (ofValues items)

/-- The requests to write given values. -/
def ofValues : List Value → List Draft
  | [] => []
  | value :: values => ofValue value :: ofValues values

end

end Draft

/-!
## Writers

A writer holds the bytes of a message under construction.  The body of a container is built as a
message of its own and copied behind its length once it is complete, so a fault inside a container
leaves nothing of the container behind.  The body of an array is read again before it is copied,
since every element in it has to be of the declared kind.

Of two faults the one met first counts.  Appending stops at a fault; only a length that four bytes
cannot hold is noticed after the first bytes of its element were written.
-/

/-- Whether every element from a cursor on is of a kind. -/
def Cursor.holdsOnly (kind : Kind) (cursor : Cursor) : Bool :=
  match _found : cursor.frame with
  | .ok frame => frame.kind == kind && (cursor.past frame).holdsOnly kind
  | .error _ => cursor.atEnd
termination_by cursor.remaining
decreasing_by exact Cursor.remaining_past _found

/-- Appends the head of an element, a length and the bytes that it counts. -/
def writeCounted (head body bytes : List UInt8) : Option Fault × List UInt8 :=
  if body.length < Length.bound then (none, bytes ++ (head ++ Value.counted body))
  else (some .tooLong, bytes ++ head)

namespace Draft

mutual

/-- Appends what a draft asks for to some bytes. -/
def write : Draft → List UInt8 → Option Fault × List UInt8
  | .string text, bytes =>
    if Text.hasNul text then (some .holdsNul, bytes)
    else writeCounted [Kind.string.code] (Text.utf8 text) bytes
  | .cstring text, bytes =>
    if Text.hasNul text then (some .holdsNul, bytes)
    else (none, bytes ++ Kind.cstring.code :: (Text.utf8 text ++ [0]))
  | .struct fields, bytes =>
    match writeAll fields [] with
    | (some fault, _) => (some fault, bytes)
    | (none, body) => writeCounted [Kind.struct.code] body bytes
  | .array none _, bytes => (some .noItemKind, bytes)
  | .array (some item) items, bytes =>
    match writeAll items [] with
    | (some fault, _) => (some fault, bytes)
    | (none, body) =>
      if (Cursor.ofBytes body).holdsOnly item then
        writeCounted [Kind.array.code, item.code] body bytes
      else (some .foreignItem, bytes)
  | .attempt part, bytes => (none, (part.write bytes).2)

/-- Appends what drafts ask for one after another, up to the first fault. -/
def writeAll : List Draft → List UInt8 → Option Fault × List UInt8
  | [], bytes => (none, bytes)
  | draft :: drafts, bytes =>
    match draft.write bytes with
    | (some fault, longer) => (some fault, longer)
    | (none, longer) => writeAll drafts longer

end

end Draft

/-- The bytes of a message under construction. -/
structure Writer where
  /-- The bytes written so far. -/
  bytes : List UInt8
deriving Repr, DecidableEq, Inhabited

namespace Writer

/-- The message without elements. -/
def empty : Writer := ⟨[]⟩

/-- What appending a draft meets, and the message after it. -/
def extend (writer : Writer) (draft : Draft) : Option Fault × Writer :=
  let (fault, longer) := draft.write writer.bytes
  (fault, ⟨longer⟩)

/-- The outcome of appending each of several drafts in turn. -/
def extendEach (writer : Writer) : List Draft → List (Option Fault × Writer)
  | [] => []
  | draft :: drafts =>
    let outcome := writer.extend draft
    outcome :: outcome.2.extendEach drafts

/-- The message after each of several drafts was appended in turn, faults notwithstanding. -/
def extendAll (writer : Writer) (drafts : List Draft) : Writer :=
  drafts.foldl (fun longer draft => (longer.extend draft).2) writer

end Writer

end Mounts.Message

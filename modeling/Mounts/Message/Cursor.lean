import Mounts.Message.Basic
import Mounts.Text.Basic

/-!
# Reading messages

A message is read through cursors.  A frame is the element at a place, told apart from what follows;
a cursor stands at an element and moves on or enters it; a walk visits all that a message holds.
-/

namespace Mounts.Message

set_option autoImplicit false

/-!
## Frames

A frame is the element at the start of some bytes, told apart from what follows it: its kind, the
declared kind of its items if it is an array, its body, and the number of bytes that it takes.
Finding the frame looks at the header of the element, and into its body only to find the NUL that
ends a text.

The main statement bounds a frame: it takes no more bytes than there are, and more than its body.
-/

/-- The element at the start of some bytes. -/
structure Frame where
  /-- What the element is. -/
  kind : Kind
  /-- The declared kind of an array's items. -/
  item : Option Kind
  /-- The bytes of the text or of the elements inside. -/
  body : List UInt8
  /-- How many bytes the element takes. -/
  size : Nat
deriving Repr, DecidableEq

namespace Frame

/-- The frame of a text whose bytes go on until a NUL. -/
def terminated (bytes : List UInt8) : Except Fault Frame :=
  let body := bytes.takeWhile (· != 0)
  if body.length < bytes.length then .ok ⟨.cstring, none, body, body.length + 2⟩
  else .error .unterminated

/-- The frame of an element whose length follows a header of `header` bytes. -/
def counted (kind : Kind) (item : Option Kind) (header : Nat) (bytes : List UInt8) :
    Except Fault Frame :=
  match Length.read? bytes with
  | none => .error .cutShort
  | some (length, rest) =>
    if length ≤ rest.length then .ok ⟨kind, item, rest.take length, header + 4 + length⟩
    else .error .overrun

/-- The frame of an element of a known kind, from the bytes after its first. -/
def afterCode : Kind → List UInt8 → Except Fault Frame
  | .string, bytes => counted .string none 1 bytes
  | .struct, bytes => counted .struct none 1 bytes
  | .cstring, bytes => terminated bytes
  | .array, [] => .error .cutShort
  | .array, code :: bytes =>
    match Kind.ofCode? code with
    | some item => counted .array (some item) 2 bytes
    | none => .error .unknownItemKind

/-- The frame at the start of some bytes, which has to be of the declared kind if one is. -/
def read (declared : Option Kind) : List UInt8 → Except Fault Frame
  | [] => .error .endOfContainer
  | code :: bytes =>
    match Kind.ofCode? code with
    | none => .error .unknownKind
    | some kind =>
      if declared.all (· == kind) then afterCode kind bytes else .error .foreignItem

/-- The text that the body of a frame spells. -/
def text (frame : Frame) : Except Fault String :=
  match Text.ofUtf8? frame.body with
  | some text => .ok text
  | none => .error .notUtf8

/-! ### Bounds -/

/-- A text that a NUL ends takes its body and two more bytes. -/
theorem bounds_of_terminated {bytes : List UInt8} {frame : Frame}
    (found : terminated bytes = .ok frame) :
    frame.body.length + 1 < frame.size ∧ frame.size ≤ bytes.length + 1 := by
  simp only [terminated] at found
  split at found
  · cases found
    dsimp only
    omega
  · cases found

/-- A counted element takes its header, its length and its body. -/
theorem bounds_of_counted {kind : Kind} {item : Option Kind} {header : Nat} {bytes : List UInt8}
    {frame : Frame} (found : counted kind item header bytes = .ok frame) :
    frame.body.length + header < frame.size ∧ frame.size ≤ bytes.length + header := by
  simp only [counted] at found
  split at found
  · cases found
  · next length rest counts =>
    have taken := Length.length_of_read? counts
    split at found
    · cases found
      simp only [List.length_take]
      omega
    · cases found

/-- A frame takes more bytes than its body and no more than there are. -/
theorem bounds_of_read {declared : Option Kind} {bytes : List UInt8} {frame : Frame}
    (found : read declared bytes = .ok frame) :
    frame.body.length < frame.size ∧ frame.size ≤ bytes.length := by
  cases bytes with
  | nil => cases found
  | cons code bytes =>
    simp only [read] at found
    split at found
    · cases found
    · next kind known =>
      split at found
      · have bounds : frame.body.length + 1 < frame.size ∧ frame.size ≤ bytes.length + 1 := by
          cases kind with
          | string => exact bounds_of_counted found
          | struct => exact bounds_of_counted found
          | cstring => exact bounds_of_terminated found
          | array =>
            cases bytes with
            | nil => cases found
            | cons second bytes =>
              simp only [afterCode] at found
              split at found
              · have inner := bounds_of_counted found
                simp only [List.length_cons]
                omega
              · cases found
        simp only [List.length_cons]
        omega
      · cases found

end Frame

/-!
## Cursors

A cursor stands at an element of one container: at the top level of a message or inside the body of
a struct or an array.  It can tell what stands there, read a text, move past the element, or enter
a container, which gives a cursor of its own on the body.  An element that cannot be read ends its
container: moving on from it leads to the end.

`remaining` counts the bytes from the cursor on.  The main statements say that it falls with every
element passed and with every container entered, which is why walks through a message end.
-/

/-- A place in one container of a message. -/
structure Cursor where
  /-- The bytes of the container. -/
  data : List UInt8
  /-- How many of them lie before the current element. -/
  position : Nat
  /-- The kind that the container declares for its elements, if it is an array. -/
  declared : Option Kind
deriving Repr, DecidableEq

namespace Cursor

/-- The start of a message. -/
def ofBytes (data : List UInt8) : Cursor :=
  ⟨data, 0, none⟩

/-- The bytes from the current element on. -/
def rest (cursor : Cursor) : List UInt8 :=
  cursor.data.drop cursor.position

/-- The number of bytes from the current element on. -/
def remaining (cursor : Cursor) : Nat :=
  cursor.data.length - cursor.position

/-- Whether no bytes are left. -/
def atEnd (cursor : Cursor) : Bool :=
  decide (cursor.data.length ≤ cursor.position)

/-- The frame of the current element. -/
def frame (cursor : Cursor) : Except Fault Frame :=
  Frame.read cursor.declared cursor.rest

/-- The kind of the current element, if it can be read. -/
def kind? (cursor : Cursor) : Option Kind :=
  cursor.frame.toOption.map (·.kind)

/-- The declared kind of the items of the current element, if it is an array. -/
def itemKind? (cursor : Cursor) : Option Kind :=
  cursor.frame.toOption.bind (·.item)

/-- The frame of the current element, if it is of the given kind. -/
def frameOf? (cursor : Cursor) (kind : Kind) : Option Frame :=
  cursor.frame.toOption.filter (·.kind == kind)

/-! ### Moving -/

/-- The place after an element that starts here. -/
def past (cursor : Cursor) (frame : Frame) : Cursor :=
  { cursor with position := cursor.position + frame.size }

/-- The end of the container. -/
def finish (cursor : Cursor) : Cursor :=
  { cursor with position := cursor.data.length }

/-- The place after the current element, which is the end if the element cannot be read. -/
def next (cursor : Cursor) : Cursor :=
  match cursor.frame with
  | .ok frame => cursor.past frame
  | .error _ => cursor.finish

/-- The start of the elements inside a frame. -/
def inside (frame : Frame) : Cursor :=
  ⟨frame.body, 0, frame.item⟩

/-- The start of the elements inside the current one. -/
def enter (cursor : Cursor) : Except Fault Cursor := do
  let frame ← cursor.frame
  match frame.kind with
  | .struct | .array => return inside frame
  | .string | .cstring => .error .notContainer

/-- The text of the current element, which has to be of the given kind, and the place after it. -/
def readText (cursor : Cursor) (kind : Kind) : Except Fault (String × Cursor) := do
  let frame ← cursor.frame
  if frame.kind = kind then
    return (← frame.text, cursor.past frame)
  else
    .error .otherKind

/-! ### What is left -/

/-- A current element that can be read lies within its container. -/
theorem bounds_of_frame {cursor : Cursor} {frame : Frame} (found : cursor.frame = .ok frame) :
    frame.body.length < frame.size ∧ frame.size ≤ cursor.remaining := by
  have bounds := Frame.bounds_of_read found
  simpa [rest, remaining] using bounds

/-- Passing an element leaves fewer bytes. -/
theorem remaining_past {cursor : Cursor} {frame : Frame} (found : cursor.frame = .ok frame) :
    (cursor.past frame).remaining < cursor.remaining := by
  have bounds := bounds_of_frame found
  simp only [remaining, past] at bounds ⊢
  omega

/-- There are fewer bytes inside an element than from its start on. -/
theorem remaining_inside {cursor : Cursor} {frame : Frame} (found : cursor.frame = .ok frame) :
    (inside frame).remaining < cursor.remaining := by
  have bounds := bounds_of_frame found
  have body : (inside frame).remaining = frame.body.length := by simp [inside, remaining]
  omega

/-- A frame of a given kind is the frame of the current element. -/
theorem frame_of_frameOf? {cursor : Cursor} {kind : Kind} {frame : Frame}
    (found : cursor.frameOf? kind = some frame) : cursor.frame = .ok frame ∧ frame.kind = kind := by
  simp only [frameOf?] at found
  cases here : cursor.frame with
  | error fault => simp [here, Except.toOption] at found
  | ok other =>
    simp [here, Except.toOption, Option.filter] at found
    obtain ⟨same, rfl⟩ := found
    exact ⟨rfl, same⟩

end Cursor

/-!
## Walks

A walk visits every element from a cursor to the end of its container, and everything inside the
containers it meets.  It reads each text and records where and why it stopped at each level, so it
shows all that a message holds.  Any bytes at all can be walked.
-/

/-- Where a walk through one container ended. -/
structure Stop where
  /-- The place at which no further element could be read. -/
  position : Nat
  /-- Whether that place is the end of the container. -/
  atEnd : Bool
  /-- Why no element could be read there. -/
  fault : Fault
deriving Repr, DecidableEq

/-- What a walk meets. -/
inductive Visit
  /-- A text, at its place in the container, with what reading it gave. -/
  | text (position : Nat) (kind : Kind) (outcome : Except Fault String)
  /-- A container, at its place in the container around it, with what it holds. -/
  | container (position : Nat) (kind : Kind) (item : Option Kind) (visits : List Visit)
      (stop : Stop)

/-- The elements that a walk met, and where it stopped. -/
structure Walk where
  /-- The elements in order. -/
  visits : List Visit
  /-- Where the walk ended. -/
  stop : Stop

/-- Walks from a cursor to the end of its container. -/
def Cursor.walk (cursor : Cursor) : Walk :=
  match _found : cursor.frame with
  | .error fault => ⟨[], ⟨cursor.position, cursor.atEnd, fault⟩⟩
  | .ok frame =>
    let visit : Visit :=
      match frame.kind with
      | .string | .cstring => .text cursor.position frame.kind frame.text
      | .struct | .array =>
        let within := (Cursor.inside frame).walk
        .container cursor.position frame.kind frame.item within.visits within.stop
    let further := (cursor.past frame).walk
    ⟨visit :: further.visits, further.stop⟩
termination_by cursor.remaining
decreasing_by
  · exact Cursor.remaining_inside _found
  · exact Cursor.remaining_past _found

end Mounts.Message

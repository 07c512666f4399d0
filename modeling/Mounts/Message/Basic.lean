/-!
# Kinds, lengths and faults

What every part of the message format is built on: the kinds of elements, the lengths in front of
them, and what can be wrong with a message.
-/

namespace Mounts

set_option autoImplicit false

/-!
## Kinds

Every element of a message starts with a byte that tells its kind.  Two kinds are texts, one with
its length in front and one with a NUL at its end, and two are containers of further elements.
-/

namespace Message

/-- What an element of a message is. -/
inductive Kind
  /-- A text with its length in front. -/
  | string
  /-- A text that a NUL ends. -/
  | cstring
  /-- A container of elements of any kinds. -/
  | struct
  /-- A container of elements of one declared kind. -/
  | array
deriving Repr, DecidableEq, Inhabited

namespace Kind

/-- The byte that stands for a kind: the ASCII letter `s`, `z`, `r` or `a`. -/
def code : Kind → UInt8
  | .string => 115
  | .cstring => 122
  | .struct => 114
  | .array => 97

/-- The kind that a byte stands for. -/
def ofCode? (code : UInt8) : Option Kind :=
  if code = 115 then some .string
  else if code = 122 then some .cstring
  else if code = 114 then some .struct
  else if code = 97 then some .array
  else none

/-- Every kind is read back from its byte. -/
@[simp]
theorem ofCode?_code (kind : Kind) : ofCode? kind.code = some kind := by
  cases kind <;> decide

end Kind

end Message

/-!
## Lengths

A length is written as four bytes, the most significant first.  A length of 2³² or more has no
such form; writing keeps its remainder modulo 2³².

The main statement says that a length below 2³² is read back with nothing of what follows it lost.
-/

namespace Message.Length

/-- The first length that four bytes cannot hold, 2³². -/
def bound : Nat := 4294967296

/-- The four bytes of a length. -/
def encode (length : Nat) : List UInt8 :=
  [UInt8.ofNat (length / 16777216), UInt8.ofNat (length / 65536), UInt8.ofNat (length / 256),
    UInt8.ofNat length]

/-- The length at the start of some bytes, and the bytes after it. -/
def read? : List UInt8 → Option (Nat × List UInt8)
  | first :: second :: third :: fourth :: rest =>
    some (first.toNat * 16777216 + second.toNat * 65536 + third.toNat * 256 + fourth.toNat, rest)
  | _ => none

/-- A length that four bytes can hold is read back, and what follows it is left. -/
theorem read?_encode {length : Nat} (small : length < bound) (rest : List UInt8) :
    read? (encode length ++ rest) = some (length, rest) := by
  simp only [bound] at small
  simp only [encode, List.cons_append, List.nil_append, read?, UInt8.toNat_ofNat',
    Option.some.injEq, Prod.mk.injEq, and_true]
  omega

/-- Reading a length takes four bytes. -/
theorem length_of_read? {bytes rest : List UInt8} {length : Nat}
    (accepted : read? bytes = some (length, rest)) : bytes.length = rest.length + 4 := by
  match bytes, accepted with
  | first :: second :: third :: fourth :: tail, accepted =>
    simp only [read?, Option.some.injEq, Prod.mk.injEq] at accepted
    simp [accepted.2]

end Message.Length

/-!
## Faults

A fault says why an element could not be read or was not written.  `Fault.message` gives each one
its wording.
-/

namespace Message

/-- Why an element could not be read or was not written. -/
inductive Fault
  /-- No bytes are left. -/
  | endOfContainer
  /-- The first byte stands for no kind. -/
  | unknownKind
  /-- The second byte of an array stands for no kind. -/
  | unknownItemKind
  /-- An element of an array is not of the declared kind. -/
  | foreignItem
  /-- No NUL ends a text that a NUL should end. -/
  | unterminated
  /-- The bytes end inside the header of an element. -/
  | cutShort
  /-- The announced length exceeds the bytes that are left. -/
  | overrun
  /-- A text holds no elements. -/
  | notContainer
  /-- A text of one kind was asked for where another element stands. -/
  | otherKind
  /-- The bytes of a text are not UTF-8. -/
  | notUtf8
  /-- A text to be written holds a NUL. -/
  | holdsNul
  /-- An array to be written declares no kind for its elements. -/
  | noItemKind
  /-- A length to be written does not fit in four bytes. -/
  | tooLong
deriving Repr, DecidableEq, Inhabited

/-- The wording of a fault. -/
def Fault.message : Fault → String
  | .endOfContainer => "end of container"
  | .unknownKind => "unknown type code"
  | .unknownItemKind => "unknown array element type"
  | .foreignItem => "array element of unexpected type"
  | .unterminated => "unterminated C-string"
  | .cutShort => "failed to fill whole buffer"
  | .overrun => "element overruns its container"
  | .notContainer => "element is not a container"
  | .otherKind => "unexpected element type"
  | .notUtf8 => "string is not valid UTF-8"
  | .holdsNul => "string contains a NUL byte"
  | .noItemKind => "invalid array element type"
  | .tooLong => "cannot cast `usize` to `u32`"

/-- The wording tells every fault from all others. -/
theorem Fault.message_injective : Function.Injective Fault.message := by
  intro first second same
  cases first <;> cases second <;> first | rfl | exact absurd same (by decide)

end Message

end Mounts

import Mounts.Proofs.Message.CleanWalk
import Mounts.Proofs.Message.Reaching
import Mounts.Proofs.Spec.Wire

/-!
# Messages that were cut short

A message may arrive without its end.  Whatever the bytes are, and wherever they were cut, an
element is found in what is left exactly if it was found in the whole and ends before the cut
(`Frame.read_take_eq_ok_iff`).  So a walk through the beginning of a message meets the elements that
a walk through the message meets first, each with all that it holds, and it stops at the element
that was cut (`Cursor.walk_cut`).

What appending adds to a message is an element, or a beginning of one where a length could not be
written (`Draft.beginsElement_write`).  No element is found in a part of it, so a reader that asks
for a spec where a part of one is left is told so and stays where it is.  Only from all that was
written for a spec does it get the spec (`cut_message_read_safely`).
-/

namespace Mounts.Message

set_option autoImplicit false

variable {bytes : List UInt8}

/-! ## Frames in bytes that were cut -/

namespace Frame

variable {frame : Frame} {element : List UInt8} {declared : Option Kind}

/-- **An element is found before a cut exactly if it is found without the cut and ends before
it.** -/
theorem read_take_eq_ok_iff {limit : Nat} : read declared (bytes.take limit) = .ok frame ↔
    read declared bytes = .ok frame ∧ frame.size ≤ limit := by
  rw [read_eq_ok_iff, read_eq_ok_iff, and_assoc]
  refine and_congr_right fun _ => ?_
  constructor
  · rintro ⟨element, rest, spells, left⟩
    refine ⟨⟨element, rest ++ bytes.drop limit, spells, ?_⟩, ?_⟩
    · rw [← List.append_assoc, ← left, List.take_append_drop]
    · have within := List.length_take_le limit bytes
      rw [left, List.length_append, spells.length] at within
      omega
  · rintro ⟨⟨element, rest, spells, rfl⟩, ends⟩
    rw [← spells.length] at ends
    refine ⟨element, rest.take (limit - element.length), spells, ?_⟩
    rw [List.take_append, List.take_of_length_le ends]

/-- An element that stands alone is found whole or not at all. -/
theorem Spells.size_of_read (spells : frame.Spells element) {other : Frame}
    (found : read declared element = .ok other) : other.size = element.length := by
  have alone : read none element = .ok frame :=
    read_eq_ok_iff.mpr ⟨rfl, element, [], spells, (List.append_nil _).symm⟩
  obtain ⟨_, parts⟩ := read_eq_ok_iff.mp found
  have again : read none element = .ok other := read_eq_ok_iff.mpr ⟨rfl, parts⟩
  rw [alone] at again
  cases again
  exact spells.length.symm

end Frame

/-! ## Walks through messages that were cut -/

namespace Cursor

variable {cursor : Cursor} {frame : Frame}

/-- The same place when only some bytes of the container are left. -/
def cut (cursor : Cursor) (limit : Nat) : Cursor :=
  { cursor with data := cursor.data.take limit }

theorem frame_cut_eq_ok_iff {limit : Nat} : (cursor.cut limit).frame = .ok frame ↔
    cursor.frame = .ok frame ∧ cursor.position + frame.size ≤ limit := by
  have left : (cursor.cut limit).frame =
      Frame.read cursor.declared (cursor.rest.take (limit - cursor.position)) :=
    congrArg (Frame.read cursor.declared) List.drop_take
  rw [left, Frame.read_take_eq_ok_iff]
  refine and_congr_right fun found => ?_
  have bounds := bounds_of_frame found
  omega

/-- **A walk that a cut ends meets what the whole walk meets first.**  It stops at the place from
which the whole walk meets the rest, and the element there, if there is one, was cut. -/
theorem walk_cut (cursor : Cursor) (limit : Nat) :
    ∃ place : Cursor, place = { cursor with position := (cursor.cut limit).walk.stop.position } ∧
      cursor.walk.visits = (cursor.cut limit).walk.visits ++ place.walk.visits ∧
      ∀ frame, place.frame = .ok frame → limit < place.position + frame.size := by
  cases found : (cursor.cut limit).frame with
  | error fault =>
    rw [walk_of_error found]
    refine ⟨cursor, rfl, rfl, fun frame whole => Nat.lt_of_not_le fun ends => ?_⟩
    rw [frame_cut_eq_ok_iff.mpr ⟨whole, ends⟩] at found
    cases found
  | ok frame =>
    -- The element here ends before the cut, so both walks meet it and go on behind it.
    obtain ⟨whole, _⟩ := frame_cut_eq_ok_iff.mp found
    obtain ⟨place, stopped, further, beyond⟩ := walk_cut (cursor.past frame) limit
    rw [walk_of_ok found, walk_of_ok whole]
    exact ⟨place, stopped, congrArg (cursor.visit frame :: ·) further, beyond⟩
termination_by cursor.remaining
decreasing_by exact remaining_past whole

end Cursor

/-! ## Elements that were cut -/

/-- Some bytes are the beginning of an element, or all of it. -/
def BeginsElement (bytes : List UInt8) : Prop :=
  ∃ (frame : Frame) (element : List UInt8), frame.Spells element ∧ bytes <+: element

theorem BeginsElement.nil : BeginsElement [] :=
  ⟨_, _, .cstring List.not_mem_nil, List.nil_prefix⟩

theorem Frame.Spells.begins {frame : Frame} {element : List UInt8}
    (spells : frame.Spells element) : BeginsElement element :=
  ⟨frame, element, spells, List.prefix_rfl⟩

/-- **No element is found in a part of one.** -/
theorem BeginsElement.unreadable (begins : BeginsElement bytes) {limit : Nat}
    (short : limit < bytes.length) (declared : Option Kind) :
    ∃ fault, Frame.read declared (bytes.take limit) = .error fault := by
  obtain ⟨frame, element, spells, rest, rfl⟩ := begins
  cases found : Frame.read declared (bytes.take limit) with
  | error fault => exact ⟨fault, rfl⟩
  | ok other =>
    have cut : (bytes ++ rest).take limit = bytes.take limit :=
      List.take_append_of_le_length (Nat.le_of_lt short)
    rw [← cut, Frame.read_take_eq_ok_iff] at found
    have whole := spells.size_of_read found.1
    rw [List.length_append] at whole
    omega

theorem beginsElement_writeCounted {head : List UInt8}
    (spelled : ∀ body : List UInt8, body.length < Length.bound →
      ∃ frame : Frame, frame.Spells (head ++ Value.counted body)) (body : List UInt8) :
    BeginsElement (writeCounted head body []).2 := by
  rw [writeCounted]
  split
  · next short =>
    obtain ⟨frame, spells⟩ := spelled body short
    exact spells.begins
  · obtain ⟨frame, spells⟩ := spelled [] (by decide)
    exact ⟨frame, _, spells, List.prefix_append head _⟩

/-- **What appending adds is an element or the beginning of one.** -/
theorem Draft.beginsElement_write : ∀ draft : Draft, BeginsElement (draft.write []).2
  | .string text => by
    rw [write]
    split
    · exact .nil
    · exact beginsElement_writeCounted (fun _ short => ⟨_, .string short⟩) _
  | .cstring text => by
    rw [write]
    split
    · exact .nil
    · next clean =>
      have zero_free : (0 : UInt8) ∉ Text.utf8 text := mt Text.zero_mem_utf8.mp clean
      exact (Frame.Spells.cstring zero_free).begins
  | .struct fields => by
    rw [write]
    split
    · exact .nil
    · exact beginsElement_writeCounted (fun _ short => ⟨_, .struct short⟩) _
  | .array none items => by
    rw [write]
    exact .nil
  | .array (some item) items => by
    rw [write]
    split
    · exact .nil
    · split
      · exact beginsElement_writeCounted (fun _ short => ⟨_, .array item short⟩) _
      · exact .nil
  | .attempt part => by
    rw [write]
    exact beginsElement_write part

/-- Nothing is found where an element was appended and only a part of it is left. -/
theorem Writer.unreadable_cut (writer : Writer) (draft : Draft) {limit : Nat}
    (behind : writer.bytes.length ≤ limit) (short : limit < (writer.extend draft).2.bytes.length)
    (declared : Option Kind) : ∃ fault, Cursor.frame
      ⟨(writer.extend draft).2.bytes.take limit, writer.bytes.length, declared⟩ = .error fault := by
  rw [bytes_extend] at short ⊢
  rw [List.length_append] at short
  have left : Cursor.rest
      ⟨(writer.bytes ++ (draft.write []).2).take limit, writer.bytes.length, declared⟩ =
        (draft.write []).2.take (limit - writer.bytes.length) := by
    rw [Cursor.rest, List.drop_take, List.drop_left]
  rw [Cursor.frame, left]
  exact draft.beginsElement_write.unreadable (by omega) declared

/-- No spec is read where no element is found. -/
theorem apply_spec_of_unreadable {reader : Reader} {fault : Fault}
    (unreadable : reader.current.frame = .error fault) :
    reader.apply .spec = (.failed (.malformed .whole), reader) := by
  have missing : reader.current.frameOf? .struct = none := by
    rw [Cursor.frameOf?, unreadable]
    rfl
  have refused : Spec.read reader.current = .error (.malformed .whole) := by
    rw [Spec.read, missing]
  exact Reader.apply_spec_of_error refused

/-- From all that was written for a spec without a fault the spec is read. -/
theorem apply_spec_of_written {spec : Spec} (valid : spec.Valid) (path : Option String)
    (faultless : (spec.writeTo path .empty).1 = none) :
    (Reader.ofBytes (spec.writeTo path .empty).2.bytes).apply .spec =
      (.spec (spec.announced path), ⟨⟨(spec.writeTo path .empty).2.bytes,
        (spec.writeTo path .empty).2.bytes.length, none⟩, []⟩) := by
  have fits := (Spec.writeTo_faultless_iff valid path .empty).mp faultless
  have written : (spec.writeTo path .empty).2.bytes = spec.toWire path := by
    rw [Spec.writeTo_of_valid valid path fits]
    rfl
  have read : Spec.read ⟨spec.toWire path ++ [], 0, none⟩ = .ok (spec.announced path,
      ⟨spec.toWire path ++ [], (spec.toWire path).length, none⟩) :=
    Spec.read_written valid fits rfl [] []
  rw [List.append_nil] at read
  rw [written]
  exact Reader.apply_spec_of_read read

/-- **A message that was cut short is read as far as it goes, and no further.** -/
theorem cut_message_read_safely :
    (∀ (data : List UInt8) (limit : Nat),
      (Cursor.ofBytes (data.take limit)).walk.visits <+: (Cursor.ofBytes data).walk.visits ∧
      ∃ place : Cursor,
        place = ⟨data, (Cursor.ofBytes (data.take limit)).walk.stop.position, none⟩ ∧
        (Cursor.ofBytes data).walk.visits =
          (Cursor.ofBytes (data.take limit)).walk.visits ++ place.walk.visits ∧
        ∀ frame, place.frame = .ok frame → limit < place.position + frame.size) ∧
    (∀ (writer : Writer) (draft : Draft) (limit : Nat), writer.bytes.length ≤ limit →
      limit < (writer.extend draft).2.bytes.length → ∀ declared, ∃ fault,
        Cursor.frame ⟨(writer.extend draft).2.bytes.take limit, writer.bytes.length, declared⟩ =
          .error fault) ∧
    (∀ (spec : Spec) (path : Option String) (limit : Nat),
      limit < (spec.writeTo path .empty).2.bytes.length →
        ∃ reader part, reader = Reader.ofBytes ((spec.writeTo path .empty).2.bytes.take limit) ∧
          reader.apply .spec = (.failed (.malformed part), reader) ∧
          part.expectation = "expected a mount spec struct") ∧
    (∀ (spec : Spec) (path : Option String), spec.Built → (spec.writeTo path .empty).1 = none →
      (Reader.ofBytes (spec.writeTo path .empty).2.bytes).apply .spec =
        (.spec (spec.announced path), ⟨⟨(spec.writeTo path .empty).2.bytes,
          (spec.writeTo path .empty).2.bytes.length, none⟩, []⟩)) := by
  refine ⟨?walks, ?elements, ?specs, ?whole⟩
  case walks =>
    intro data limit
    obtain ⟨place, stopped, parts, beyond⟩ := Cursor.walk_cut (Cursor.ofBytes data) limit
    refine ⟨?_, place, stopped, parts, beyond⟩
    rw [parts]
    exact List.prefix_append _ _
  case elements =>
    intro writer draft limit behind short declared
    exact writer.unreadable_cut draft behind short declared
  case specs =>
    intro spec path limit short
    obtain ⟨fault, unreadable⟩ := Writer.empty.unreadable_cut (.ofValue (spec.toValue path))
      (Nat.zero_le limit) short none
    exact ⟨_, .whole, rfl, apply_spec_of_unreadable unreadable, rfl⟩
  case whole =>
    intro spec path built faultless
    exact apply_spec_of_written built.valid path faultless

/-- The guest spec is read from its 53 bytes, and not from the first 52 of them. -/
theorem cut_message_read_safely_guest :
    (∃ fault, Cursor.frame ⟨(Spec.guest.toWire none).take 52, 0, none⟩ = .error fault) ∧
    (∃ reader part, reader = Reader.ofBytes ((Spec.guest.toWire none).take 52) ∧
      reader.apply .spec = (.failed (.malformed part), reader) ∧
      part.expectation = "expected a mount spec struct") ∧
    (Reader.ofBytes (Spec.guest.toWire none)).apply .spec =
      (.spec Spec.guest, ⟨⟨Spec.guest.toWire none, 53, none⟩, []⟩) := by
  have written : (Spec.guest.writeTo none .empty).2.bytes = Spec.guest.toWire none := by
    decide +kernel
  have behind : (Spec.guest.toWire none).length = 53 := by decide +kernel
  have short : 52 < (Spec.guest.writeTo none .empty).2.bytes.length := by
    rw [written, behind]
    exact Nat.lt_succ_self 52
  have faultless : (Spec.guest.writeTo none .empty).1 = none := by decide +kernel
  obtain ⟨_, elements, specs, wholes⟩ := cut_message_read_safely
  have unreadable := elements .empty (.ofValue (Spec.guest.toValue none)) 52 (Nat.zero_le _) short
    none
  have refused := specs Spec.guest none 52 short
  have whole := wholes Spec.guest none Spec.guest_built faultless
  rw [written] at refused whole
  rw [behind] at whole
  exact ⟨written ▸ unreadable, refused, whole⟩

end Mounts.Message

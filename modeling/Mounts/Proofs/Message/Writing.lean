import Mounts.Message.Cursor
import Mounts.Message.Writer
import Mounts.Proofs.Except
import Mounts.Proofs.Text.Bytes

/-!
# Elements as they are written

What is written for a value is found again at its place, and appending a draft adds nothing but such
values to a message.
-/

namespace Mounts.Message

set_option autoImplicit false

/-!
## Values stand out from what follows them

The bytes of a value tell where it ends, whatever bytes come after it: texts with a length in front
and containers count their bytes, and a text without NUL ends at the zero behind it.  So a cursor at
the first byte of a value finds exactly that value's frame.

A value is proper when no text in it holds a NUL and every array keeps to its declared kind; these
are the values that may be written.  It fits when its body is shorter than what four bytes can
count.  Whatever lies inside a value that fits is shorter still, so it fits as well.
-/

namespace Value

/-! ### Proper values -/

mutual

/-- No text holds a NUL, and the items of arrays are of their declared kinds. -/
def Proper : Value → Prop
  | .string text => Text.hasNul text = false
  | .cstring text => Text.hasNul text = false
  | .struct fields => ProperAll fields
  | .array item items => ProperAll items ∧ ∀ value ∈ items, value.kind = item

/-- All of some values are proper. -/
def ProperAll : List Value → Prop
  | [] => True
  | value :: values => value.Proper ∧ ProperAll values

end

theorem properAll_iff {values : List Value} :
    ProperAll values ↔ ∀ value ∈ values, value.Proper := by
  induction values with
  | nil => simp only [ProperAll, List.not_mem_nil, false_implies, implies_true]
  | cons value values ih => rw [ProperAll, List.forall_mem_cons, ih]

/-! ### The parts of the written form -/

/-- The declared kind of a value's items, if it is an array. -/
def item? : Value → Option Kind
  | .array item _ => some item
  | _ => none

/-- The bytes of the text or of the values that a value holds. -/
def body : Value → List UInt8
  | .string text => Text.utf8 text
  | .cstring text => Text.utf8 text
  | .struct fields => encodeAll fields
  | .array _ items => encodeAll items

/-- What a cursor at the first byte of a value should find. -/
def frame (value : Value) : Frame :=
  ⟨value.kind, value.item?, value.body, value.encode.length⟩

/-- The body of a value is short enough for its length to be written. -/
def Fits (value : Value) : Prop :=
  value.body.length < Length.bound

/-- The body of a value is short enough, if its length is written at all. -/
def Countable (value : Value) : Prop :=
  value.kind ≠ .cstring → value.Fits

@[simp]
theorem length_counted (bytes : List UInt8) : (counted bytes).length = bytes.length + 4 := by
  rw [counted, List.length_append, Nat.add_comm]
  rfl

/-- The body of a value is part of its bytes. -/
theorem length_body_lt (value : Value) : value.body.length < value.encode.length := by
  cases value with
  | string text | struct fields | array item items =>
    rw [encode, body]
    simp only [List.length_cons, length_counted]
    omega
  | cstring text =>
    rw [encode, body]
    simp only [List.length_cons, List.length_append]
    omega

theorem length_encode_le_of_mem {value : Value} {values : List Value} (inside : value ∈ values) :
    value.encode.length ≤ (encodeAll values).length := by
  induction values with
  | nil => cases inside
  | cons first others ih =>
    rw [encodeAll, List.length_append]
    rcases List.mem_cons.mp inside with rfl | later
    · exact Nat.le_add_right _ _
    · exact Nat.le_trans (ih later) (Nat.le_add_left _ _)

/-- Values among bytes that can be counted fit. -/
theorem fits_of_mem {value : Value} {values : List Value} (inside : value ∈ values)
    (short : (encodeAll values).length < Length.bound) : value.Fits := by
  have part := length_encode_le_of_mem inside
  have within := length_body_lt value
  rw [Fits]
  omega

end Value

/-! ### Finding frames -/

/-- What is counted is found behind its length, whatever follows. -/
theorem Frame.counted_append (kind : Kind) (item : Option Kind) (header : Nat)
    {body : List UInt8} (short : body.length < Length.bound) (rest : List UInt8) :
    Frame.counted kind item header (Value.counted body ++ rest) =
      .ok ⟨kind, item, body, header + 4 + body.length⟩ := by
  rw [Frame.counted, Value.counted, List.append_assoc, Length.read?_encode short]
  dsimp only
  rw [if_pos (by simp only [List.length_append]; omega), List.take_left]

/-- A text without zeros is found before the zero that ends it, whatever follows. -/
theorem Frame.terminated_append {body : List UInt8} (clean : (0 : UInt8) ∉ body)
    (rest : List UInt8) :
    Frame.terminated (body ++ 0 :: rest) = .ok ⟨.cstring, none, body, body.length + 2⟩ := by
  have found : (body ++ 0 :: rest).takeWhile (· != 0) = body := by
    rw [List.takeWhile_append_of_pos]
    · simp
    · intro byte inBody
      exact bne_iff_ne.mpr fun zero => clean (zero ▸ inBody)
  simp only [Frame.terminated, found]
  rw [if_pos]
  simp only [List.length_append, List.length_cons]
  omega

/-- The first byte decides how the others are read. -/
theorem Frame.read_code {declared : Option Kind} {kind : Kind}
    (kept : declared.all (· == kind) = true) (bytes : List UInt8) :
    Frame.read declared (kind.code :: bytes) = Frame.afterCode kind bytes := by
  rw [Frame.read, Kind.ofCode?_code]
  dsimp only
  rw [if_pos kept]

theorem Frame.afterCode_array (item : Kind) (bytes : List UInt8) :
    Frame.afterCode .array (item.code :: bytes) = Frame.counted .array (some item) 2 bytes := by
  rw [Frame.afterCode, Kind.ofCode?_code]

/-- The body of a counted text or a struct is found behind its code and its length, whatever
follows. -/
theorem Frame.read_plain {declared : Option Kind} {kind : Kind}
    (plain : kind = .string ∨ kind = .struct) (kept : declared.all (· == kind) = true)
    {body : List UInt8} (short : body.length < Length.bound) (rest : List UInt8) :
    Frame.read declared ([kind.code] ++ Value.counted body ++ rest) =
      .ok ⟨kind, none, body, body.length + 5⟩ := by
  have behind : Frame.afterCode kind (Value.counted body ++ rest) =
      Frame.counted kind none 1 (Value.counted body ++ rest) := by
    rcases plain with rfl | rfl
    · rfl
    · rfl
  rw [List.append_assoc, List.singleton_append, Frame.read_code kept, behind,
    Frame.counted_append _ _ _ short, Nat.add_comm (1 + 4)]

/-- A text is found before the zero that ends it, whatever follows. -/
theorem Frame.read_cstring {declared : Option Kind} (kept : declared.all (· == .cstring) = true)
    {body : List UInt8} (clean : (0 : UInt8) ∉ body) (rest : List UInt8) :
    Frame.read declared (Kind.cstring.code :: (body ++ [0]) ++ rest) =
      .ok ⟨.cstring, none, body, body.length + 2⟩ := by
  rw [List.cons_append, List.append_assoc, Frame.read_code kept]
  exact Frame.terminated_append clean rest

/-- The body of an array is found behind its code, that of its items and its length, whatever
follows. -/
theorem Frame.read_array {declared : Option Kind} (kept : declared.all (· == .array) = true)
    (item : Kind) {body : List UInt8} (short : body.length < Length.bound) (rest : List UInt8) :
    Frame.read declared ([Kind.array.code, item.code] ++ Value.counted body ++ rest) =
      .ok ⟨.array, some item, body, body.length + 6⟩ := by
  rw [List.append_assoc, List.cons_append, List.singleton_append, Frame.read_code kept,
    Frame.afterCode_array, Frame.counted_append _ _ _ short, Nat.add_comm (2 + 4)]

/-- **The frame of a value is found at its first byte, whatever follows.** -/
theorem Frame.read_encode {declared : Option Kind} {value : Value} (proper : value.Proper)
    (countable : value.Countable) (kept : declared.all (· == value.kind) = true)
    (rest : List UInt8) :
    Frame.read declared (value.encode ++ rest) = .ok value.frame := by
  cases value with
  | string text =>
    have short : (Text.utf8 text).length < Length.bound := countable (by simp [Value.kind])
    rw [Value.frame, Value.encode, List.length_cons, Value.length_counted]
    exact Frame.read_plain (.inl rfl) kept short rest
  | cstring text =>
    have clean : (0 : UInt8) ∉ Text.utf8 text := by
      rw [Text.zero_mem_utf8, (proper : Text.hasNul text = false)]
      exact Bool.false_ne_true
    rw [Value.frame, Value.encode, List.length_cons, List.length_append]
    exact Frame.read_cstring kept clean rest
  | struct fields =>
    have short : (Value.encodeAll fields).length < Length.bound := countable (by simp [Value.kind])
    rw [Value.frame, Value.encode, List.length_cons, Value.length_counted]
    exact Frame.read_plain (.inr rfl) kept short rest
  | array item items =>
    have short : (Value.encodeAll items).length < Length.bound := countable (by simp [Value.kind])
    rw [Value.frame, Value.encode, List.length_cons, List.length_cons, Value.length_counted]
    exact Frame.read_array kept item short rest

/-! ### Cursors at values -/

namespace Cursor

/-- A cursor has a value and then some further bytes ahead of it. -/
structure At (cursor : Cursor) (value : Value) (further : List UInt8) : Prop where
  ahead : cursor.rest = value.encode ++ further
  proper : value.Proper
  fits : value.Fits
  kept : cursor.declared.all (· == value.kind) = true

variable {cursor : Cursor} {value : Value} {further : List UInt8}

theorem frame_at (here : cursor.At value further) : cursor.frame = .ok value.frame := by
  rw [frame, here.ahead]
  exact Frame.read_encode here.proper (fun _ => here.fits) here.kept further

theorem frameOf?_at (here : cursor.At value further) :
    cursor.frameOf? value.kind = some value.frame := by
  rw [frameOf?, frame_at here]
  simp only [Except.toOption, Option.filter, Value.frame, beq_self_eq_true, if_true]

/-- Moving past the bytes of a value leaves what comes after them. -/
theorem rest_past_of_ahead (ahead : cursor.rest = value.encode ++ further) :
    (cursor.past value.frame).rest = further := by
  have split : cursor.rest.drop value.encode.length = further := by
    rw [ahead, List.drop_left]
  rw [← split, rest, rest, List.drop_drop]
  rfl

theorem rest_past (here : cursor.At value further) : (cursor.past value.frame).rest = further :=
  rest_past_of_ahead here.ahead

theorem readText_string {text : String} (here : cursor.At (.string text) further) :
    cursor.readText .string = .ok (text, cursor.past (Value.string text).frame) := by
  rw [readText, frame_at here]
  simp only [Value.frame, Value.kind, Value.body, Frame.text, Text.ofUtf8?_utf8, Except.ok_bind,
    Except.pure_eq_ok, if_true]

theorem readText_cstring {text : String} (here : cursor.At (.cstring text) further) :
    cursor.readText .cstring = .ok (text, cursor.past (Value.cstring text).frame) := by
  rw [readText, frame_at here]
  simp only [Value.frame, Value.kind, Value.body, Frame.text, Text.ofUtf8?_utf8, Except.ok_bind,
    Except.pure_eq_ok, if_true]

end Cursor

/-!
## What appending adds

Appending leaves alone what a message holds already, and what it adds does not depend on that
(`Draft.write_eq`), whether it meets a fault or not.  A container that was appended can be entered,
and inside are the elements that were asked for (`Cursor.enter_container`).

Arrays take the longest way: their body is read again before it is copied.  That tells whether all
items are of the declared kind, since the frames of values are found as they were written
(`Cursor.holdsOnly_eq`).
-/

/-! ### Adding to what is there -/

theorem writeCounted_eq (head body bytes : List UInt8) :
    writeCounted head body bytes =
      ((writeCounted head body []).1, bytes ++ (writeCounted head body []).2) := by
  rw [writeCounted, writeCounted]
  split
  · rfl
  · rfl

theorem writeCounted_of_short (head : List UInt8) {body : List UInt8}
    (short : body.length < Length.bound) (bytes : List UInt8) :
    writeCounted head body bytes = (none, bytes ++ (head ++ Value.counted body)) :=
  if_pos short

/-- What is appended without a fault has a body that could be counted. -/
theorem short_of_writeCounted {head body bytes longer : List UInt8}
    (written : writeCounted head body bytes = (none, longer)) :
    body.length < Length.bound ∧ longer = bytes ++ (head ++ Value.counted body) := by
  rw [writeCounted] at written
  split at written
  · next short =>
    cases written
    exact ⟨short, rfl⟩
  · cases written

namespace Draft

mutual

/-- **Appending leaves what is there alone, and what it adds does not depend on it.** -/
theorem write_eq : ∀ (draft : Draft) (bytes : List UInt8),
    draft.write bytes = ((draft.write []).1, bytes ++ (draft.write []).2)
  | .string text, bytes => by
    rw [write, write]
    split
    · rw [List.append_nil]
    · exact writeCounted_eq _ _ bytes
  | .cstring text, bytes => by
    rw [write, write]
    split
    · rw [List.append_nil]
    · rfl
  | .struct fields, bytes => by
    rw [write, write]
    split
    · rw [List.append_nil]
    · exact writeCounted_eq _ _ bytes
  | .array none items, bytes => by rw [write, write, List.append_nil]
  | .array (some item) items, bytes => by
    rw [write, write]
    split
    · rw [List.append_nil]
    split
    · exact writeCounted_eq _ _ bytes
    · rw [List.append_nil]
  | .attempt part, bytes => by rw [write, write, write_eq part bytes]

theorem writeAll_eq : ∀ (drafts : List Draft) (bytes : List UInt8),
    writeAll drafts bytes = ((writeAll drafts []).1, bytes ++ (writeAll drafts []).2)
  | [], bytes => by rw [writeAll, writeAll, List.append_nil]
  | draft :: drafts, bytes => by
    rw [writeAll, writeAll, write_eq draft bytes]
    cases first : draft.write [] with
    | mk fault added =>
      cases fault with
      | some fault => rfl
      | none =>
        dsimp only
        rw [writeAll_eq drafts (bytes ++ added), writeAll_eq drafts added, List.append_assoc]

end

end Draft

namespace Writer

theorem write_of_extend {writer written : Writer} {draft : Draft} {fault : Option Fault}
    (done : writer.extend draft = (fault, written)) :
    draft.write writer.bytes = (fault, written.bytes) := by
  cases done
  rfl

/-- A message never loses bytes that it holds. -/
theorem bytes_extend (writer : Writer) (draft : Draft) :
    (writer.extend draft).2.bytes = writer.bytes ++ (draft.write []).2 := by
  rw [extend, Draft.write_eq draft writer.bytes]

theorem bytes_extendAll (writer : Writer) (drafts : List Draft) :
    ∃ added, (writer.extendAll drafts).bytes = writer.bytes ++ added := by
  induction drafts generalizing writer with
  | nil => exact ⟨[], (List.append_nil _).symm⟩
  | cons draft drafts ih =>
    obtain ⟨added, longer⟩ := ih (writer.extend draft).2
    refine ⟨(draft.write []).2 ++ added, ?_⟩
    rw [← List.append_assoc, ← bytes_extend]
    exact longer

/-- What is appended without a fault, all at once or one after another, is the same. -/
theorem extendAll_of_writeAll {drafts : List Draft} {writer : Writer} {longer : List UInt8}
    (written : Draft.writeAll drafts writer.bytes = (none, longer)) :
    writer.extendAll drafts = ⟨longer⟩ := by
  induction drafts generalizing writer with
  | nil =>
    rw [Draft.writeAll] at written
    cases written
    rfl
  | cons draft drafts ih =>
    rw [Draft.writeAll] at written
    split at written
    · cases written
    · next added first =>
      rw [extendAll, List.foldl_cons, extend, first]
      exact ih written

end Writer

/-! ### Entering what was appended -/

/-- A container of the given elements: a struct, or an array if a kind is declared for them. -/
def Draft.container (declared : Option Kind) (elements : List Draft) : Draft :=
  match declared with
  | none => .struct elements
  | some item => .array (some item) elements

/-- The kind of a container, by the kind that it declares for its elements. -/
def Kind.ofContainer (declared : Option Kind) : Kind :=
  if declared.isSome then .array else .struct

/-- What a container starts with in front of the length of its body. -/
def containerHead : Option Kind → List UInt8
  | none => [Kind.struct.code]
  | some item => [Kind.array.code, item.code]

theorem Frame.read_container {declared around : Option Kind} {body : List UInt8}
    (kept : around.all (· == Kind.ofContainer declared) = true) (short : body.length < Length.bound)
    (rest : List UInt8) :
    ∃ size, Frame.read around (containerHead declared ++ Value.counted body ++ rest) =
      .ok ⟨Kind.ofContainer declared, declared, body, size⟩ := by
  cases declared with
  | none => exact ⟨_, Frame.read_plain (.inr rfl) kept short rest⟩
  | some item => exact ⟨_, Frame.read_array kept item short rest⟩

/-- An appended container is written as a head and a body of the elements in it. -/
theorem Draft.write_container {declared : Option Kind} {elements : List Draft}
    {bytes longer : List UInt8}
    (written : (Draft.container declared elements).write bytes = (none, longer)) :
    (Writer.empty.extendAll elements).bytes.length < Length.bound ∧
      longer = bytes ++
        (containerHead declared ++ Value.counted (Writer.empty.extendAll elements).bytes) := by
  have counted_of {head body : List UInt8} (all : writeAll elements [] = (none, body))
      (whole : writeCounted head body bytes = (none, longer)) :
      (Writer.empty.extendAll elements).bytes.length < Length.bound ∧
        longer = bytes ++ (head ++ Value.counted (Writer.empty.extendAll elements).bytes) := by
    have appended : Writer.empty.extendAll elements = ⟨body⟩ := Writer.extendAll_of_writeAll all
    rw [appended]
    exact short_of_writeCounted whole
  cases declared with
  | none =>
    rw [container, write] at written
    split at written
    · cases written
    · next body all => exact counted_of all written
  | some item =>
    rw [container, write] at written
    split at written
    · cases written
    · next body all =>
      split at written
      · exact counted_of all written
      · cases written

/-- **Entering an appended container leads to the start of the elements in it.** -/
theorem Cursor.enter_container {outer longer : Writer} {declared around : Option Kind}
    {elements : List Draft}
    (written : outer.extend (.container declared elements) = (none, longer)) (later : List Draft)
    (kept : around.all (· == Kind.ofContainer declared) = true) :
    Cursor.enter ⟨(longer.extendAll later).bytes, outer.bytes.length, around⟩ =
      .ok ⟨(Writer.empty.extendAll elements).bytes, 0, declared⟩ := by
  obtain ⟨added, further⟩ := longer.bytes_extendAll later
  obtain ⟨short, whole⟩ := Draft.write_container (Writer.write_of_extend written)
  have ahead : rest ⟨(longer.extendAll later).bytes, outer.bytes.length, around⟩ =
      containerHead declared ++ Value.counted (Writer.empty.extendAll elements).bytes ++ added := by
    rw [rest, further, whole, List.append_assoc, List.drop_left]
  obtain ⟨size, found⟩ := Frame.read_container kept short added
  rw [enter, frame, ahead, found]
  cases declared with
  | none => rfl
  | some item => rfl

/-! ### Reading the body of an array again -/

/-- Reading again what was written for the items of an array tells whether they are of its kind. -/
theorem Cursor.holdsOnly_eq {item : Kind} {values : List Value}
    (proper : ∀ value ∈ values, value.Proper)
    (short : (Value.encodeAll values).length < Length.bound) {cursor : Cursor}
    (free : cursor.declared = none) (ahead : cursor.rest = Value.encodeAll values) :
    cursor.holdsOnly item = values.all (·.kind == item) := by
  induction values generalizing cursor with
  | nil =>
    have ended : cursor.frame = .error .endOfContainer := by
      rw [frame, ahead]
      rfl
    rw [holdsOnly]
    split
    · next found =>
      rw [ended] at found
      cases found
    · rw [atEnd, List.all_nil, decide_eq_true_iff]
      exact List.drop_eq_nil_iff.mp ahead
  | cons value values ih =>
    rw [List.forall_mem_cons] at proper
    have here : cursor.At value (Value.encodeAll values) := {
      ahead := ahead
      proper := proper.1
      fits := Value.fits_of_mem List.mem_cons_self short
      kept := by rw [free]; rfl }
    rw [Value.encodeAll, List.length_append] at short
    have further : (cursor.past value.frame).holdsOnly item = values.all (·.kind == item) :=
      ih proper.2 (by omega) free (rest_past here)
    rw [holdsOnly]
    split
    · next found =>
      rw [frame_at here] at found
      cases found
      rw [further]
      rfl
    · next found =>
      rw [frame_at here] at found
      cases found

end Mounts.Message

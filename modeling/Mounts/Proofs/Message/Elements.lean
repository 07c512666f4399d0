import Mounts.Proofs.Except
import Mounts.Proofs.Message.Writing

/-!
# Elements in bytes of any origin

`Frame.Spells` lists, kind by kind, the bytes that make up an element, with no condition on what
lies in its body.  A frame is read at the start of some bytes exactly if these begin with the bytes
of an element with that frame, of the kind that is declared if one is (`Frame.read_eq_ok_iff`).  So
what reading finds in damaged or hostile bytes is told without following the reader.
-/

namespace Mounts.Message

set_option autoImplicit false

/-- A length that is read is the one that is written in the four bytes ahead. -/
theorem Length.eq_encode_of_read? {bytes rest : List UInt8} {length : Nat}
    (accepted : Length.read? bytes = some (length, rest)) :
    bytes = Length.encode length ++ rest ∧ length < Length.bound := by
  match bytes, accepted with
  | first :: second :: third :: fourth :: tail, accepted =>
    simp only [read?, Option.some.injEq, Prod.mk.injEq] at accepted
    obtain ⟨rfl, rfl⟩ := accepted
    have one := first.toNat_lt
    have two := second.toNat_lt
    have three := third.toNat_lt
    have four := fourth.toNat_lt
    simp only [encode, List.cons_append, List.nil_append, List.cons.injEq, and_true,
      ← UInt8.toNat_inj, UInt8.toNat_ofNat', bound]
    omega

namespace Frame

/-- The bytes that make up an element with a given frame. -/
inductive Spells : Frame → List UInt8 → Prop
  /-- A text with its length in front. -/
  | string {body : List UInt8} : body.length < Length.bound →
      Spells ⟨.string, none, body, body.length + 5⟩ ([Kind.string.code] ++ Value.counted body)
  /-- Bytes up to a zero. -/
  | cstring {body : List UInt8} : (0 : UInt8) ∉ body →
      Spells ⟨.cstring, none, body, body.length + 2⟩ (Kind.cstring.code :: (body ++ [0]))
  /-- Fields with their length in front. -/
  | struct {body : List UInt8} : body.length < Length.bound →
      Spells ⟨.struct, none, body, body.length + 5⟩ ([Kind.struct.code] ++ Value.counted body)
  /-- Items with their kind and length in front. -/
  | array (item : Kind) {body : List UInt8} : body.length < Length.bound →
      Spells ⟨.array, some item, body, body.length + 6⟩
        ([Kind.array.code, item.code] ++ Value.counted body)

variable {frame : Frame} {element bytes : List UInt8} {declared : Option Kind}

/-- A frame tells how many bytes its element takes. -/
theorem Spells.length (spells : frame.Spells element) : element.length = frame.size := by
  cases spells with
  | string | struct | array =>
    simp only [List.length_append, List.length_cons, List.length_nil, Value.length_counted]
    omega
  | cstring => simp

theorem spells_of_counted {kind : Kind} {item : Option Kind} {header : Nat}
    (found : counted kind item header bytes = .ok frame) :
    ∃ body rest, body.length < Length.bound ∧ bytes = Value.counted body ++ rest ∧
      frame = ⟨kind, item, body, body.length + (header + 4)⟩ := by
  simp only [counted] at found
  split at found
  · cases found
  · next length rest counts =>
    split at found
    · next enough =>
      cases found
      obtain ⟨rfl, short⟩ := Length.eq_encode_of_read? counts
      have whole : (rest.take length).length = length := by simp [enough]
      refine ⟨rest.take length, rest.drop length, by rwa [whole], ?_, ?_⟩
      · rw [Value.counted, whole, List.append_assoc, List.take_append_drop]
      · rw [whole, Nat.add_comm]
    · cases found

theorem spells_of_terminated (found : terminated bytes = .ok frame) :
    ∃ body rest, (0 : UInt8) ∉ body ∧ bytes = body ++ 0 :: rest ∧
      frame = ⟨.cstring, none, body, body.length + 2⟩ := by
  simp only [terminated] at found
  split at found
  · next ends =>
    cases found
    -- The bytes go on behind the body, and it is a zero that the body stops at.
    have split_up := List.takeWhile_append_dropWhile (p := (· != 0)) (l := bytes)
    cases behind : bytes.dropWhile (· != 0) with
    | nil =>
      rw [behind, List.append_nil] at split_up
      rw [split_up] at ends
      exact absurd ends (Nat.lt_irrefl _)
    | cons byte rest =>
      have stop : (byte != 0) = false := by
        have first := List.head?_dropWhile_not (· != 0) bytes
        rw [behind] at first
        simpa using first
      obtain rfl : byte = 0 := by simpa using stop
      refine ⟨_, rest, fun zero => ?_, ?_, rfl⟩
      · simpa using List.all_eq_true.mp List.all_takeWhile 0 zero
      · rw [← behind, split_up]
  · cases found

theorem eq_code_of_ofCode? {code : UInt8} {kind : Kind} (known : Kind.ofCode? code = some kind) :
    code = kind.code := by
  simp only [Kind.ofCode?] at known
  repeat' split at known
  all_goals cases known <;> assumption

/-- What is found behind a known code is spelled by the code and some bytes behind it. -/
theorem spells_of_afterCode {kind : Kind} (found : afterCode kind bytes = .ok frame) :
    frame.kind = kind ∧ ∃ element rest, frame.Spells (kind.code :: element) ∧
      bytes = element ++ rest := by
  cases kind with
  | string =>
    obtain ⟨body, rest, short, rfl, rfl⟩ := spells_of_counted found
    exact ⟨rfl, _, rest, .string short, rfl⟩
  | struct =>
    obtain ⟨body, rest, short, rfl, rfl⟩ := spells_of_counted found
    exact ⟨rfl, _, rest, .struct short, rfl⟩
  | cstring =>
    obtain ⟨body, rest, clean, rfl, rfl⟩ := spells_of_terminated found
    exact ⟨rfl, body ++ [0], rest, .cstring clean, by simp⟩
  | array =>
    cases bytes with
    | nil => cases found
    | cons code bytes =>
      simp only [afterCode] at found
      split at found
      · next item known =>
        obtain rfl := eq_code_of_ofCode? known
        obtain ⟨body, rest, short, rfl, rfl⟩ := spells_of_counted found
        exact ⟨rfl, item.code :: Value.counted body, rest, .array item short, rfl⟩
      · cases found

/-- **A frame is read exactly where its element stands.** -/
theorem read_eq_ok_iff : read declared bytes = .ok frame ↔
    declared.all (· == frame.kind) = true ∧
      ∃ element rest, frame.Spells element ∧ bytes = element ++ rest := by
  constructor
  · intro found
    cases bytes with
    | nil => cases found
    | cons code bytes =>
      simp only [read] at found
      split at found
      · cases found
      · next kind known =>
        obtain rfl := eq_code_of_ofCode? known
        split at found
        · next kept =>
          obtain ⟨rfl, element, rest, spells, rfl⟩ := spells_of_afterCode found
          exact ⟨kept, _, rest, spells, rfl⟩
        · cases found
  · rintro ⟨kept, element, rest, spells, rfl⟩
    cases spells with
    | string short => exact read_plain (.inl rfl) kept short rest
    | struct short => exact read_plain (.inr rfl) kept short rest
    | cstring clean => exact read_cstring kept clean rest
    | array item short => exact read_array kept item short rest

end Frame

namespace Cursor

variable {cursor : Cursor} {frame : Frame}

/-- An element that stands at a cursor is left behind by moving past it. -/
theorem rest_past_of_spells {element rest : List UInt8} (spells : frame.Spells element)
    (ahead : cursor.rest = element ++ rest) : (cursor.past frame).rest = rest := by
  have behind : cursor.rest.drop element.length = rest := by rw [ahead, List.drop_left]
  rw [← behind, spells.length, Cursor.rest, Cursor.rest, List.drop_drop]
  rfl

theorem frameOf?_eq_some_iff {kind : Kind} :
    cursor.frameOf? kind = some frame ↔ cursor.frame = .ok frame ∧ frame.kind = kind := by
  refine ⟨frame_of_frameOf?, ?_⟩
  rintro ⟨found, rfl⟩
  simp [frameOf?, found, Except.toOption, Option.filter]

/-- An element is of the kind as which it is found. -/
theorem kind?_eq_some_iff {kind : Kind} :
    cursor.kind? = some kind ↔ ∃ frame, cursor.frameOf? kind = some frame := by
  rw [kind?, Option.map_eq_some_iff]
  refine exists_congr fun frame => ?_
  rw [frameOf?, Option.filter_eq_some_iff, beq_iff_eq]

section

variable {kind : Kind} (found : cursor.frameOf? kind = some frame)
include found

theorem itemKind?_of_frameOf? : cursor.itemKind? = frame.item := by
  rw [itemKind?, (frame_of_frameOf? found).1]
  rfl

theorem next_of_frameOf? : cursor.next = cursor.past frame := by
  rw [next, (frame_of_frameOf? found).1]

/-- A container that is found can be entered. -/
theorem enter_of_frameOf? (container : kind = .struct ∨ kind = .array) :
    cursor.enter = .ok (inside frame) := by
  obtain ⟨here, rfl⟩ := frame_of_frameOf? found
  rw [enter, here]
  rcases container with struct | array
  · simp only [Except.ok_bind, struct]
    rfl
  · simp only [Except.ok_bind, array]
    rfl

end

theorem readText_eq_ok_iff {after : Cursor} {kind : Kind} {text : String} :
    cursor.readText kind = .ok (text, after) ↔ ∃ frame, cursor.frame = .ok frame ∧
      frame.kind = kind ∧ frame.body = Text.utf8 text ∧ after = cursor.past frame := by
  rw [readText]
  cases cursor.frame with
  | error fault => simp
  | ok frame =>
    by_cases same : frame.kind = kind
    · cases spelled : Text.ofUtf8? frame.body with
      | none =>
        have nothing : frame.body ≠ Text.utf8 text := fun written => by
          rw [written, Text.ofUtf8?_utf8] at spelled
          cases spelled
        simp [same, Frame.text, spelled, nothing]
      | some other =>
        have written := Text.ofUtf8?_eq_some_iff.mp spelled
        have known : frame.body = Text.utf8 text ↔ other = text := by
          rw [← Text.ofUtf8?_eq_some_iff, spelled, Option.some.injEq]
        simp [same, Frame.text, spelled, known, eq_comm (a := after)]
    · simp [same]

theorem frame_string (text : String) : (Value.string text).frame =
    ⟨.string, none, Text.utf8 text, (Text.utf8 text).length + 5⟩ := by
  simp [Value.frame, Value.kind, Value.item?, Value.body, Value.encode]

/-- A text with its length in front is read exactly where it was written. -/
theorem readText_string_iff {after : Cursor} {text : String} :
    cursor.readText .string = .ok (text, after) ↔
      cursor.declared.all (· == Kind.string) = true ∧ (Value.string text).Fits ∧
        ∃ rest, cursor.rest = (Value.string text).encode ++ rest ∧
          after = cursor.past (Value.string text).frame := by
  rw [readText_eq_ok_iff, frame_string]
  constructor
  · rintro ⟨frame, found, kind, body, rfl⟩
    obtain ⟨kept, element, rest, spells, ahead⟩ := Frame.read_eq_ok_iff.mp found
    cases spells with
    | string short =>
      cases body
      exact ⟨kept, short, rest, ahead, rfl⟩
    | cstring | struct | array => cases kind
  · rintro ⟨kept, fits, rest, ahead, rfl⟩
    exact ⟨_, Frame.read_eq_ok_iff.mpr ⟨kept, _, rest, .string fits, ahead⟩, rfl, rfl, rfl⟩

/-- A text that a NUL ends is read exactly where it was written. -/
theorem readText_cstring_iff {after : Cursor} {text : String} :
    cursor.readText .cstring = .ok (text, after) ↔
      cursor.declared.all (· == Kind.cstring) = true ∧ (Value.cstring text).Proper ∧
        ∃ rest, cursor.rest = (Value.cstring text).encode ++ rest ∧
          after = cursor.past (Value.cstring text).frame := by
  have whole : (Value.cstring text).frame =
      ⟨.cstring, none, Text.utf8 text, (Text.utf8 text).length + 2⟩ := by
    simp [Value.frame, Value.kind, Value.item?, Value.body, Value.encode]
  have proper_iff : (Value.cstring text).Proper ↔ (0 : UInt8) ∉ Text.utf8 text := by
    rw [Value.Proper, Text.zero_mem_utf8, Bool.not_eq_true]
  rw [readText_eq_ok_iff, whole, proper_iff]
  constructor
  · rintro ⟨frame, found, kind, body, rfl⟩
    obtain ⟨kept, element, rest, spells, ahead⟩ := Frame.read_eq_ok_iff.mp found
    cases spells with
    | cstring clean =>
      cases body
      exact ⟨kept, clean, rest, ahead, rfl⟩
    | string | struct | array => cases kind
  · rintro ⟨kept, clean, rest, ahead, rfl⟩
    exact ⟨_, Frame.read_eq_ok_iff.mpr ⟨kept, _, rest, .cstring clean, ahead⟩, rfl, rfl, rfl⟩

end Cursor

end Mounts.Message

import Mounts.Message.Cursor
import Mounts.Proofs.Message.Elements
import Mounts.Proofs.Message.Settling

/-!
# What is read is what is written

A message that can be read without fault has one form only: writing what was read gives its bytes
again (`clean_walk_written_back`).  The same holds of a single text, with one exception
(`text_written_as_read`).
-/

namespace Mounts.Message

set_option autoImplicit false

/-!
## Every value has one written form

A walk through bytes of any origin is clean if it stops where each container ends, reads every text,
and meets no NUL in one.  `Walk.values?` tells the values that a clean walk shows.

A clean walk shows some values exactly if their bytes are all that lies ahead, at every depth: there
is nothing between elements, lengths have one form, and an array that is walked to its end holds no
element of another kind (`Cursor.values?_walk_eq_some_iff`).  So writing the values again gives the
same bytes, and no other bytes show them (`clean_walk_written_back`).
-/

/-! ### Clean walks -/

/-- The text that reading one gave, if it gave one without NUL. -/
def cleanText? : Except Fault String → Option String
  | .ok text => if Text.hasNul text then none else some text
  | .error _ => none

mutual

/-- The value that a visit shows, if everything in it was read and no text in it holds a NUL. -/
def Visit.value? : Visit → Option Value
  | .text _ kind outcome =>
    match kind with
    | .string => (cleanText? outcome).map .string
    | .cstring => (cleanText? outcome).map .cstring
    | .struct | .array => none
  | .container _ kind item visits stop =>
    if stop.fault = .endOfContainer then
      match kind, item with
      | .struct, none => (Visit.values? visits).map .struct
      | .array, some item => (Visit.values? visits).map (.array item)
      | _, _ => none
    else none

/-- The values that some visits show, if all of them show one. -/
def Visit.values? : List Visit → Option (List Value)
  | [] => some []
  | visit :: visits =>
    match visit.value?, Visit.values? visits with
    | some value, some values => some (value :: values)
    | _, _ => none

end

/-- The values that a walk shows, if it is clean. -/
def Walk.values? (walk : Walk) : Option (List Value) :=
  if walk.stop.fault = .endOfContainer then Visit.values? walk.visits else none

namespace Frame

theorem counted_ne_ended {kind : Kind} {item : Option Kind} {header : Nat} {bytes : List UInt8} :
    counted kind item header bytes ≠ .error .endOfContainer := by
  rw [counted]
  split
  · simp
  · split
    · simp
    · simp

theorem afterCode_ne_ended (kind : Kind) (bytes : List UInt8) :
    afterCode kind bytes ≠ .error .endOfContainer := by
  cases kind with
  | string | struct => exact counted_ne_ended
  | cstring =>
    simp only [afterCode, terminated]
    split
    · simp
    · simp
  | array =>
    cases bytes with
    | nil => simp [afterCode]
    | cons code bytes =>
      rw [afterCode]
      split
      · exact counted_ne_ended
      · simp

/-- Only where there are no bytes has a container ended. -/
theorem eq_nil_of_read {declared : Option Kind} {bytes : List UInt8}
    (ended : read declared bytes = .error .endOfContainer) : bytes = [] := by
  cases bytes with
  | nil => rfl
  | cons code bytes =>
    rw [read] at ended
    split at ended
    · cases ended
    · next kind known =>
      split at ended
      · exact absurd ended (afterCode_ne_ended kind bytes)
      · cases ended

end Frame

namespace Cursor

variable {cursor : Cursor} {frame : Frame}

/-! ### Steps of a walk -/

theorem walk_of_error {fault : Fault} (stopped : cursor.frame = .error fault) :
    cursor.walk = ⟨[], ⟨cursor.position, cursor.atEnd, fault⟩⟩ := by
  rw [walk]
  split
  · next found =>
    rw [stopped] at found
    cases found
    rfl
  · next found =>
    rw [stopped] at found
    cases found

/-- What a walk meets at an element. -/
def visit (cursor : Cursor) (frame : Frame) : Visit :=
  match frame.kind with
  | .string | .cstring => .text cursor.position frame.kind frame.text
  | .struct | .array => .container cursor.position frame.kind frame.item
      (inside frame).walk.visits (inside frame).walk.stop

theorem walk_of_ok (found : cursor.frame = .ok frame) :
    cursor.walk = ⟨cursor.visit frame :: (cursor.past frame).walk.visits,
      (cursor.past frame).walk.stop⟩ := by
  rw [walk]
  split
  · next again =>
    rw [found] at again
    cases again
  · next again =>
    rw [found] at again
    cases again
    rfl

/-- A clean walk ends where the bytes end, or meets an element and goes on cleanly behind it. -/
theorem walk_cases {values : List Value} (clean : cursor.walk.values? = some values) :
    (cursor.rest = [] ∧ values = []) ∨
    ∃ frame value others, cursor.frame = .ok frame ∧ (cursor.visit frame).value? = some value ∧
      (cursor.past frame).walk.values? = some others ∧ values = value :: others := by
  cases found : cursor.frame with
  | error fault =>
    rw [walk_of_error found, Walk.values?] at clean
    split at clean
    · next ended =>
      obtain rfl : fault = .endOfContainer := ended
      cases clean
      exact .inl ⟨Frame.eq_nil_of_read found, rfl⟩
    · cases clean
  | ok frame =>
    rw [walk_of_ok found, Walk.values?] at clean
    split at clean
    · next ended =>
      rw [Visit.values?] at clean
      split at clean
      · next value others shown further =>
        cases clean
        refine .inr ⟨frame, value, others, rfl, shown, ?_, rfl⟩
        rw [Walk.values?, if_pos ended, further]
      · cases clean
    · cases clean

/-! ### What a clean walk shows is what the bytes are -/

/-- Some values are all that lies ahead, and they may be written there. -/
structure Holds (cursor : Cursor) (values : List Value) : Prop where
  ahead : cursor.rest = Value.encodeAll values
  proper : ∀ value ∈ values, value.Proper
  countable : ∀ value ∈ values, value.Countable
  kept : ∀ value ∈ values, cursor.declared.all (· == value.kind) = true

theorem visit_struct {body : List UInt8} {size : Nat} :
    (cursor.visit ⟨.struct, none, body, size⟩).value? =
      (inside ⟨.struct, none, body, size⟩).walk.values?.map .struct := by
  simp only [visit, Visit.value?, Walk.values?]
  split
  · rfl
  · rfl

theorem visit_array {item : Kind} {body : List UInt8} {size : Nat} :
    (cursor.visit ⟨.array, some item, body, size⟩).value? =
      (inside ⟨.array, some item, body, size⟩).walk.values?.map (.array item) := by
  simp only [visit, Visit.value?, Walk.values?]
  split
  · rfl
  · rfl

theorem cleanText?_text_iff {text : String} : cleanText? frame.text = some text ↔
    frame.body = Text.utf8 text ∧ Text.hasNul text = false := by
  rw [← Text.ofUtf8?_eq_some_iff, Frame.text]
  cases Text.ofUtf8? frame.body with
  | none => simp [cleanText?]
  | some other =>
    simp only [cleanText?, Option.some.injEq]
    split
    · next holds =>
      refine iff_of_false (by simp) ?_
      rintro ⟨rfl, clean⟩
      rw [holds] at clean
      cases clean
    · next clean =>
      rw [Option.some.injEq, iff_self_and]
      rintro rfl
      exact Bool.eq_false_iff.mpr clean

/-- An element that a clean walk meets is spelled by the bytes of the value that the walk shows. -/
theorem spelled_of_visit {element : List UInt8} {value : Value} (spells : frame.Spells element)
    (shown : (cursor.visit frame).value? = some value)
    (within : ∀ values, (inside frame).walk.values? = some values → (inside frame).Holds values) :
    element = value.encode ∧ value.kind = frame.kind ∧ value.Proper ∧ value.Countable := by
  cases spells with
  | string short =>
    obtain ⟨text, read, rfl⟩ := Option.map_eq_some_iff.mp shown
    obtain ⟨rfl, clean⟩ := cleanText?_text_iff.mp read
    exact ⟨rfl, rfl, clean, fun _ => short⟩
  | cstring zero_free =>
    obtain ⟨text, read, rfl⟩ := Option.map_eq_some_iff.mp shown
    obtain ⟨rfl, clean⟩ := cleanText?_text_iff.mp read
    exact ⟨rfl, rfl, clean, fun other => absurd rfl other⟩
  | struct short =>
    rw [visit_struct] at shown
    obtain ⟨fields, inner, rfl⟩ := Option.map_eq_some_iff.mp shown
    have holds := within fields inner
    obtain rfl : _ = Value.encodeAll fields := holds.ahead
    exact ⟨rfl, rfl, Value.properAll_iff.mpr holds.proper, fun _ => short⟩
  | array item short =>
    rw [visit_array] at shown
    obtain ⟨items, inner, rfl⟩ := Option.map_eq_some_iff.mp shown
    have holds := within items inner
    obtain rfl : _ = Value.encodeAll items := holds.ahead
    refine ⟨rfl, rfl, ⟨Value.properAll_iff.mpr holds.proper, fun value found => ?_⟩, fun _ => short⟩
    exact (beq_iff_eq.mp (holds.kept value found)).symm

/-- **What a clean walk shows is all that lies ahead.**  The walk goes on inside an element and
behind it, and there are fewer bytes at either place. -/
theorem holds_of_walk (cursor : Cursor) (values : List Value)
    (clean : cursor.walk.values? = some values) : cursor.Holds values := by
  rcases walk_cases clean with ⟨ended, rfl⟩ | ⟨frame, value, others, found, shown, further, rfl⟩
  · exact ⟨ended, List.forall_mem_nil _, List.forall_mem_nil _, List.forall_mem_nil _⟩
  · obtain ⟨kept, element, rest, spells, ahead⟩ := Frame.read_eq_ok_iff.mp found
    have behind := holds_of_walk (cursor.past frame) others further
    obtain ⟨rfl, kind, proper, countable⟩ := spelled_of_visit spells shown
      fun inner show_inner => holds_of_walk (inside frame) inner show_inner
    refine ⟨?_, ?_, ?_, ?_⟩
    · rw [ahead, Value.encodeAll, ← behind.ahead, rest_past_of_spells spells ahead]
    · exact List.forall_mem_cons.mpr ⟨proper, behind.proper⟩
    · exact List.forall_mem_cons.mpr ⟨countable, behind.countable⟩
    · exact List.forall_mem_cons.mpr ⟨kind ▸ kept, behind.kept⟩
termination_by cursor.remaining
decreasing_by
  · exact remaining_past found
  · exact remaining_inside found

/-! ### Values that lie ahead are shown -/

theorem values?_walk_cons {value : Value} {others : List Value} (found : cursor.frame = .ok frame)
    (shown : (cursor.visit frame).value? = some value)
    (further : (cursor.past frame).walk.values? = some others) :
    cursor.walk.values? = some (value :: others) := by
  rw [Walk.values?] at further
  split at further
  · next ended =>
    rw [walk_of_ok found, Walk.values?, if_pos ended, Visit.values?, shown, further]
  · cases further

/-- What lies in a container is what its bytes hold. -/
theorem holds_inside {values : List Value} {frame : Frame}
    (body : frame.body = Value.encodeAll values) (short : frame.body.length < Length.bound)
    (proper : ∀ value ∈ values, value.Proper)
    (kept : ∀ value ∈ values, frame.item.all (· == value.kind) = true) :
    (inside frame).Holds values where
  ahead := body
  proper := proper
  countable := fun _ found _ => Value.fits_of_mem found (body ▸ short)
  kept := kept

theorem visit_value {value : Value} (proper : value.Proper) (countable : value.Countable)
    (within : ∀ values, (inside value.frame).Holds values →
      (inside value.frame).walk.values? = some values) :
    (cursor.visit value.frame).value? = some value := by
  cases value with
  | string text =>
    have read : cleanText? (Value.string text).frame.text = some text :=
      cleanText?_text_iff.mpr ⟨rfl, proper⟩
    exact congrArg (Option.map Value.string) read
  | cstring text =>
    have read : cleanText? (Value.cstring text).frame.text = some text :=
      cleanText?_text_iff.mpr ⟨rfl, proper⟩
    exact congrArg (Option.map Value.cstring) read
  | struct fields =>
    have short := countable (by simp [Value.kind])
    have holds : (inside (Value.struct fields).frame).Holds fields :=
      holds_inside rfl short (Value.properAll_iff.mp proper) fun _ _ => rfl
    exact visit_struct.trans (congrArg (Option.map Value.struct) (within fields holds))
  | array item items =>
    have short := countable (by simp [Value.kind])
    have holds : (inside (Value.array item items).frame).Holds items :=
      holds_inside rfl short (Value.properAll_iff.mp proper.1) fun value found =>
        beq_iff_eq.mpr (proper.2 value found).symm
    exact visit_array.trans (congrArg (Option.map (Value.array item)) (within items holds))

/-- **What lies ahead is what a clean walk shows.** -/
theorem walk_of_holds (cursor : Cursor) (values : List Value) (holds : cursor.Holds values) :
    cursor.walk.values? = some values := by
  cases values with
  | nil =>
    have ended : cursor.frame = .error .endOfContainer := by
      rw [Cursor.frame, holds.ahead]
      rfl
    rw [walk_of_error ended]
    rfl
  | cons value others =>
    have proper := List.forall_mem_cons.mp holds.proper
    have countable := List.forall_mem_cons.mp holds.countable
    have kept := List.forall_mem_cons.mp holds.kept
    have found : cursor.frame = .ok value.frame := by
      rw [Cursor.frame, holds.ahead]
      exact Frame.read_encode proper.1 countable.1 kept.1 _
    have behind : (cursor.past value.frame).Holds others :=
      ⟨rest_past_of_ahead holds.ahead, proper.2, countable.2, kept.2⟩
    have shown : (cursor.visit value.frame).value? = some value :=
      visit_value proper.1 countable.1
        fun inner holds_inner => walk_of_holds (inside value.frame) inner holds_inner
    exact values?_walk_cons found shown (walk_of_holds _ others behind)
termination_by cursor.remaining
decreasing_by
  · exact remaining_inside found
  · exact remaining_past found

/-- **A clean walk shows exactly the values that lie ahead.** -/
theorem values?_walk_eq_some_iff {values : List Value} :
    cursor.walk.values? = some values ↔ cursor.Holds values :=
  ⟨holds_of_walk cursor values, walk_of_holds cursor values⟩

end Cursor

/-! ### Writing again what a walk shows -/

/-- Proper values whose lengths can be written are appended one after another without a fault. -/
theorem Writer.extendAll_ofValues {values : List Value} (proper : ∀ value ∈ values, value.Proper)
    (countable : ∀ value ∈ values, value.Countable) (writer : Writer) :
    (∀ outcome ∈ writer.extendEach (Draft.ofValues values), outcome.1 = none) ∧
      writer.extendAll (Draft.ofValues values) =
        ⟨writer.bytes ++ Value.encodeAll values⟩ := by
  induction values generalizing writer with
  | nil =>
    rw [Draft.ofValues, Value.encodeAll, List.append_nil]
    exact ⟨List.forall_mem_nil _, rfl⟩
  | cons value values ih =>
    rw [List.forall_mem_cons] at proper countable
    have first : writer.extend (.ofValue value) = (none, ⟨writer.bytes ++ value.encode⟩) := by
      rw [extend, Draft.write_ofValue_of_countable proper.1 countable.1]
    obtain ⟨faultless, longer⟩ := ih proper.2 countable.2 ⟨writer.bytes ++ value.encode⟩
    rw [Draft.ofValues, extendEach, List.forall_mem_cons, extendAll, List.foldl_cons, first]
    refine ⟨⟨rfl, faultless⟩, ?_⟩
    rw [Value.encodeAll, ← List.append_assoc]
    exact longer

/-- **Bytes with a clean walk are written again by writing what the walk shows, and no other bytes
have that walk.** -/
theorem clean_walk_written_back (bytes : List UInt8) (values : List Value)
    (clean : (Cursor.ofBytes bytes).walk.values? = some values) :
    (∀ outcome ∈ Writer.empty.extendEach (Draft.ofValues values), outcome.1 = none) ∧
      Writer.empty.extendAll (Draft.ofValues values) = ⟨bytes⟩ ∧
      ∀ other, (Cursor.ofBytes other).walk.values? = some values → other = bytes := by
  have holds := Cursor.holds_of_walk (Cursor.ofBytes bytes) values clean
  obtain ⟨faultless, written⟩ :=
    Writer.extendAll_ofValues holds.proper holds.countable Writer.empty
  have whole : bytes = Value.encodeAll values := holds.ahead
  refine ⟨faultless, ?_, fun other again => ?_⟩
  · rw [written, whole]
    rfl
  · have whole_other : other = Value.encodeAll values :=
      (Cursor.holds_of_walk (Cursor.ofBytes other) values again).ahead
    rw [whole_other, whole]

/-- A struct of a path and an array with one entry, and an array without items behind it. -/
def nestedBytes : List UInt8 :=
  [114, 0, 0, 0, 23, 122, 47, 0, 97, 114, 0, 0, 0, 14, 114, 0, 0, 0, 9, 115, 0, 0, 0, 1, 107,
    122, 118, 0, 97, 122, 0, 0, 0, 0]

/-- What a walk through these bytes shows. -/
def nestedValues : List Value :=
  [.struct [.cstring "/", .array .struct [.struct [.string "k", .cstring "v"]]], .array .cstring []]

/-- Nested containers are written again as they were. -/
theorem clean_walk_written_back_nested :
    (Cursor.ofBytes nestedBytes).walk.values? = some nestedValues ∧
      Writer.empty.extendAll (Draft.ofValues nestedValues) = ⟨nestedBytes⟩ := by
  have holds : (Cursor.ofBytes nestedBytes).Holds nestedValues := by
    have nul_free :
        Text.hasNul "/" = false ∧ Text.hasNul "k" = false ∧ Text.hasNul "v" = false := by decide
    have short : (Value.encodeAll nestedValues).length < Length.bound := by decide +kernel
    refine ⟨?_, ?_, fun value found _ => Value.fits_of_mem found short, fun _ _ => rfl⟩
    · decide +kernel
    · simp [nestedValues, Value.Proper, Value.ProperAll, Value.kind, nul_free]
  have clean := Cursor.values?_walk_eq_some_iff.mpr holds
  exact ⟨clean, (clean_walk_written_back nestedBytes nestedValues clean).2.1⟩

/-!
## Single texts

Wherever a text is read, the bytes that were passed are the bytes of that text as a value, so what
is written for it anew is what was read (`text_written_as_read`).

One exception comes from the format's rule that no text holds a NUL.  A text that a NUL ends cannot
break it, and whoever writes a text is checked, but a text with its length in front is taken as it
is.  So there are texts that are read and may not be written (`nul_is_read`).
-/

namespace Cursor

/-- The bytes from a place up to a later one in the same container. -/
def upTo (cursor after : Cursor) : List UInt8 :=
  (cursor.data.drop cursor.position).take (after.position - cursor.position)

variable {cursor after : Cursor} {text : String}

/-- What is passed with a value is the bytes of the value. -/
theorem upTo_past {value : Value} {further : List UInt8}
    (ahead : cursor.rest = value.encode ++ further) :
    cursor.upTo (cursor.past value.frame) = value.encode := by
  have size : (cursor.past value.frame).position - cursor.position = value.encode.length :=
    Nat.add_sub_cancel_left _ _
  rw [upTo, size]
  exact (congrArg (List.take value.encode.length) ahead).trans List.take_left

/-- The bytes of a text that was read with its length in front. -/
theorem upTo_of_readText_string (read : cursor.readText .string = .ok (text, after)) :
    (Value.string text).Fits ∧ cursor.upTo after = (Value.string text).encode := by
  obtain ⟨_, fits, _, ahead, rfl⟩ := readText_string_iff.mp read
  exact ⟨fits, upTo_past ahead⟩

/-- The bytes of a text that was read up to a NUL. -/
theorem upTo_of_readText_cstring (read : cursor.readText .cstring = .ok (text, after)) :
    (Value.cstring text).Proper ∧ cursor.upTo after = (Value.cstring text).encode := by
  obtain ⟨_, proper, _, ahead, rfl⟩ := readText_cstring_iff.mp read
  exact ⟨proper, upTo_past ahead⟩

end Cursor

/-- **A text is written with the bytes from which it was read, unless it holds a NUL.** -/
theorem text_written_as_read (cursor after : Cursor) (text : String) :
    (cursor.readText .cstring = .ok (text, after) →
      Text.hasNul text = false ∧
        Writer.empty.extend (.cstring text) = (none, ⟨cursor.upTo after⟩)) ∧
    (cursor.readText .string = .ok (text, after) →
      cursor.upTo after = (Value.string text).encode ∧
        (Writer.empty.extend (.string text) = (none, ⟨cursor.upTo after⟩) ↔
          Text.hasNul text = false) ∧
        (Text.hasNul text = true →
          Writer.empty.extend (.string text) = (some .holdsNul, Writer.empty))) := by
  have written {value : Value} (proper : value.Proper) (countable : value.Countable) :
      Writer.empty.extend (.ofValue value) = (none, ⟨value.encode⟩) := by
    rw [Writer.extend, Draft.write_ofValue_of_countable proper countable]
    rfl
  constructor
  · intro read
    obtain ⟨proper, passed⟩ := Cursor.upTo_of_readText_cstring read
    rw [passed]
    exact ⟨proper, written proper fun other => absurd rfl other⟩
  · intro read
    obtain ⟨fits, passed⟩ := Cursor.upTo_of_readText_string read
    have refused (holds : Text.hasNul text = true) :
        Writer.empty.extend (.string text) = (some .holdsNul, Writer.empty) := by
      rw [Writer.extend, Draft.write, if_pos holds]
    refine ⟨passed, ⟨fun accepted => ?_, fun clean => ?_⟩, refused⟩
    · refine Bool.eq_false_iff.mpr fun holds => ?_
      rw [refused holds] at accepted
      cases accepted
    · have proper : (Value.string text).Proper := clean
      rw [passed]
      exact written proper fun _ => fits

/-- A text of each kind among other bytes. -/
def twoTexts : List UInt8 :=
  [7, 122, 104, 105, 0, 115, 0, 0, 0, 1, 107, 9]

/-- Both texts are written with the bytes from which they are read. -/
theorem text_written_as_read_both :
    Cursor.readText ⟨twoTexts, 1, none⟩ .cstring = .ok ("hi", ⟨twoTexts, 5, none⟩) ∧
    Writer.empty.extend (.cstring "hi") = (none, ⟨[122, 104, 105, 0]⟩) ∧
    Cursor.readText ⟨twoTexts, 5, none⟩ .string = .ok ("k", ⟨twoTexts, 11, none⟩) ∧
    Writer.empty.extend (.string "k") = (none, ⟨[115, 0, 0, 0, 1, 107]⟩) := by
  have clean : Text.hasNul "hi" = false := by decide
  have short : (Text.utf8 "k").length < Length.bound := by decide
  have greeting : Cursor.readText ⟨twoTexts, 1, none⟩ .cstring =
      .ok ("hi", ⟨twoTexts, 5, none⟩) :=
    Cursor.readText_cstring_iff.mpr ⟨rfl, clean, [115, 0, 0, 0, 1, 107, 9], rfl, rfl⟩
  have key : Cursor.readText ⟨twoTexts, 5, none⟩ .string =
      .ok ("k", ⟨twoTexts, 11, none⟩) :=
    Cursor.readText_string_iff.mpr ⟨rfl, short, [9], rfl, rfl⟩
  obtain ⟨_, written⟩ := (text_written_as_read _ _ _).1 greeting
  obtain ⟨_, may_write, _⟩ := (text_written_as_read _ _ _).2 key
  exact ⟨greeting, written, key, may_write.mpr (by decide)⟩

/-- The text of one NUL with its length in front. -/
def nulText : List UInt8 :=
  [115, 0, 0, 0, 1, 0]

/-- A text with a NUL is read, though it may not be written. -/
theorem nul_is_read :
    Cursor.readText (.ofBytes nulText) .string = .ok ("\x00", ⟨nulText, 6, none⟩) ∧
    Text.hasNul "\x00" = true ∧
    Writer.empty.extend (.string "\x00") = (some .holdsNul, Writer.empty) := by
  have short : (Text.utf8 "\x00").length < Length.bound := by decide
  refine ⟨?_, by decide, by decide⟩
  exact Cursor.readText_string_iff.mpr ⟨rfl, short, [], rfl, rfl⟩

end Mounts.Message

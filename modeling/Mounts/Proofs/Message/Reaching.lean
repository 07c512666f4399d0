import Mathlib.Logic.Function.Iterate
import Mounts.Proofs.Except
import Mounts.Proofs.Message.Elements
import Mounts.Reader

/-!
# Reading within bounds

Elements lie within their containers, whatever the bytes are, and every step makes progress.  So
reading is safe on any bytes, and a walk through them ends (`reading_in_bounds`).
-/

namespace Mounts

set_option autoImplicit false

/-!
## Elements lie within bounds

Bytes that nobody vouches for may announce any lengths, lack the NUL that should end a text, or stop
inside a header.  An element that can be read lies within its container all the same, and its body
within the element, between a head and a tail whose sizes depend on its kind only
(`Frame.laidOut_of_read`).

Every move forward makes progress, and a container holds fewer bytes than there are from its own
start on.  So the bytes that are left, counted over all the places from which a walk still has to go
on, fall with every step of the walk (`Cursor.load_onward_lt`), and the walk comes to an end
(`Cursor.iterate_walkOn`).
-/

namespace Message

/-! ### Where the body of an element lies -/

/-- The number of bytes in front of the body of an element: its kind, the kind of its items and the
length, as far as there are such. -/
def Kind.headSize : Kind → Nat
  | .cstring => 1
  | .string | .struct => 5
  | .array => 6

/-- The number of bytes behind the body of an element: the NUL, if there is one. -/
def Kind.tailSize : Kind → Nat
  | .cstring => 1
  | .string | .struct | .array => 0

namespace Frame

/-- A frame takes the head, the body and the tail of its element, and the body is the bytes behind
the head. -/
structure LaidOut (frame : Frame) (bytes : List UInt8) : Prop where
  size : frame.size = frame.kind.headSize + frame.body.length + frame.kind.tailSize
  body : frame.body = (bytes.drop frame.kind.headSize).take frame.body.length

/-- An element lies where its kind says, whatever comes behind it. -/
theorem Spells.laidOut {frame : Frame} {element : List UInt8} (spells : frame.Spells element)
    (rest : List UInt8) : frame.LaidOut (element ++ rest) := by
  cases spells with
  | string | cstring | struct | array =>
    refine ⟨?size, ?body⟩
    case size =>
      simp only [Kind.headSize, Kind.tailSize]
      omega
    case body => simp [Kind.headSize, Value.counted, Length.encode]

/-- A frame that is found lies where its kind says. -/
theorem laidOut_of_read {declared : Option Kind} {bytes : List UInt8} {frame : Frame}
    (found : read declared bytes = .ok frame) : frame.LaidOut bytes := by
  obtain ⟨_, element, rest, spells, rfl⟩ := read_eq_ok_iff.mp found
  exact spells.laidOut rest

end Frame

/-! ### Moving -/

namespace Cursor

variable {cursor after inner : Cursor}

/-- Moving on stays in the container. -/
@[simp]
theorem data_next (cursor : Cursor) : cursor.next.data = cursor.data := by
  rw [next]
  split
  · rfl
  · rfl

/-- Moving on never leads behind the end. -/
theorem position_next_le (within : cursor.position ≤ cursor.data.length) :
    cursor.next.position ≤ cursor.next.data.length := by
  rw [next]
  split
  · next frame found =>
    have bounds := bounds_of_frame found
    simp only [past, remaining] at bounds ⊢
    omega
  · exact Nat.le_refl _

/-- Moving on makes progress anywhere but at the end. -/
theorem position_lt_next (more : cursor.atEnd = false) :
    cursor.position < cursor.next.position := by
  simp only [atEnd, decide_eq_false_iff_not, Nat.not_le] at more
  rw [next]
  split
  · next frame found =>
    have bounds := bounds_of_frame found
    simp only [past]
    omega
  · exact more

/-- Reading a text leads to the place where moving on leads. -/
theorem eq_next_of_readText {kind : Kind} {text : String}
    (read : cursor.readText kind = .ok (text, after)) : after = cursor.next := by
  cases found : cursor.frame with
  | error fault =>
    simp [readText, found] at read
  | ok frame =>
    simp only [readText, found, Except.ok_bind] at read
    split at read
    · cases spelled : frame.text with
      | error fault =>
        rw [spelled] at read
        cases read
      | ok text =>
        rw [spelled] at read
        cases read
        simp only [next, found]
    · cases read

/-- Entering leads to the start of the body of the current element. -/
theorem eq_inside_of_enter (entered : cursor.enter = .ok inner) :
    ∃ frame, cursor.frame = .ok frame ∧ inner = inside frame := by
  cases found : cursor.frame with
  | error fault =>
    simp [enter, found] at entered
  | ok frame =>
    refine ⟨frame, rfl, ?_⟩
    simp only [enter, found, Except.ok_bind] at entered
    split at entered
    · cases entered
      rfl
    · cases entered
      rfl
    · cases entered
    · cases entered

/-! ### Walks end -/

/-- The places where a walk goes on from a place: inside the current element, if it can be entered,
and behind it.  At the end of a container the walk goes on nowhere. -/
def onward (cursor : Cursor) : List Cursor :=
  if cursor.atEnd then [] else cursor.enter.toOption.toList ++ [cursor.next]

/-- One step of a walk, which turns the first of the places that it still has to go to into the
places where it goes on from there. -/
def walkOn : List Cursor → List Cursor
  | [] => []
  | cursor :: later => cursor.onward ++ later

/-- Twice the bytes that are left at each of some places, and one more for each place. -/
def load : List Cursor → Nat
  | [] => 0
  | cursor :: later => 2 * cursor.remaining + 1 + load later

theorem load_append (first second : List Cursor) :
    load (first ++ second) = load first + load second := by
  induction first with
  | nil => simp [load]
  | cons cursor later ih =>
    rw [List.cons_append, load, load, ih]
    omega

theorem load_singleton (cursor : Cursor) : load [cursor] = 2 * cursor.remaining + 1 := rfl

/-- The body of a container and the bytes behind it together are fewer than the bytes from the
container on. -/
theorem remaining_inside_add_next {frame : Frame} (found : cursor.frame = .ok frame) :
    (inside frame).remaining + cursor.next.remaining < cursor.remaining := by
  have bounds := bounds_of_frame found
  have body : (inside frame).remaining = frame.body.length := by simp [inside, remaining]
  have behind : cursor.next.remaining = cursor.remaining - frame.size := by
    simp only [next, found, past, remaining]
    omega
  omega

/-- There is less to do at the places where a walk goes on than at the place that it comes from. -/
theorem load_onward_lt (cursor : Cursor) : load cursor.onward < 2 * cursor.remaining + 1 := by
  rw [onward]
  split
  · exact Nat.succ_pos _
  · next more =>
    cases entered : cursor.enter with
    | error fault =>
      have progress := position_lt_next (Bool.eq_false_iff.mpr more)
      have fewer : cursor.next.remaining < cursor.remaining := by
        simp only [atEnd, decide_eq_true_iff, Nat.not_le] at more
        simp only [remaining, data_next]
        omega
      simp only [Except.toOption, Option.toList_none, List.nil_append, load_singleton]
      omega
    | ok inner =>
      obtain ⟨frame, found, rfl⟩ := eq_inside_of_enter entered
      have fewer := remaining_inside_add_next found
      simp only [Except.toOption, Option.toList_some, load_append, load_singleton]
      omega

/-- **A walk has come to its end after as many steps as there was to do.** -/
theorem iterate_walkOn {steps : Nat} {places : List Cursor} (enough : load places ≤ steps) :
    walkOn^[steps] places = [] := by
  induction steps generalizing places with
  | zero =>
    cases places with
    | nil => rfl
    | cons cursor later =>
      rw [load] at enough
      omega
  | succ steps ih =>
    rw [Function.iterate_succ_apply]
    apply ih
    cases places with
    | nil => exact Nat.zero_le _
    | cons cursor later =>
      have less := load_onward_lt cursor
      rw [load] at enough
      rw [walkOn, load_append]
      omega

end Cursor

end Message

/-!
## Where reading can lead

A reader may ask anything of the bytes that it is given, in any order, and go back to any place that
it was at.  No place that it can reach lies behind the end of its container, and a request that is
refused leaves it where it was.  Together with the bounds of elements this makes reading safe on any
bytes whatever (`reading_in_bounds`).
-/

open Message (Cursor Frame)

/-- Reading a spec leads to the place where moving on leads. -/
theorem Spec.eq_next_of_read {cursor after : Cursor} {spec : Spec}
    (accepted : read cursor = .ok (spec, after)) : after = cursor.next := by
  rw [read] at accepted
  split at accepted
  · cases accepted
  · next frame found =>
    obtain ⟨_, _, ⟨⟩⟩ := Except.map_eq_ok_iff.mp accepted
    simp only [Cursor.next, (Cursor.frame_of_frameOf? found).1]

namespace Reader

variable {reader : Reader}

theorem apply_spec_of_read {spec : Spec} {after : Cursor}
    (accepted : Spec.read reader.current = .ok (spec, after)) :
    reader.apply .spec = (.spec spec, ⟨after, reader.outer⟩) := by
  rw [apply, accepted]

theorem apply_spec_of_error {why : SpecError} (refused : Spec.read reader.current = .error why) :
    reader.apply .spec = (.failed why, reader) := by
  rw [apply, refused]

end Reader

/-- Whether an answer tells that something could not be read or entered. -/
def ReadReply.isRefusal : ReadReply → Bool
  | .fault _ | .failed _ => true
  | .kind _ | .flag _ | .text _ | .spec _ => false

namespace Reader

/-- The places that can be reached in some bytes. -/
inductive Reaches (data : List UInt8) : Cursor → Prop
  /-- The start of the message. -/
  | start : Reaches data (Cursor.ofBytes data)
  /-- The place that moving on leads to. -/
  | next {cursor : Cursor} : Reaches data cursor → Reaches data cursor.next
  /-- The place behind a text that was read. -/
  | text {cursor after : Cursor} {kind : Message.Kind} {text : String} : Reaches data cursor →
      cursor.readText kind = .ok (text, after) → Reaches data after
  /-- The place behind a spec that was read. -/
  | spec {cursor after : Cursor} {spec : Spec} : Reaches data cursor →
      Spec.read cursor = .ok (spec, after) → Reaches data after
  /-- The start of a container that was entered. -/
  | enter {cursor inner : Cursor} : Reaches data cursor →
      cursor.enter = .ok inner → Reaches data inner

variable {data : List UInt8} {reader : Reader}

/-- No place that is reached lies behind the end of its container. -/
theorem Reaches.within {cursor : Cursor} (reached : Reaches data cursor) :
    cursor.position ≤ cursor.data.length := by
  induction reached with
  | start => exact Nat.zero_le _
  | next _ ih => exact Cursor.position_next_le ih
  | text _ read ih =>
    rw [Cursor.eq_next_of_readText read]
    exact Cursor.position_next_le ih
  | spec _ accepted ih =>
    rw [Spec.eq_next_of_read accepted]
    exact Cursor.position_next_le ih
  | enter _ entered _ =>
    obtain ⟨frame, _, rfl⟩ := Cursor.eq_inside_of_enter entered
    exact Nat.zero_le _

/-! ### Steps and runs -/

/-- The places that a reader holds: the one where it stands and those it can go back to. -/
def places (reader : Reader) : List Cursor :=
  reader.current :: reader.outer

/-- A step leads to places that can be reached. -/
theorem reaches_apply (reached : ∀ cursor ∈ reader.places, Reaches data cursor)
    (step : ReadStep) : ∀ cursor ∈ (reader.apply step).2.places, Reaches data cursor := by
  obtain ⟨here, around⟩ := List.forall_mem_cons.mp reached
  cases step with
  | kind | itemKind => exact reached
  | next => exact List.forall_mem_cons.mpr ⟨.next here, around⟩
  | text kind =>
    rw [apply]
    split
    · next read => exact List.forall_mem_cons.mpr ⟨.text here read, around⟩
    · exact reached
  | spec =>
    rw [apply]
    split
    · next accepted => exact List.forall_mem_cons.mpr ⟨.spec here accepted, around⟩
    · exact reached
  | enter =>
    rw [apply]
    split
    · next entered => exact List.forall_mem_cons.mpr ⟨.enter here entered, reached⟩
    · exact reached
  | leave =>
    rw [apply]
    split
    · next outer =>
      rw [outer] at around
      exact around
    · exact reached

/-- So does any run of steps. -/
theorem reaches_run (reached : ∀ cursor ∈ reader.places, Reaches data cursor)
    (steps : List ReadStep) :
    ∀ outcome ∈ reader.run steps, ∀ cursor ∈ outcome.2.places, Reaches data cursor := by
  induction steps generalizing reader with
  | nil => exact fun _ found => nomatch found
  | cons step steps ih =>
    have after := reaches_apply reached step
    exact List.forall_mem_cons.mpr ⟨after, ih after⟩

/-- A step that is refused changes nothing. -/
theorem apply_of_refusal {step : ReadStep}
    (refused : (reader.apply step).1.isRefusal = true) : (reader.apply step).2 = reader := by
  cases step with
  | kind | itemKind => rfl
  | next => cases refused
  | text kind | spec | enter | leave =>
    rw [apply] at refused ⊢
    split at refused
    · cases refused
    · rfl

/-- **Reading any bytes stays within bounds and comes to an end.** -/
theorem reading_in_bounds (data : List UInt8) :
    (∀ cursor : Cursor, Reaches data cursor → cursor.position ≤ cursor.data.length ∧
      (cursor.atEnd = false → cursor.position < cursor.next.position)) ∧
    (∀ (cursor : Cursor) (frame : Frame), cursor.frame = .ok frame →
      cursor.position < cursor.position + frame.size ∧
      cursor.position + frame.size ≤ cursor.data.length ∧
      frame.size = frame.kind.headSize + frame.body.length + frame.kind.tailSize ∧
      frame.body =
        (cursor.data.drop (cursor.position + frame.kind.headSize)).take frame.body.length) ∧
    (∀ cursor inner : Cursor, cursor.enter = .ok inner →
      inner.data.length < cursor.data.length) ∧
    (∀ steps : List ReadStep, ∀ outcome ∈ (ofBytes data).run steps,
      ∀ cursor ∈ outcome.2.places, Reaches data cursor) ∧
    (∀ (reader : Reader) (step : ReadStep), (reader.apply step).1.isRefusal = true →
      (reader.apply step).2 = reader) ∧
    Cursor.walkOn^[2 * data.length + 1] [Cursor.ofBytes data] = [] := by
  refine ⟨?places, ?elements, ?containers, ?readers, ?refusals, ?walks⟩
  case places =>
    intro cursor reached
    exact ⟨reached.within, Cursor.position_lt_next⟩
  case elements =>
    intro cursor frame found
    have bounds := Cursor.bounds_of_frame found
    have layout := Frame.laidOut_of_read found
    have body := layout.body
    rw [Cursor.rest, List.drop_drop] at body
    simp only [Cursor.remaining] at bounds
    exact ⟨by omega, by omega, layout.size, body⟩
  case containers =>
    intro cursor inner entered
    obtain ⟨frame, found, rfl⟩ := Cursor.eq_inside_of_enter entered
    have bounds := Cursor.bounds_of_frame found
    simp only [Cursor.inside, Cursor.remaining] at bounds ⊢
    omega
  case readers =>
    intro steps
    apply reaches_run
    exact List.forall_mem_singleton.mpr .start
  case refusals =>
    intro reader step
    exact apply_of_refusal
  case walks =>
    apply Cursor.iterate_walkOn
    rw [Cursor.load_singleton]
    exact Nat.le_refl _

end Reader

end Mounts

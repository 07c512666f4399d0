import Mounts.Proofs.Except
import Mounts.Proofs.Message.Reaching
import Mounts.Proofs.Spec.Lenient

/-!
# Specs that are refused

Reading a spec from a message comes to the spec, or to an error for the first part that is missing
(`read_eq_iff`).  Whoever is refused stays where they were (`refused_for_missing_parts`), and the
refusal is not held against them (`isInvalidArgument_of_read`).
-/

namespace Mounts

set_option autoImplicit false

open Message (Cursor Fault Frame Kind Value)

/-!
## What reading comes to

A spec is read from a struct that starts with a path and an array of structs.  Each of these three
parts is told from the bytes, with no condition on what lies in its body or behind it.

Reading comes to one of four outcomes: the spec, or an error that names the first part that is
missing.  `ComesTo` lists them, each with its condition on the bytes, and reading comes to nothing
else (`read_eq_iff`).
-/

namespace Spec

/-! ### What stands where -/

/-- A struct with a given body stands at a place where it may stand. -/
structure StructAt (cursor : Cursor) (body : List UInt8) : Prop where
  kept : cursor.declared.all (· == Kind.struct) = true
  short : body.length < Message.Length.bound
  ahead : ∃ rest, cursor.rest = framed body ++ rest

/-- Some bytes start with a path, and others follow it. -/
structure PathAhead (bytes : List UInt8) (path : String) (further : List UInt8) : Prop where
  clean : Text.hasNul path = false
  whole : bytes = (Value.cstring path).encode ++ further

/-- Some bytes start with an array that is declared to hold structs. -/
structure ItemsAhead (bytes items : List UInt8) : Prop where
  short : items.length < Message.Length.bound
  whole : ∃ rest, bytes = [Kind.array.code, Kind.struct.code] ++ Value.counted items ++ rest

variable {cursor after : Cursor}

theorem frameOf?_struct_eq_some_iff {frame : Frame} : cursor.frameOf? .struct = some frame ↔
    ∃ body, StructAt cursor body ∧ frame = ⟨.struct, none, body, body.length + 5⟩ := by
  constructor
  · intro found
    obtain ⟨read, kind⟩ := Cursor.frameOf?_eq_some_iff.mp found
    obtain ⟨kept, element, rest, spells, ahead⟩ := Frame.read_eq_ok_iff.mp read
    cases spells with
    | struct short => exact ⟨_, ⟨kept, short, rest, ahead⟩, rfl⟩
    | string | cstring | array => cases kind
  · rintro ⟨body, ⟨kept, short, rest, ahead⟩, rfl⟩
    exact (frameOf?_framed kept short ahead).1

theorem frameOf?_struct_eq_none_iff :
    cursor.frameOf? .struct = none ↔ ∀ body, ¬ StructAt cursor body := by
  rw [Option.eq_none_iff_forall_ne_some]
  constructor
  · intro missing body here
    exact missing _ (frameOf?_struct_eq_some_iff.mpr ⟨body, here, rfl⟩)
  · intro missing frame found
    obtain ⟨body, here, _⟩ := frameOf?_struct_eq_some_iff.mp found
    exact missing body here

/-- In front of an array of structs its frame is found, and no other array of structs is. -/
theorem frameOf?_items_iff (free : cursor.declared = none) {frame : Frame} :
    cursor.frameOf? .array = some frame ∧ frame.item = some .struct ↔
      ∃ items, ItemsAhead cursor.rest items ∧
        frame = ⟨.array, some .struct, items, items.length + 6⟩ := by
  constructor
  · rintro ⟨found, structs⟩
    obtain ⟨read, kind⟩ := Cursor.frameOf?_eq_some_iff.mp found
    obtain ⟨_, element, rest, spells, ahead⟩ := Frame.read_eq_ok_iff.mp read
    cases spells with
    | array item short =>
      cases structs
      exact ⟨_, ⟨short, rest, ahead⟩, rfl⟩
    | string | cstring | struct => cases kind
  · rintro ⟨items, ⟨short, rest, ahead⟩, rfl⟩
    refine ⟨Cursor.frameOf?_eq_some_iff.mpr ⟨Frame.read_eq_ok_iff.mpr ⟨?_, ?_⟩, rfl⟩, rfl⟩
    · rw [free]
      rfl
    · exact ⟨_, rest, .array .struct short, ahead⟩

/-- A path is read from bytes that start with it, and from no others. -/
theorem readText_path_iff {body : List UInt8} {path : String} :
    (Cursor.ofBytes body).readText .cstring = .ok (path, after) ↔
      (∃ further, PathAhead body path further) ∧
        after = (Cursor.ofBytes body).past (Value.cstring path).frame := by
  rw [Cursor.readText_cstring_iff]
  constructor
  · rintro ⟨_, proper, further, ahead, rfl⟩
    exact ⟨⟨further, proper, ahead⟩, rfl⟩
  · rintro ⟨⟨further, clean, whole⟩, rfl⟩
    exact ⟨rfl, clean, further, whole, rfl⟩

theorem PathAhead.rest_past {body further : List UInt8} {path : String}
    (ahead : PathAhead body path further) :
    ((Cursor.ofBytes body).past (Value.cstring path).frame).rest = further :=
  Cursor.rest_past_of_ahead (show (Cursor.ofBytes body).rest = _ from ahead.whole)

/-! ### Outcomes -/

/-- The spec of a path and of the items in some bytes. -/
def ofFields (path : String) (items : List UInt8) : Spec :=
  ⟨Params.ofPairs (readEntries ⟨items, 0, some .struct⟩), path⟩

section

variable {body further items : List UInt8} {path : String}

theorem readFields_of_no_path (missing : ∀ path further, ¬ PathAhead body path further) :
    readFields (Cursor.ofBytes body) = .error (.malformed .path) := by
  rw [readFields]
  split
  · rfl
  · next path after found =>
    obtain ⟨⟨further, ahead⟩, _⟩ := readText_path_iff.mp found
    exact absurd ahead (missing path further)

theorem readFields_of_no_items (ahead : PathAhead body path further)
    (missing : ∀ items, ¬ ItemsAhead further items) :
    readFields (Cursor.ofBytes body) = .error (.malformed .items) := by
  rw [readFields, readText_path_iff.mpr ⟨⟨further, ahead⟩, rfl⟩]
  dsimp only
  split
  · rfl
  · next frame found =>
    split
    · next structs =>
      obtain ⟨items, there, _⟩ := (frameOf?_items_iff rfl).mp ⟨found, structs⟩
      rw [ahead.rest_past] at there
      exact absurd there (missing items)
    · rfl

theorem readFields_of_items (ahead : PathAhead body path further)
    (there : ItemsAhead further items) :
    readFields (Cursor.ofBytes body) = .ok (ofFields path items) := by
  rw [← ahead.rest_past] at there
  obtain ⟨found, _⟩ := (frameOf?_items_iff rfl).mpr ⟨items, there, rfl⟩
  rw [readFields, readText_path_iff.mpr ⟨⟨further, ahead⟩, rfl⟩]
  dsimp only
  rw [found]
  dsimp only
  rw [if_pos rfl, ofParams, Option.getD_some, Text.untilNul_eq_self ahead.clean]
  rfl

theorem read_of_struct (here : StructAt cursor body) :
    read cursor = (readFields (Cursor.ofBytes body)).map fun spec =>
      (spec, ⟨cursor.data, cursor.position + (framed body).length, cursor.declared⟩) := by
  rw [read, frameOf?_struct_eq_some_iff.mpr ⟨body, here, rfl⟩, length_framed]
  rfl

theorem read_of_no_struct (missing : ∀ body, ¬ StructAt cursor body) :
    read cursor = .error (.malformed .whole) := by
  rw [read, frameOf?_struct_eq_none_iff.mpr missing]

end

/-- What reading a spec at a place comes to. -/
inductive ComesTo (cursor : Cursor) : Except SpecError (Spec × Cursor) → Prop
  /-- No struct stands there. -/
  | noStruct : (∀ body, ¬ StructAt cursor body) → ComesTo cursor (.error (.malformed .whole))
  /-- No path starts the struct. -/
  | noPath {body : List UInt8} : StructAt cursor body →
      (∀ path further, ¬ PathAhead body path further) → ComesTo cursor (.error (.malformed .path))
  /-- No array of structs follows the path. -/
  | noItems {body further : List UInt8} {path : String} : StructAt cursor body →
      PathAhead body path further → (∀ items, ¬ ItemsAhead further items) →
        ComesTo cursor (.error (.malformed .items))
  /-- A path and an array of structs start the struct. -/
  | spec {body further items : List UInt8} {path : String} : StructAt cursor body →
      PathAhead body path further → ItemsAhead further items →
        ComesTo cursor (.ok (ofFields path items,
          ⟨cursor.data, cursor.position + (framed body).length, cursor.declared⟩))

/-- **Reading a spec has four outcomes, each with its own condition on the bytes.** -/
theorem read_eq_iff {outcome : Except SpecError (Spec × Cursor)} :
    read cursor = outcome ↔ ComesTo cursor outcome := by
  constructor
  · rintro rfl
    by_cases some_struct : ∃ body, StructAt cursor body
    case neg =>
      rw [not_exists] at some_struct
      rw [read_of_no_struct some_struct]
      exact .noStruct some_struct
    obtain ⟨body, here⟩ := some_struct
    rw [read_of_struct here]
    by_cases some_path : ∃ path further, PathAhead body path further
    case neg =>
      simp only [not_exists] at some_path
      rw [readFields_of_no_path some_path]
      exact .noPath here some_path
    obtain ⟨path, further, ahead⟩ := some_path
    by_cases some_items : ∃ items, ItemsAhead further items
    case neg =>
      rw [not_exists] at some_items
      rw [readFields_of_no_items ahead some_items]
      exact .noItems here ahead some_items
    obtain ⟨items, there⟩ := some_items
    rw [readFields_of_items ahead there]
    exact .spec here ahead there
  · intro comes
    cases comes with
    | noStruct missing => exact read_of_no_struct missing
    | noPath here missing =>
      rw [read_of_struct here, readFields_of_no_path missing]
      rfl
    | noItems here ahead missing =>
      rw [read_of_struct here, readFields_of_no_items ahead missing]
      rfl
    | spec here ahead there =>
      rw [read_of_struct here, readFields_of_items ahead there]
      rfl

/-- A message that is refused is not held against whoever reads it. -/
theorem isInvalidArgument_of_read {why : SpecError} (refused : read cursor = .error why) :
    why.isInvalidArgument = false := by
  cases read_eq_iff.mp refused with
  | noStruct _ => rfl
  | noPath _ _ => rfl
  | noItems _ _ _ => rfl

end Spec

/-!
## Refusals

A spec is refused for the first of three parts that is missing, and whoever asks for it stays where
they were (`refused_for_missing_parts`).

Reading also asks for things that cannot fail: whoever has seen that a struct or an array stands at
a place can enter it.  `stepRead` asks for every one of them in turn, with a way out for each, and
comes to the same (`stepRead_of_read`, `stepRead_of_error`).

Every spec that is read takes some bytes, so whoever asks again and again is refused in the end, and
from then on for the same reason at the same place (`exists_refusal`).
-/

namespace Spec

variable {cursor after : Cursor}

/-! ### Reading step by step -/

/-- Why reading a spec step by step stops. -/
inductive Stop
  /-- A part of the spec is missing. -/
  | refused (why : SpecError)
  /-- An element that stands there could not be entered. -/
  | fault (why : Fault)
deriving Repr, DecidableEq

/-- The key and the value at the start of the current entry. -/
def stepItem (entries : Cursor) : Except Fault (String × String) := do
  let entry ← entries.enter
  let (key, further) ← entry.readText .string
  let (value, _) ← further.readText .cstring
  return (key, value)

/-- The entries from a cursor on for as long as structs follow, unreadable ones left out. -/
def stepEntries (cursor : Cursor) : List (String × String) :=
  if _found : cursor.kind? = some .struct then
    (stepItem cursor).toOption.toList ++ stepEntries cursor.next
  else []
termination_by cursor.remaining
decreasing_by
  obtain ⟨frame, found⟩ := Cursor.kind?_eq_some_iff.mp _found
  rw [Cursor.next_of_frameOf? found]
  exact Cursor.remaining_past (Cursor.frame_of_frameOf? found).1

/-- The spec whose fields start at a cursor: a path is read, an array looked for and entered. -/
def stepFields (fields : Cursor) : Except Stop Spec := do
  let (path, further) ← (fields.readText .cstring).mapError fun _ => .refused (.malformed .path)
  if further.kind? = some .array ∧ further.itemKind? = some .struct then
    let entries ← further.enter.mapError .fault
    return ofParams (Params.ofPairs (stepEntries entries)) (some path)
  else .error (.refused (.malformed .items))

/-- The spec at a cursor: a struct is looked for and entered. -/
def stepSpec (cursor : Cursor) : Except Stop Spec := do
  if cursor.kind? = some .struct then
    let fields ← cursor.enter.mapError .fault
    stepFields fields
  else .error (.refused (.malformed .whole))

/-- What comes of reading a spec step by step, and the place afterwards.  Only when all steps are
done does the place move. -/
def stepRead (cursor : Cursor) : Except Stop Spec × Cursor :=
  match stepSpec cursor with
  | .ok spec => (.ok spec, cursor.next)
  | .error why => (.error why, cursor)

theorem toOption_stepItem {frame : Frame} (found : cursor.frameOf? .struct = some frame) :
    (stepItem cursor).toOption = readItem? (Cursor.inside frame) := by
  rw [stepItem, Cursor.enter_of_frameOf? found (.inl rfl), readItem?]
  cases key : (Cursor.inside frame).readText .string with
  | error fault => simp [Except.toOption, key]
  | ok read =>
    cases value : read.2.readText .cstring with
    | error fault => simp [Except.toOption, key, value]
    | ok read => simp [Except.toOption, key, value]

theorem stepEntries_eq (cursor : Cursor) : stepEntries cursor = readEntries cursor := by
  rw [stepEntries]
  split
  · next some_struct =>
    obtain ⟨frame, found⟩ := Cursor.kind?_eq_some_iff.mp some_struct
    rw [readEntries_of_some found, toOption_stepItem found, Cursor.next_of_frameOf? found,
      stepEntries_eq (cursor.past frame)]
  · next no_struct =>
    rw [Cursor.kind?_eq_some_iff, not_exists] at no_struct
    exact (readEntries_of_none (Option.eq_none_iff_forall_ne_some.mpr no_struct)).symm
termination_by cursor.remaining
decreasing_by exact Cursor.remaining_past (Cursor.frame_of_frameOf? found).1

/-- Behind the test for an array the steps cannot fail. -/
theorem stepFields_eq (fields : Cursor) :
    stepFields fields = (readFields fields).mapError .refused := by
  rw [stepFields, readFields]
  cases fields.readText .cstring with
  | error fault => rfl
  | ok read =>
    obtain ⟨path, further⟩ := read
    cases found : further.frameOf? .array with
    | none =>
      have no_array : ¬ further.kind? = some .array := by
        rw [Cursor.kind?_eq_some_iff, found]
        rintro ⟨frame, there⟩
        cases there
      simp [found, no_array]
    | some frame =>
      have array : further.kind? = some .array := Cursor.kind?_eq_some_iff.mpr ⟨frame, found⟩
      have entered := Cursor.enter_of_frameOf? found (.inr rfl)
      have item := Cursor.itemKind?_of_frameOf? found
      by_cases structs : frame.item = some .struct
      · simp [found, array, entered, item, structs, stepEntries_eq]
      · simp [found, item, structs]

/-- Behind the test for a struct entering it cannot fail. -/
theorem stepSpec_eq (cursor : Cursor) :
    stepSpec cursor = ((read cursor).map Prod.fst).mapError .refused := by
  rw [stepSpec, read]
  cases found : cursor.frameOf? .struct with
  | none =>
    have no_struct : ¬ cursor.kind? = some .struct := by
      rw [Cursor.kind?_eq_some_iff, found]
      rintro ⟨frame, there⟩
      cases there
    rw [if_neg no_struct]
    rfl
  | some frame =>
    have struct : cursor.kind? = some .struct := Cursor.kind?_eq_some_iff.mpr ⟨frame, found⟩
    rw [if_pos struct, Cursor.enter_of_frameOf? found (.inl rfl)]
    change stepFields (Cursor.inside frame) = _
    rw [stepFields_eq]
    dsimp only
    cases readFields (Cursor.inside frame) with
    | error why => rfl
    | ok spec => rfl

/-- Step by step the same specs are read. -/
theorem stepRead_of_read {spec : Spec} (accepted : read cursor = .ok (spec, after)) :
    stepRead cursor = (.ok spec, after) := by
  rw [stepRead, stepSpec_eq, accepted, eq_next_of_read accepted]
  rfl

/-- Step by step the same errors come up, no step fails otherwise, and the place stays. -/
theorem stepRead_of_error {why : SpecError} (refused : read cursor = .error why) :
    stepRead cursor = (.error (.refused why), cursor) := by
  rw [stepRead, stepSpec_eq, refused]
  rfl

end Spec

namespace Reader

/-! ### Asking again and again -/

/-- The reader after it was asked for a spec a number of times. -/
def asked (reader : Reader) (times : Nat) : Reader :=
  (fun reader => (reader.apply .spec).2)^[times] reader

theorem asked_succ (reader : Reader) (times : Nat) :
    reader.asked (times + 1) = (reader.apply .spec).2.asked times :=
  Function.iterate_succ_apply _ _ _

/-- **Whoever asks again and again is refused in the end, and from then on in the same way.** -/
theorem exists_refusal (reader : Reader) : ∃ count ≤ reader.current.remaining, ∃ why,
    (∀ times < count, ∃ spec, ((reader.asked times).apply .spec).1 = .spec spec) ∧
    ∀ times, count ≤ times → reader.asked times = reader.asked count ∧
      (reader.asked times).apply .spec = (.failed why, reader.asked count) := by
  cases outcome : Spec.read reader.current with
  | error why =>
    have stays (times : Nat) : reader.asked times = reader :=
      Function.iterate_fixed (congrArg Prod.snd (apply_spec_of_error outcome)) times
    refine ⟨0, Nat.zero_le _, why, fun times none => absurd none (Nat.not_lt_zero _),
      fun times _ => ?_⟩
    rw [stays times, stays 0]
    exact ⟨rfl, apply_spec_of_error outcome⟩
  | ok read =>
    obtain ⟨spec, after⟩ := read
    have answered := apply_spec_of_read outcome
    have fewer := Spec.remaining_read outcome
    obtain ⟨count, within, why, accepted, refused⟩ := exists_refusal ⟨after, reader.outer⟩
    have later (times : Nat) :
        reader.asked (times + 1) = Reader.asked ⟨after, reader.outer⟩ times := by
      rw [asked_succ, answered]
    refine ⟨count + 1, Nat.lt_of_le_of_lt within fewer, why, fun times early => ?_,
      fun times late => ?_⟩
    · cases times with
      | zero => exact ⟨spec, congrArg Prod.fst answered⟩
      | succ times =>
        rw [later]
        exact accepted times (Nat.lt_of_succ_lt_succ early)
    · cases times with
      | zero => exact absurd late (Nat.not_succ_le_zero count)
      | succ times =>
        rw [later, later]
        exact refused times (Nat.le_of_succ_le_succ late)
termination_by reader.current.remaining
decreasing_by exact fewer

end Reader

namespace Spec

/-- **A spec is refused for one of three missing parts, and nothing changes when it is.** -/
theorem refused_for_missing_parts :
    (∀ cursor : Cursor,
      (∀ spec after, read cursor = .ok (spec, after) ↔ ∃ body path further items,
        StructAt cursor body ∧ PathAhead body path further ∧ ItemsAhead further items ∧
          spec = ofFields path items ∧
          after = ⟨cursor.data, cursor.position + (framed body).length, cursor.declared⟩) ∧
      (read cursor = .error (.malformed .whole) ↔ ¬ ∃ body, StructAt cursor body) ∧
      (read cursor = .error (.malformed .path) ↔ ∃ body, StructAt cursor body ∧
        ¬ ∃ path further, PathAhead body path further) ∧
      (read cursor = .error (.malformed .items) ↔ ∃ body path further,
        StructAt cursor body ∧ PathAhead body path further ∧
          ¬ ∃ items, ItemsAhead further items) ∧
      (∀ why, read cursor = .error why → ∃ part, why = .malformed part) ∧
      (∀ spec after, read cursor = .ok (spec, after) → stepRead cursor = (.ok spec, after)) ∧
      (∀ why, read cursor = .error why → stepRead cursor = (.error (.refused why), cursor)) ∧
      ∀ fault, (stepRead cursor).1 ≠ .error (.fault fault)) ∧
    (SpecPart.whole.expectation = "expected a mount spec struct" ∧
      SpecPart.path.expectation = "expected a mount path" ∧
      SpecPart.items.expectation = "expected an array of mount spec items") ∧
    ∀ reader : Reader, ∃ count ≤ reader.current.remaining, ∃ why,
      (∀ times < count, ∃ spec, ((reader.asked times).apply .spec).1 = .spec spec) ∧
      ∀ times, count ≤ times → reader.asked times = reader.asked count ∧
        (reader.asked times).apply .spec = (.failed why, reader.asked count) := by
  refine ⟨fun cursor => ⟨?read, ?whole, ?path, ?items, ?others, fun spec after => stepRead_of_read,
    fun why => stepRead_of_error, ?faults⟩, ⟨rfl, rfl, rfl⟩, Reader.exists_refusal⟩
  case read =>
    intro spec after
    rw [read_eq_iff]
    constructor
    · intro comes
      cases comes with
      | spec here ahead there => exact ⟨_, _, _, _, here, ahead, there, rfl, rfl⟩
    · rintro ⟨body, path, further, items, here, ahead, there, rfl, rfl⟩
      exact .spec here ahead there
  case whole =>
    rw [read_eq_iff, not_exists]
    constructor
    · intro comes
      cases comes with
      | noStruct missing => exact missing
    · exact .noStruct
  case path =>
    rw [read_eq_iff]
    constructor
    · intro comes
      cases comes with
      | noPath here missing =>
        refine ⟨_, here, ?_⟩
        rintro ⟨path, further, ahead⟩
        exact missing path further ahead
    · rintro ⟨body, here, missing⟩
      exact .noPath here fun path further ahead => missing ⟨path, further, ahead⟩
  case items =>
    rw [read_eq_iff]
    constructor
    · intro comes
      cases comes with
      | noItems here ahead missing => exact ⟨_, _, _, here, ahead, not_exists.mpr missing⟩
    · rintro ⟨body, path, further, here, ahead, missing⟩
      exact .noItems here ahead (not_exists.mp missing)
  case others =>
    intro why refused
    cases read_eq_iff.mp refused with
    | noStruct | noPath | noItems => exact ⟨_, rfl⟩
  case faults =>
    intro fault failed
    cases outcome : read cursor with
    | error why =>
      rw [stepRead_of_error outcome] at failed
      cases failed
    | ok read =>
      obtain ⟨spec, after⟩ := read
      rw [stepRead_of_read outcome] at failed
      cases failed

/-- The fields of a spec with an array of texts in place of the items. -/
def textFields : List UInt8 :=
  (Value.cstring "/").encode ++ [Kind.array.code, Kind.string.code, 0, 0, 0, 0]

/-- Behind two bytes of something else, a struct with an array of texts is refused for its items
step by step, the place stays, and whoever asks again is told the same. -/
theorem refused_for_missing_parts_texts :
    read ⟨[7, 7] ++ framed textFields, 2, none⟩ = .error (.malformed .items) ∧
      stepRead ⟨[7, 7] ++ framed textFields, 2, none⟩ =
        (.error (.refused (.malformed .items)), ⟨[7, 7] ++ framed textFields, 2, none⟩) ∧
      ∃ count why, ∀ times, count ≤ times →
        ((Reader.asked ⟨⟨[7, 7] ++ framed textFields, 2, none⟩, []⟩ times).apply .spec).1 =
          .failed why := by
  obtain ⟨places, _, asking⟩ := refused_for_missing_parts
  obtain ⟨_, _, _, items_iff, _, _, stepwise, _⟩ := places ⟨[7, 7] ++ framed textFields, 2, none⟩
  have here : StructAt ⟨[7, 7] ++ framed textFields, 2, none⟩ textFields :=
    ⟨rfl, by decide, [], by decide⟩
  have ahead : PathAhead textFields "/" [Kind.array.code, Kind.string.code, 0, 0, 0, 0] :=
    ⟨by decide, rfl⟩
  have no_items :
      ¬ ∃ items, ItemsAhead [Kind.array.code, Kind.string.code, 0, 0, 0, 0] items := by
    rintro ⟨items, _, rest, whole⟩
    have second : Kind.string.code = Kind.struct.code :=
      (List.cons.inj (List.cons.inj whole).2).1
    exact absurd second (by decide)
  have refused := items_iff.mpr ⟨_, _, _, here, ahead, no_items⟩
  obtain ⟨count, _, why, _, always⟩ :=
    asking ⟨⟨[7, 7] ++ framed textFields, 2, none⟩, []⟩
  exact ⟨refused, stepwise _ refused, count, why, fun times late =>
    congrArg Prod.fst (always times late).2⟩

end Spec

end Mounts

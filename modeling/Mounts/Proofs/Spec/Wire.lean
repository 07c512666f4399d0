import Mounts.Proofs.Message.Settling
import Mounts.Proofs.Spec.Built
import Mounts.Spec.Wire

/-!
# Specs sent and received

A spec that can be built makes a proper value, so writing it meets no fault as long as its lengths
can be written (`Built.well_formed`).

Reading where a spec was written gives its parameters back and, as its scope, the announced path or
else its own scope, and stops right behind it.  This holds in every container that may hold structs,
after any elements and before any others; and specs written one after another are read one after
another, up to the end of the message (`wire_round_trip`).
-/

namespace Mounts.Spec

set_option autoImplicit false

open Message (Cursor Draft Frame Kind Value Writer)

/-! ## Writing -/

/-- What a peer is told: a spec with the announced path as its scope, if one is announced. -/
def announced (spec : Spec) (path : Option String) : Spec :=
  ⟨spec.params, (path.map Text.untilNul).getD spec.scope⟩

theorem hasNul_announced {spec : Spec} (valid : spec.Valid) (path : Option String) :
    Text.hasNul (spec.announced path).scope = false := by
  cases path with
  | none => exact valid.scope
  | some path => exact Text.hasNul_untilNul path

theorem proper_entryValue {entry : String × String}
    (clean : Text.hasNul entry.1 = false ∧ Text.hasNul entry.2 = false) :
    (entryValue entry).Proper := by
  rw [entryValue, Value.Proper, Value.properAll_iff, List.forall_mem_cons,
    List.forall_mem_singleton, Value.Proper, Value.Proper]
  exact clean

/-- Nothing in a valid spec keeps it from being written. -/
theorem proper_toValue {spec : Spec} (valid : spec.Valid) (path : Option String) :
    (spec.toValue path).Proper := by
  rw [toValue, Value.Proper, Value.properAll_iff, List.forall_mem_cons, List.forall_mem_singleton,
    Value.Proper, Value.Proper, Value.properAll_iff, List.forall_mem_map, List.forall_mem_map]
  refine ⟨hasNul_announced valid path, fun entry found => ?_, fun entry _ => rfl⟩
  exact proper_entryValue (valid.params entry found)

theorem writeTo_of_valid {spec : Spec} (valid : spec.Valid) (path : Option String)
    (fits : (spec.toValue path).Fits) (writer : Writer) :
    spec.writeTo path writer = (none, ⟨writer.bytes ++ spec.toWire path⟩) := by
  rw [writeTo, Writer.extend, Draft.write_ofValue (proper_toValue valid path) fits]
  rfl

/-- What was written without a fault are the bytes of the spec, and their lengths fit. -/
theorem fits_of_writeTo {spec : Spec} {path : Option String} {writer written : Writer}
    (done : spec.writeTo path writer = (none, written)) :
    (spec.toValue path).Fits ∧ written.bytes = writer.bytes ++ spec.toWire path := by
  obtain ⟨whole, countable⟩ := Draft.encode_of_write (Writer.write_of_extend done)
  exact ⟨countable (by simp [toValue, Value.kind]), whole⟩

/-- A valid spec is written without a fault exactly if its lengths fit. -/
theorem writeTo_faultless_iff {spec : Spec} (valid : spec.Valid) (path : Option String)
    (writer : Writer) : (spec.writeTo path writer).1 = none ↔ (spec.toValue path).Fits := by
  constructor
  · intro faultless
    have done : spec.writeTo path writer = (none, (spec.writeTo path writer).2) :=
      Prod.ext faultless rfl
    exact (fits_of_writeTo done).1
  · intro fits
    rw [writeTo_of_valid valid path fits]

/-- **A spec that can be built has strictly increasing keys, in the order of their bytes, and holds
no NUL, so it can be written behind any message with any path announced for it.** -/
theorem Built.well_formed {spec : Spec} (built : spec.Built) :
    (spec.params.keys.map Text.utf8).Pairwise (· < ·) ∧
      (∀ entry ∈ spec.params.entries,
        Text.hasNul entry.1 = false ∧ Text.hasNul entry.2 = false) ∧
      Text.hasNul spec.scope = false ∧
      ∀ (path : Option String) (writer : Writer), (spec.toValue path).Fits →
        spec.writeTo path writer = (none, ⟨writer.bytes ++ spec.toWire path⟩) := by
  have valid := built.valid
  refine ⟨?_, valid.params, valid.scope, fun path writer fits => ?_⟩
  · have increasing := Keyed.increasing_iff_keys.mp spec.params.increasing
    exact List.pairwise_map.mpr (increasing.imp Text.utf8_lt_utf8.mpr)
  · exact writeTo_of_valid valid path fits writer

/-- The guest spec behind one byte that is there already. -/
theorem Built.well_formed_guest : guest.Built ∧ (guest.toValue (some "/pub/a")).Fits ∧
    guest.writeTo (some "/pub/a") ⟨[7]⟩ = (none, ⟨[7] ++ guest.toWire (some "/pub/a")⟩) := by
  have fits : (guest.toValue (some "/pub/a")).Fits := by
    rw [Value.Fits]
    decide +kernel
  obtain ⟨_, _, _, written⟩ := Built.well_formed guest_built
  exact ⟨guest_built, fits, written (some "/pub/a") ⟨[7]⟩ fits⟩

/-! ## Reading -/

/-- The two texts of an entry are read back. -/
theorem readItem?_entry {entry : String × String}
    (clean : Text.hasNul entry.1 = false ∧ Text.hasNul entry.2 = false)
    (fits : (entryValue entry).Fits) :
    readItem? (Cursor.inside (entryValue entry).frame) = some entry := by
  have first : (Cursor.inside (entryValue entry).frame).At (.string entry.1)
      (Value.encodeAll [.cstring entry.2]) := {
    ahead := rfl
    proper := clean.1
    fits := Value.fits_of_mem List.mem_cons_self fits
    kept := rfl }
  have second : ((Cursor.inside (entryValue entry).frame).past (Value.string entry.1).frame).At
      (.cstring entry.2) (Value.encodeAll []) := {
    ahead := Cursor.rest_past first
    proper := clean.2
    fits := Value.fits_of_mem (List.mem_cons_of_mem _ List.mem_cons_self) fits
    kept := rfl }
  rw [readItem?, Cursor.readText_string first]
  dsimp only [Except.toOption, bind, Option.bind]
  rw [Cursor.readText_cstring second]
  rfl

/-- No struct is found where a container ends. -/
theorem frameOf?_of_ended {cursor : Cursor} (ended : cursor.rest = []) (kind : Kind) :
    cursor.frameOf? kind = none := by
  rw [Cursor.frameOf?, Cursor.frame, ended]
  rfl

theorem readEntries_of_none {cursor : Cursor} (missing : cursor.frameOf? .struct = none) :
    readEntries cursor = [] := by
  rw [readEntries]
  split
  · rfl
  · next found =>
    rw [missing] at found
    cases found

theorem readEntries_of_some {cursor : Cursor} {frame : Frame}
    (here : cursor.frameOf? .struct = some frame) :
    readEntries cursor =
      (readItem? (Cursor.inside frame)).toList ++ readEntries (cursor.past frame) := by
  rw [readEntries]
  split
  · next found =>
    rw [here] at found
    cases found
  · next found =>
    rw [here] at found
    cases found
    rfl

/-- The entries of an array are read back in order. -/
theorem readEntries_entries {entries : List (String × String)}
    (clean : ∀ entry ∈ entries, Text.hasNul entry.1 = false ∧ Text.hasNul entry.2 = false)
    (short : (Value.encodeAll (entries.map entryValue)).length < Message.Length.bound)
    {cursor : Cursor}
    (structs : cursor.declared = some .struct)
    (ahead : cursor.rest = Value.encodeAll (entries.map entryValue)) :
    readEntries cursor = entries := by
  induction entries generalizing cursor with
  | nil => exact readEntries_of_none (frameOf?_of_ended ahead .struct)
  | cons entry entries ih =>
    rw [List.forall_mem_cons] at clean
    have fits : (entryValue entry).Fits := Value.fits_of_mem List.mem_cons_self short
    have here : cursor.At (entryValue entry) (Value.encodeAll (entries.map entryValue)) := {
      ahead := ahead
      proper := proper_entryValue clean.1
      fits := fits
      kept := by rw [structs]; rfl }
    rw [List.map_cons, Value.encodeAll, List.length_append] at short
    have further : readEntries (cursor.past (entryValue entry).frame) = entries :=
      ih clean.2 (by omega) structs (Cursor.rest_past here)
    have struct : cursor.frameOf? .struct = some (entryValue entry).frame := Cursor.frameOf?_at here
    rw [readEntries_of_some struct, readItem?_entry clean.1 fits, further]
    rfl

/-- The array in which a spec's parameters are written. -/
def itemsValue (spec : Spec) : Value :=
  .array .struct (spec.params.entries.map entryValue)

theorem readFields_toValue {spec : Spec} (valid : spec.Valid) (path : Option String)
    (fits : (spec.toValue path).Fits) :
    readFields (Cursor.inside (spec.toValue path).frame) = .ok (spec.announced path) := by
  have clean := hasNul_announced valid path
  have parts := Value.properAll_iff.mp (proper_toValue valid path)
  have first : (Cursor.inside (spec.toValue path).frame).At (.cstring (spec.announced path).scope)
      (Value.encodeAll [spec.itemsValue]) := {
    ahead := rfl
    proper := clean
    fits := Value.fits_of_mem List.mem_cons_self fits
    kept := rfl }
  have items_fit : spec.itemsValue.Fits :=
    Value.fits_of_mem (List.mem_cons_of_mem _ List.mem_cons_self) fits
  have second : ((Cursor.inside (spec.toValue path).frame).past
      (Value.cstring (spec.announced path).scope).frame).At spec.itemsValue
        (Value.encodeAll []) := {
    ahead := Cursor.rest_past first
    proper := parts _ (List.mem_cons_of_mem _ List.mem_cons_self)
    fits := items_fit
    kept := rfl }
  have array : Cursor.frameOf? _ .array = some spec.itemsValue.frame := Cursor.frameOf?_at second
  have declares : spec.itemsValue.frame.item = some .struct := rfl
  have entries : readEntries (Cursor.inside spec.itemsValue.frame) = spec.params.entries :=
    readEntries_entries valid.params items_fit rfl rfl
  rw [readFields, Cursor.readText_cstring first]
  dsimp only
  rw [array]
  dsimp only
  rw [if_pos declares, entries, Params.ofPairs_entries valid.params, ofParams, Option.getD_some,
    Text.untilNul_eq_self clean]
  rfl

/-- A spec is read back where it stands, and the place behind it is next. -/
theorem read_toWire {spec : Spec} (valid : spec.Valid) {path : Option String}
    (fits : (spec.toValue path).Fits) {cursor : Cursor} {further : List UInt8}
    (structs : cursor.declared.all (· == .struct) = true)
    (ahead : cursor.rest = spec.toWire path ++ further) :
    read cursor = .ok (spec.announced path, cursor.past (spec.toValue path).frame) := by
  have here : cursor.At (spec.toValue path) further := {
    ahead := ahead
    proper := proper_toValue valid path
    fits := fits
    kept := structs }
  have struct : cursor.frameOf? .struct = some (spec.toValue path).frame := Cursor.frameOf?_at here
  rw [read, struct]
  dsimp only
  rw [readFields_toValue valid path fits]
  rfl

/-! ## Specs in messages -/

/-- The place behind a written spec is the number of bytes that were there once it was written. -/
theorem read_written {spec : Spec} (valid : spec.Valid) {path : Option String}
    (fits : (spec.toValue path).Fits) {declared : Option Kind}
    (structs : declared.all (· == .struct) = true) (before added : List UInt8) :
    read ⟨before ++ spec.toWire path ++ added, before.length, declared⟩ =
      .ok (spec.announced path, ⟨before ++ spec.toWire path ++ added,
        (before ++ spec.toWire path).length, declared⟩) := by
  have ahead : Cursor.rest ⟨before ++ spec.toWire path ++ added, before.length, declared⟩ =
      spec.toWire path ++ added := by
    rw [Cursor.rest, List.append_assoc, List.drop_left]
  rw [read_toWire valid fits structs ahead, List.length_append]
  rfl

/-- Appends specs one after another, each with the path announced for it. -/
def writeEach (writer : Writer) (specs : List (Spec × Option String)) : Writer :=
  specs.foldl (fun longer spec => (spec.1.writeTo spec.2 longer).2) writer

theorem writeEach_eq_extendAll (writer : Writer) (specs : List (Spec × Option String)) :
    writeEach writer specs = writer.extendAll (specs.map fun spec =>
      .ofValue (spec.1.toValue spec.2)) := by
  rw [Writer.extendAll, List.foldl_map]
  rfl

theorem readSequence_of_error {cursor : Cursor} {why : SpecError}
    (refused : read cursor = .error why) :
    readSequence cursor = [(.error why, cursor.position)] := by
  rw [readSequence]
  split
  · next again =>
    rw [refused] at again
    cases again
    rfl
  · next again =>
    rw [refused] at again
    cases again

theorem readSequence_of_ok {cursor after : Cursor} {spec : Spec}
    (accepted : read cursor = .ok (spec, after)) :
    readSequence cursor = (.ok spec, after.position) :: readSequence after := by
  rw [readSequence]
  split
  · next again =>
    rw [accepted] at again
    cases again
  · next again =>
    rw [accepted] at again
    cases again
    rfl

/-- Specs written one after another are read in order, and then the message ends. -/
theorem readSequence_writeEach {specs : List (Spec × Option String)}
    (valid : ∀ spec ∈ specs, spec.1.Valid) (fits : ∀ spec ∈ specs, (spec.1.toValue spec.2).Fits)
    {declared : Option Kind} (structs : declared.all (· == .struct) = true) (writer : Writer) :
    ∃ earlier, readSequence ⟨(writeEach writer specs).bytes, writer.bytes.length, declared⟩ =
        earlier ++ [(.error (.malformed .whole), (writeEach writer specs).bytes.length)] ∧
      earlier.map (·.1) = specs.map fun spec => .ok (spec.1.announced spec.2) := by
  induction specs generalizing writer with
  | nil =>
    have ended : Cursor.rest ⟨writer.bytes, writer.bytes.length, declared⟩ = [] := List.drop_length
    have refused : read ⟨writer.bytes, writer.bytes.length, declared⟩ =
        .error (.malformed .whole) := by
      rw [read, frameOf?_of_ended ended]
    exact ⟨[], readSequence_of_error refused, rfl⟩
  | cons spec specs ih =>
    rw [List.forall_mem_cons] at valid fits
    have written := writeTo_of_valid valid.1 spec.2 fits.1 writer
    have grown : writeEach writer (spec :: specs) =
        writeEach ⟨writer.bytes ++ spec.1.toWire spec.2⟩ specs := by
      rw [writeEach, List.foldl_cons, written]
      rfl
    obtain ⟨earlier, sequence, outcomes⟩ :=
      ih valid.2 fits.2 ⟨writer.bytes ++ spec.1.toWire spec.2⟩
    obtain ⟨added, whole⟩ := Writer.bytes_extendAll ⟨writer.bytes ++ spec.1.toWire spec.2⟩
      (specs.map fun spec => .ofValue (spec.1.toValue spec.2))
    rw [← writeEach_eq_extendAll] at whole
    have first := read_written valid.1 fits.1 structs writer.bytes added
    rw [← whole] at first
    rw [grown, readSequence_of_ok first, sequence]
    exact ⟨(.ok (spec.1.announced spec.2),
      (writer.bytes ++ spec.1.toWire spec.2).length) :: earlier, rfl, congrArg _ outcomes⟩

/-- **A spec that can be built is read back wherever it was written, with the announced path in
place of its scope**, and reading stops right behind it. -/
theorem wire_round_trip :
    (∀ (spec : Spec) (path : Option String), spec.Built → (spec.toValue path).Fits →
      ∀ (writer : Writer) (later : List Draft), ∀ declared ∈ [none, some Kind.struct],
        ∃ written : Writer, spec.writeTo path writer = (none, written) ∧
          ∀ message, message = (written.extendAll later).bytes →
            read ⟨message, writer.bytes.length, declared⟩ =
              .ok (spec.announced path, ⟨message, written.bytes.length, declared⟩)) ∧
    (∀ (spec : Spec) (path : Option String), spec.Built → (spec.toValue path).Fits →
      ∀ (outer longer : Writer) (before after later : List Draft) (around : Option Kind),
        ∀ declared ∈ [none, some Kind.struct],
          outer.extend (.container declared (before ++ .ofValue (spec.toValue path) :: after)) =
              (none, longer) →
          around.all (· == Kind.ofContainer declared) = true →
          ∃ body : List UInt8,
            Cursor.enter ⟨(longer.extendAll later).bytes, outer.bytes.length, around⟩ =
                .ok ⟨body, 0, declared⟩ ∧
              read ⟨body, (Writer.empty.extendAll before).bytes.length, declared⟩ =
                .ok (spec.announced path, ⟨body,
                  (spec.writeTo path (Writer.empty.extendAll before)).2.bytes.length, declared⟩)) ∧
    (∀ specs : List (Spec × Option String),
      (∀ spec ∈ specs, spec.1.Built ∧ (spec.1.toValue spec.2).Fits) →
        ∀ writer : Writer, ∀ declared ∈ [none, some Kind.struct],
          ∃ earlier, readSequence ⟨(writeEach writer specs).bytes, writer.bytes.length, declared⟩ =
              earlier ++ [(.error (.malformed .whole), (writeEach writer specs).bytes.length)] ∧
            earlier.map (·.1) = specs.map fun spec => .ok (spec.1.announced spec.2)) := by
  have structs_of : ∀ declared ∈ [none, some Kind.struct],
      declared.all (· == .struct) = true := by decide
  refine ⟨?single, ?contained, ?sequence⟩
  case single =>
    intro spec path built fits writer later declared container
    refine ⟨_, writeTo_of_valid built.valid path fits writer, ?_⟩
    rintro message rfl
    obtain ⟨added, whole⟩ := Writer.bytes_extendAll ⟨writer.bytes ++ spec.toWire path⟩ later
    rw [whole]
    exact read_written built.valid fits (structs_of declared container) writer.bytes added
  case contained =>
    intro spec path built fits outer longer before after later around declared container written
      kept
    refine ⟨_, Cursor.enter_container written later kept, ?_⟩
    have body : Writer.empty.extendAll (before ++ .ofValue (spec.toValue path) :: after) =
        (spec.writeTo path (Writer.empty.extendAll before)).2.extendAll after :=
      List.foldl_append
    rw [body, writeTo_of_valid built.valid path fits]
    obtain ⟨added, whole⟩ := Writer.bytes_extendAll
      ⟨(Writer.empty.extendAll before).bytes ++ spec.toWire path⟩ after
    rw [whole]
    exact read_written built.valid fits (structs_of declared container) _ added
  case sequence =>
    intro specs each writer declared container
    exact readSequence_writeEach (fun spec found => (each spec found).1.valid)
      (fun spec found => (each spec found).2) (structs_of declared container) writer

/-- The guest spec between other elements, in an array of structs, and written twice. -/
theorem wire_round_trip_guest :
    (∃ written : Writer, guest.writeTo (some "/a") ⟨[0]⟩ = (none, written) ∧
      ∀ message, message = (written.extendAll [.cstring "x"]).bytes →
        read ⟨message, 1, none⟩ =
          .ok (⟨guest.params, "/a"⟩, ⟨message, written.bytes.length, none⟩)) ∧
    (∃ body : List UInt8,
      Cursor.enter ⟨(Writer.empty.extend
          (.container (some .struct) [.struct [], .ofValue (guest.toValue none)])).2.bytes,
        0, none⟩ = .ok ⟨body, 0, some .struct⟩ ∧
        read ⟨body, 5, some .struct⟩ = .ok (guest, ⟨body, 58, some .struct⟩)) ∧
    ∃ earlier,
      readSequence ⟨(writeEach .empty [(guest, none), (guest, some "/a")]).bytes, 0, none⟩ =
        earlier ++ [(.error (.malformed .whole), 104)] ∧
      earlier.map (·.1) = [.ok guest, .ok ⟨guest.params, "/a"⟩] := by
  have fits : (guest.toValue none).Fits := by
    rw [Value.Fits]
    decide +kernel
  have fits_announced : (guest.toValue (some "/a")).Fits := by
    rw [Value.Fits]
    decide +kernel
  obtain ⟨single, contained, sequence⟩ := wire_round_trip
  refine ⟨?_, ?_, ?_⟩
  · exact single guest (some "/a") guest_built fits_announced ⟨[0]⟩ [.cstring "x"] none
      List.mem_cons_self
  · have written : Writer.empty.extend
        (.container (some .struct) ([.struct []] ++ .ofValue (guest.toValue none) :: [])) =
          (none, (Writer.empty.extend
            (.container (some .struct) [.struct [], .ofValue (guest.toValue none)])).2) :=
      Prod.ext (by decide +kernel) rfl
    have behind :
        (guest.writeTo none (Writer.empty.extendAll [.struct []])).2.bytes.length = 58 := by
      decide +kernel
    have second := contained guest none guest_built fits .empty _ [.struct []] [] [] none
      (some .struct) (List.mem_cons_of_mem _ List.mem_cons_self) written rfl
    rw [behind] at second
    exact second
  · have ending : (writeEach .empty [(guest, none), (guest, some "/a")]).bytes.length = 104 := by
      decide +kernel
    have third := sequence [(guest, none), (guest, some "/a")]
      (List.forall_mem_cons.mpr ⟨⟨guest_built, fits⟩, List.forall_mem_singleton.mpr
        ⟨guest_built, fits_announced⟩⟩) .empty none List.mem_cons_self
    rw [ending] at third
    exact third

end Mounts.Spec

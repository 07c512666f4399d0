import Mounts.Proofs.Message.Elements
import Mounts.Proofs.Spec.Wire

/-!
# Specs among damaged entries

A peer may send entries that are damaged, that hold more than a key and a value, or that hold
something else altogether.  Each entry is framed by its length, so what is inside one entry has no
bearing on where the next one starts.

An entry counts exactly if its body starts with a text that has its length in front, for the key,
and one that a NUL ends, for the value (`itemOf?_eq_some_iff`).  The entries that count are stored
one after another, and nothing else in the message has any influence on the spec
(`read_among_damage`).
-/

namespace Mounts.Spec

set_option autoImplicit false

open Message (Cursor Frame Kind Value)

/-! ## Single entries -/

/-- The body of an entry starts with a key and a value, whatever follows them. -/
structure StartsWith (body : List UInt8) (entry : String × String) : Prop where
  key_fits : (Value.string entry.1).Fits
  value_proper : (Value.cstring entry.2).Proper
  ahead : ∃ rest, body = (Value.string entry.1).encode ++ (Value.cstring entry.2).encode ++ rest

/-- The key and the value that count for the body of an entry. -/
def itemOf? (body : List UInt8) : Option (String × String) :=
  readItem? (Cursor.ofBytes body)

theorem readItem?_eq_some_iff {cursor : Cursor} {entry : String × String} :
    readItem? cursor = some entry ↔ ∃ further after,
      cursor.readText .string = .ok (entry.1, further) ∧
        further.readText .cstring = .ok (entry.2, after) := by
  rw [readItem?]
  cases key : cursor.readText .string with
  | error fault => simp [Except.toOption, bind]
  | ok read =>
    obtain ⟨text, further⟩ := read
    cases value : further.readText .cstring with
    | error fault =>
      simp only [Except.toOption, bind, Option.bind, value, reduceCtorEq, false_iff]
      rintro ⟨_, after, same, again⟩
      cases same
      rw [value] at again
      cases again
    | ok read =>
      obtain ⟨second, after⟩ := read
      simp only [Except.toOption, bind, Option.bind, value, pure, Option.some.injEq,
        Except.ok.injEq, Prod.mk.injEq]
      constructor
      · rintro rfl
        exact ⟨further, after, ⟨rfl, rfl⟩, value⟩
      · rintro ⟨_, _, ⟨rfl, rfl⟩, again⟩
        rw [value, Except.ok.injEq, Prod.mk.injEq] at again
        rw [again.1]

/-- **An entry counts exactly if it starts with a key and a value.** -/
theorem itemOf?_eq_some_iff {body : List UInt8} {entry : String × String} :
    itemOf? body = some entry ↔ StartsWith body entry := by
  rw [itemOf?, readItem?_eq_some_iff]
  constructor
  · rintro ⟨further, after, key, value⟩
    obtain ⟨_, fits, behind, ahead, rfl⟩ := Cursor.readText_string_iff.mp key
    obtain ⟨_, proper, rest, next, rfl⟩ := Cursor.readText_cstring_iff.mp value
    rw [Cursor.rest_past_of_ahead ahead] at next
    have whole : body = (Value.string entry.1).encode ++ behind := ahead
    exact ⟨fits, proper, rest, by rw [whole, next, List.append_assoc]⟩
  · rintro ⟨fits, proper, rest, whole⟩
    have ahead : (Cursor.ofBytes body).rest =
        (Value.string entry.1).encode ++ ((Value.cstring entry.2).encode ++ rest) := by
      rw [← List.append_assoc, ← whole]
      rfl
    exact ⟨_, _, Cursor.readText_string_iff.mpr ⟨rfl, fits, _, ahead, rfl⟩,
      Cursor.readText_cstring_iff.mpr
        ⟨rfl, proper, rest, Cursor.rest_past_of_ahead ahead, rfl⟩⟩

/-! ## Several entries -/

/-- The bytes of an entry with a given body. -/
def framed (body : List UInt8) : List UInt8 :=
  [Kind.struct.code] ++ Value.counted body

theorem length_framed (body : List UInt8) : (framed body).length = body.length + 5 := by
  simp only [framed, List.length_append, List.length_singleton, Value.length_counted]
  omega

/-- A struct is found wherever it stands. -/
theorem frameOf?_framed {cursor : Cursor} {body rest : List UInt8}
    (structs : cursor.declared.all (· == .struct) = true)
    (short : body.length < Message.Length.bound) (ahead : cursor.rest = framed body ++ rest) :
    cursor.frameOf? .struct = some ⟨.struct, none, body, body.length + 5⟩ ∧
      (cursor.past ⟨.struct, none, body, body.length + 5⟩).rest = rest := by
  have spells : Frame.Spells ⟨.struct, none, body, body.length + 5⟩ (framed body) := .struct short
  refine ⟨Cursor.frameOf?_eq_some_iff.mpr ⟨?_, rfl⟩, Cursor.rest_past_of_spells spells ahead⟩
  exact Frame.read_eq_ok_iff.mpr ⟨structs, _, rest, spells, ahead⟩

/-- Where bytes start with no struct, an array of structs finds none. -/
theorem frameOf?_of_stops {tail : List UInt8} (stops : (Cursor.ofBytes tail).kind? ≠ some .struct)
    {cursor : Cursor} (ahead : cursor.rest = tail) : cursor.frameOf? .struct = none := by
  refine Option.eq_none_iff_forall_ne_some.mpr fun frame found => stops ?_
  obtain ⟨read, kind⟩ := Cursor.frameOf?_eq_some_iff.mp found
  obtain ⟨_, spelled⟩ := Frame.read_eq_ok_iff.mp read
  rw [ahead] at spelled
  have free : (Cursor.ofBytes tail).frame = .ok frame := Frame.read_eq_ok_iff.mpr ⟨rfl, spelled⟩
  rw [Cursor.kind?, free, ← kind]
  rfl

/-- Entries are read one after another up to bytes that start with no struct. -/
theorem readEntries_framed {bodies : List (List UInt8)} {tail : List UInt8}
    (short : (bodies.flatMap framed).length < Message.Length.bound)
    (stops : (Cursor.ofBytes tail).kind? ≠ some .struct) {cursor : Cursor}
    (structs : cursor.declared = some .struct)
    (ahead : cursor.rest = bodies.flatMap framed ++ tail) :
    readEntries cursor = bodies.filterMap itemOf? := by
  induction bodies generalizing cursor with
  | nil => exact readEntries_of_none (frameOf?_of_stops stops ahead)
  | cons body bodies ih =>
    rw [List.flatMap_cons, List.length_append, length_framed] at short
    rw [List.flatMap_cons, List.append_assoc] at ahead
    have fits : body.length < Message.Length.bound := by omega
    obtain ⟨here, behind⟩ := frameOf?_framed (by rw [structs]; rfl) fits ahead
    have others : readEntries (cursor.past ⟨.struct, none, body, body.length + 5⟩) =
        bodies.filterMap itemOf? := ih (by omega) structs behind
    have entry : readItem? (Cursor.inside ⟨.struct, none, body, body.length + 5⟩) = itemOf? body :=
      rfl
    rw [readEntries_of_some here, others, entry, List.filterMap_cons]
    cases itemOf? body with
    | none => rfl
    | some item => rfl

/-! ## Whole specs -/

/-- The bytes inside a spec that holds damage: a path, an array of entries with further bytes behind
the entries, and bytes behind the array. -/
def damagedFields (path : String) (bodies : List (List UInt8)) (tail extra : List UInt8) :
    List UInt8 :=
  (Value.cstring path).encode ++
    ([Kind.array.code, Kind.struct.code] ++ Value.counted (bodies.flatMap framed ++ tail) ++ extra)

/-- The spec that counts among damage: the entries that count are stored one after another. -/
def salvaged (path : String) (bodies : List (List UInt8)) : Spec :=
  ⟨(bodies.filterMap itemOf?).foldl (fun params entry => params.set entry.1 entry.2) ∅, path⟩

variable {path : String} {bodies : List (List UInt8)} {tail extra : List UInt8}

theorem length_entries_lt (short :
    (damagedFields path bodies tail extra).length < Message.Length.bound) :
    (bodies.flatMap framed ++ tail).length < Message.Length.bound := by
  simp only [damagedFields, List.length_append, Value.length_counted] at short ⊢
  omega

theorem readFields_damagedFields (clean : Text.hasNul path = false)
    (stops : (Cursor.ofBytes tail).kind? ≠ some .struct)
    (short : (damagedFields path bodies tail extra).length < Message.Length.bound) :
    readFields (Cursor.ofBytes (damagedFields path bodies tail extra)) =
      .ok (salvaged path bodies) := by
  have fits : (Value.cstring path).Fits := by
    have within := Value.length_body_lt (.cstring path)
    simp only [damagedFields, List.length_append] at short
    rw [Value.Fits]
    omega
  have first : (Cursor.ofBytes (damagedFields path bodies tail extra)).At (.cstring path) _ := {
    ahead := rfl
    proper := clean
    fits := fits
    kept := rfl }
  have entries_short := length_entries_lt short
  -- The array is found behind the path; what is behind the array is not looked at.
  have array : (Cursor.past (Cursor.ofBytes (damagedFields path bodies tail extra))
      (Value.cstring path).frame).frameOf? .array = some ⟨.array, some .struct,
        bodies.flatMap framed ++ tail, (bodies.flatMap framed ++ tail).length + 6⟩ := by
    refine Cursor.frameOf?_eq_some_iff.mpr ⟨Frame.read_eq_ok_iff.mpr ⟨rfl, ?_⟩, rfl⟩
    exact ⟨_, extra, .array .struct entries_short, Cursor.rest_past first⟩
  have entries : readEntries (Cursor.inside ⟨.array, some .struct,
      bodies.flatMap framed ++ tail, (bodies.flatMap framed ++ tail).length + 6⟩) =
        bodies.filterMap itemOf? := by
    refine readEntries_framed ?_ stops rfl rfl
    rw [List.length_append] at entries_short
    omega
  rw [readFields, Cursor.readText_cstring first]
  dsimp only
  rw [array]
  dsimp only
  rw [if_pos rfl, entries, Params.ofPairs_eq_foldl, ofParams, Option.getD_some,
    Text.untilNul_eq_self clean]
  rfl

/-- **Among damaged entries a spec is read from exactly the entries that start with a key and a
value.**  Nothing else in the message has any influence, and reading stops right behind the spec. -/
theorem read_among_damage (clean : Text.hasNul path = false)
    (stops : (Cursor.ofBytes tail).kind? ≠ some .struct)
    (short : (damagedFields path bodies tail extra).length < Message.Length.bound) :
    (∀ (before after : List UInt8), ∀ declared ∈ [none, some Kind.struct],
      ∀ message, message = before ++ framed (damagedFields path bodies tail extra) ++ after →
        read ⟨message, before.length, declared⟩ =
          .ok (salvaged path bodies, ⟨message,
            (before ++ framed (damagedFields path bodies tail extra)).length, declared⟩)) ∧
    ∀ body entry, itemOf? body = some entry ↔ StartsWith body entry := by
  refine ⟨?_, fun body entry => itemOf?_eq_some_iff⟩
  rintro before after declared container message rfl
  have structs : declared.all (· == .struct) = true := by
    revert declared
    decide
  have ahead : Cursor.rest ⟨before ++ framed (damagedFields path bodies tail extra) ++ after,
      before.length, declared⟩ = framed (damagedFields path bodies tail extra) ++ after := by
    rw [Cursor.rest, List.append_assoc, List.drop_left]
  have here := (frameOf?_framed structs short ahead).1
  have fields : readFields (Cursor.inside ⟨.struct, none, damagedFields path bodies tail extra,
      (damagedFields path bodies tail extra).length + 5⟩) = .ok (salvaged path bodies) :=
    readFields_damagedFields clean stops short
  have ends : (before ++ framed (damagedFields path bodies tail extra)).length =
      before.length + ((damagedFields path bodies tail extra).length + 5) := by
    rw [List.length_append, length_framed]
  rw [read, here]
  dsimp only
  rw [fields, ends]
  rfl

/-- A body with a key only, one with something behind its two texts, and one whose length
overruns. -/
def mixedBodies : List (List UInt8) :=
  [[115, 0, 0, 0, 1, 107], [115, 0, 0, 0, 1, 104, 122, 120, 0, 9], [115, 255, 255, 255, 255, 104]]

/-- The entry between two damaged ones counts. -/
theorem read_among_damage_mixed :
    Text.hasNul "/a" = false ∧ (Cursor.ofBytes [115, 0]).kind? ≠ some .struct ∧
      (damagedFields "/a" mixedBodies [115, 0] [7]).length < Message.Length.bound ∧
      read ⟨framed (damagedFields "/a" mixedBodies [115, 0] [7]) ++ [1], 0, none⟩ =
        .ok (⟨Params.set ∅ "h" "x", "/a"⟩,
          ⟨framed (damagedFields "/a" mixedBodies [115, 0] [7]) ++ [1], 55, none⟩) := by
  have clean : Text.hasNul "/a" = false := by decide +kernel
  have stops : (Cursor.ofBytes [115, 0]).kind? ≠ some .struct := by decide
  have short : (damagedFields "/a" mixedBodies [115, 0] [7]).length < Message.Length.bound := by
    decide +kernel
  have counts : salvaged "/a" mixedBodies = ⟨Params.set ∅ "h" "x", "/a"⟩ := by decide +kernel
  have ends : (framed (damagedFields "/a" mixedBodies [115, 0] [7])).length = 55 := by
    decide +kernel
  have found := (read_among_damage clean stops short).1 [] [1] none List.mem_cons_self _ rfl
  rw [counts, List.nil_append, ends] at found
  exact ⟨clean, stops, short, found⟩

end Mounts.Spec

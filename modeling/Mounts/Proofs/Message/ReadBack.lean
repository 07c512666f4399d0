import Mounts.Proofs.Spec.Wire

/-!
# Messages are read back as they were written

Somebody who walks through a container asks for the kind of the element at hand, reads it if it is a
text and enters it if it is a container, moves on, and goes on like this until the container ends.
`Cursor.Reads` says which values come out of such a walk, in the terms of what is asked on the way
and nothing else.  A walk has one outcome only (`Cursor.Reads.unique`).

Whatever drafts are appended to a message, a walk through it comes out at exactly what is left of
them, in order (`appended_read_back`).  A draft that meets a fault leaves no trace, and neither does
a part under `attempt` that meets one, however deep it lies.
-/

namespace Mounts.Message

set_option autoImplicit false

/-! ## Walks that read everything -/

/-- The values that come out of a walk from a cursor to the end of its container, into every
container on the way. -/
inductive Cursor.Reads : Cursor → List Value → Prop
  /-- Nothing comes out where the container ends: there is no kind to be told, and whatever is asked
  for, the answer is that the container has ended. -/
  | ended {cursor : Cursor} :
      cursor.position = cursor.data.length →
      cursor.kind? = none → cursor.itemKind? = none →
      (∀ kind, cursor.readText kind = .error .endOfContainer) →
      cursor.enter = .error .endOfContainer →
      Reads cursor []
  /-- A counted text is read, which leads to the same place as moving past it. -/
  | string {cursor : Cursor} {text : String} {values : List Value} :
      cursor.kind? = some .string → cursor.itemKind? = none →
      cursor.readText .string = .ok (text, cursor.next) →
      Reads cursor.next values →
      Reads cursor (.string text :: values)
  /-- A text that a NUL ends is read, which leads to the same place as moving past it. -/
  | cstring {cursor : Cursor} {text : String} {values : List Value} :
      cursor.kind? = some .cstring → cursor.itemKind? = none →
      cursor.readText .cstring = .ok (text, cursor.next) →
      Reads cursor.next values →
      Reads cursor (.cstring text :: values)
  /-- A struct is entered and walked through, and then passed. -/
  | struct {cursor inner : Cursor} {fields values : List Value} :
      cursor.kind? = some .struct → cursor.itemKind? = none →
      cursor.enter = .ok inner → Reads inner fields →
      Reads cursor.next values →
      Reads cursor (.struct fields :: values)
  /-- An array tells the kind of its items, is entered and walked through, and then passed. -/
  | array {cursor inner : Cursor} {item : Kind} {items values : List Value} :
      cursor.kind? = some .array → cursor.itemKind? = some item →
      cursor.enter = .ok inner → Reads inner items →
      Reads cursor.next values →
      Reads cursor (.array item items :: values)

/-- **A walk has one outcome.** -/
theorem Cursor.Reads.unique {cursor : Cursor} {values others : List Value}
    (reads : cursor.Reads values) (again : cursor.Reads others) : values = others := by
  induction reads generalizing others with
  | ended _ kind =>
    cases again with
    | ended => rfl
    | string other | cstring other | struct other | array other =>
      rw [kind] at other
      cases other
  | string kind _ text _ ih =>
    cases again with
    | string _ _ same rest =>
      rw [text] at same
      cases same
      rw [ih rest]
    | ended _ other | cstring other | struct other | array other =>
      rw [kind] at other
      cases other
  | cstring kind _ text _ ih =>
    cases again with
    | cstring _ _ same rest =>
      rw [text] at same
      cases same
      rw [ih rest]
    | ended _ other | string other | struct other | array other =>
      rw [kind] at other
      cases other
  | struct kind _ entered _ _ inside behind =>
    cases again with
    | struct _ _ same fields rest =>
      rw [entered] at same
      cases same
      rw [inside fields, behind rest]
    | ended _ other | string other | cstring other | array other =>
      rw [kind] at other
      cases other
  | array kind item entered _ _ inside behind =>
    cases again with
    | array _ declared same items rest =>
      rw [entered] at same
      cases same
      rw [item] at declared
      cases declared
      rw [inside items, behind rest]
    | ended _ other | string other | cstring other | struct other =>
      rw [kind] at other
      cases other

/-! ## Walks through what was written -/

namespace Cursor

variable {cursor : Cursor} {value : Value} {further : List UInt8}

theorem kind?_at (here : cursor.At value further) : cursor.kind? = some value.kind := by
  rw [kind?, frame_at here]
  rfl

theorem itemKind?_at (here : cursor.At value further) : cursor.itemKind? = value.item? := by
  rw [itemKind?, frame_at here]
  rfl

theorem next_at (here : cursor.At value further) : cursor.next = cursor.past value.frame := by
  simp only [next, frame_at here]

/-- Moving past a value stays within the container. -/
theorem position_past_le (here : cursor.At value further)
    (within : cursor.position ≤ cursor.data.length) :
    (cursor.past value.frame).position ≤ (cursor.past value.frame).data.length := by
  have bounds := bounds_of_frame (frame_at here)
  simp only [past, remaining] at bounds ⊢
  omega

mutual

/-- A walk reads the value at hand if it reads what is behind it. -/
theorem reads_at : ∀ {value : Value} {values : List Value} {cursor : Cursor}
    {further : List UInt8}, cursor.At value further →
    (cursor.past value.frame).Reads values → cursor.Reads (value :: values)
  | .string text, values, cursor, further, here, behind => by
    have read := readText_string here
    rw [← next_at here] at read behind
    exact .string (kind?_at here) (itemKind?_at here) read behind
  | .cstring text, values, cursor, further, here, behind => by
    have read := readText_cstring here
    rw [← next_at here] at read behind
    exact .cstring (kind?_at here) (itemKind?_at here) read behind
  | .struct fields, values, cursor, further, here, behind => by
    have entered : cursor.enter = .ok (inside (Value.struct fields).frame) := by
      rw [enter, frame_at here]
      rfl
    have proper : Value.ProperAll fields := here.proper
    have inner : (inside (Value.struct fields).frame).Reads fields :=
      reads_ahead rfl (Nat.zero_le _) (Value.properAll_iff.mp proper)
        (fun _ found => Value.fits_of_mem found here.fits) fun _ _ => rfl
    rw [← next_at here] at behind
    exact .struct (kind?_at here) (itemKind?_at here) entered inner behind
  | .array item items, values, cursor, further, here, behind => by
    have entered : cursor.enter = .ok (inside (Value.array item items).frame) := by
      rw [enter, frame_at here]
      rfl
    obtain ⟨proper, kinds⟩ : Value.ProperAll items ∧ ∀ value ∈ items, value.kind = item :=
      here.proper
    have inner : (inside (Value.array item items).frame).Reads items :=
      reads_ahead rfl (Nat.zero_le _) (Value.properAll_iff.mp proper)
        (fun _ found => Value.fits_of_mem found here.fits)
        fun value found => beq_iff_eq.mpr (kinds value found).symm
    rw [← next_at here] at behind
    exact .array (kind?_at here) (itemKind?_at here) entered inner behind

/-- A walk reads the values whose bytes are ahead, up to the end. -/
theorem reads_ahead : ∀ {values : List Value} {cursor : Cursor},
    cursor.rest = Value.encodeAll values → cursor.position ≤ cursor.data.length →
    (∀ value ∈ values, value.Proper) → (∀ value ∈ values, value.Fits) →
    (∀ value ∈ values, cursor.declared.all (· == value.kind) = true) → cursor.Reads values
  | [], cursor, ahead, within, _, _, _ => by
    have missing : cursor.frame = .error .endOfContainer := by
      rw [frame, ahead]
      rfl
    have behind : cursor.data.length ≤ cursor.position := List.drop_eq_nil_iff.mp ahead
    refine .ended (Nat.le_antisymm within behind) ?_ ?_ (fun kind => ?_) ?_
    · rw [kind?, missing]
      rfl
    · rw [itemKind?, missing]
      rfl
    · rw [readText, missing]
      rfl
    · rw [enter, missing]
      rfl
  | value :: values, cursor, ahead, within, proper, fits, kept => by
    rw [List.forall_mem_cons] at proper fits kept
    have here : cursor.At value (Value.encodeAll values) := {
      ahead := ahead
      proper := proper.1
      fits := fits.1
      kept := kept.1 }
    exact reads_at here
      (reads_ahead (rest_past here) (position_past_le here within) proper.2 fits.2 kept.2)

end

end Cursor

/-! ## Walks through messages -/

theorem Draft.proper_of_kept? {draft : Draft} (short : draft.Short) {value : Value}
    (left : draft.kept? = some value) : value.Proper ∧ value.Fits := by
  rw [kept?] at left
  split at left
  · cases left
  · next settled =>
    rw [left] at settled
    exact proper_of_settle short settled

/-- What several drafts add to a message is what is left of them. -/
theorem Writer.extendAll_of_short {drafts : List Draft} (short : ∀ draft ∈ drafts, draft.Short)
    (writer : Writer) : writer.extendAll drafts =
      ⟨writer.bytes ++ Value.encodeAll (drafts.filterMap Draft.kept?)⟩ := by
  induction drafts generalizing writer with
  | nil =>
    rw [List.filterMap_nil, Value.encodeAll, List.append_nil]
    rfl
  | cons draft drafts ih =>
    rw [List.forall_mem_cons] at short
    have first : (writer.extend draft).2 =
        ⟨writer.bytes ++ Value.encodeAll draft.kept?.toList⟩ := by
      rw [extend, Draft.write_of_short short.1]
    have all : (draft :: drafts).filterMap Draft.kept? =
        draft.kept?.toList ++ drafts.filterMap Draft.kept? := by
      cases left : draft.kept? with
      | none => simp [left]
      | some value => simp [left]
    rw [extendAll, List.foldl_cons, first, all, Value.encodeAll_append, ← List.append_assoc]
    exact ih short.2 _

/-- A walk through a message comes out at what is left of the drafts that were appended. -/
theorem reads_extendAll {drafts : List Draft} (short : ∀ draft ∈ drafts, draft.Short) :
    (Cursor.ofBytes (Writer.empty.extendAll drafts).bytes).Reads
      (drafts.filterMap Draft.kept?) := by
  have sound : ∀ value ∈ drafts.filterMap Draft.kept?, value.Proper ∧ value.Fits := by
    intro value found
    obtain ⟨draft, asked, left⟩ := List.mem_filterMap.mp found
    exact Draft.proper_of_kept? (short draft asked) left
  rw [Writer.extendAll_of_short short]
  exact Cursor.reads_ahead rfl (Nat.zero_le _) (fun value found => (sound value found).1)
    (fun value found => (sound value found).2) fun _ _ => rfl

/-- **What was appended is read back, and nothing else**, from drafts one after another and from
specs that can be built. -/
theorem appended_read_back (drafts : List Draft) (short : ∀ draft ∈ drafts, draft.Short) :
    (∀ draft ∈ drafts, ∀ writer : Writer, (writer.extend draft).1 = draft.fault?) ∧
    (∀ values : List Value,
      (Cursor.ofBytes (Writer.empty.extendAll drafts).bytes).Reads values ↔
        values = drafts.filterMap Draft.kept?) ∧
    ∀ (spec : Spec) (path : Option String), spec.Built → (spec.toValue path).Fits →
      (Draft.ofValue (spec.toValue path)).Short ∧
        (Draft.ofValue (spec.toValue path)).kept? = some (spec.toValue path) := by
  refine ⟨?faults, ?walk, ?specs⟩
  case faults =>
    intro draft asked writer
    rw [Writer.extend, Draft.write_of_short (short draft asked)]
  case walk =>
    intro values
    constructor
    · intro reads
      exact reads.unique (reads_extendAll short)
    · rintro rfl
      exact reads_extendAll short
  case specs =>
    intro spec path built fits
    have proper := Spec.proper_toValue built.valid path
    refine ⟨Draft.short_ofValue proper fits, ?_⟩
    rw [Draft.kept?, Draft.settle_ofValue proper]

/-- Drafts with faults at several depths: in a part of a struct, in an item of an array of arrays,
and in a whole draft, once on its own and once under `attempt`. -/
def mixture : List Draft :=
  [.struct [.cstring "/", .attempt (.string "a\x00"), .struct [],
      .array (some .array) [.array (some .string) [.string "k"],
        .attempt (.array (some .struct) [.string "k"])]],
    .string "a\x00",
    .attempt (.struct [.string "x", .array none []]),
    .array (some .cstring) [],
    .ofValue (Spec.guest.toValue (some "/a"))]

/-- What is left of them. -/
theorem appended_read_back_mixture :
    (∀ draft ∈ mixture, draft.Short) ∧ Spec.guest.Built ∧
    (Spec.guest.toValue (some "/a")).Fits ∧
    mixture.map Draft.fault? = [none, some .holdsNul, none, none, none] ∧
    (Cursor.ofBytes (Writer.empty.extendAll mixture).bytes).Reads
      [.struct [.cstring "/", .struct [], .array .array [.array .string [.string "k"]]],
        .array .cstring [], Spec.guest.toValue (some "/a")] := by
  have short : ∀ draft ∈ mixture, draft.Short := Draft.shortAll_iff.mp (by decide +kernel)
  have fits : (Spec.guest.toValue (some "/a")).Fits := by
    rw [Value.Fits]
    decide +kernel
  obtain ⟨_, walk, specs⟩ := appended_read_back mixture short
  have last := (specs Spec.guest (some "/a") Spec.guest_built fits).2
  refine ⟨short, Spec.guest_built, fits, by decide +kernel, (walk _).mpr ?_⟩
  rw [mixture]
  simp only [List.filterMap_cons, last]
  rfl

end Mounts.Message

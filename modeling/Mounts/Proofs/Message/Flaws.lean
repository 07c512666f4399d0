import Mathlib.Data.List.Basic
import Mounts.Proofs.Message.Settling

/-!
# What is wrong with a draft

A draft may hold flaws: a text with a NUL, an array that declares no kind, an array with an element
of another kind than the declared one.  One flaw anywhere spoils all of the draft, however deep it
lies, unless it lies inside an attempt that fails; such an attempt is left out, with everything in
it.

So appending a draft meets a fault exactly if the draft holds a flaw, and the fault is that of a
flaw which it holds.  The message is then as it was, and otherwise it is longer by the bytes of what
is left of the draft (`appended_whole_or_not_at_all`).

That arrays are read again before they are copied does not show here: `Draft.write_of_short` says
already that this finds the elements which were written.
-/

namespace Mounts.Message

set_option autoImplicit false

namespace Draft

/-! ## Flaws -/

/-- A draft can be appended without a fault, whatever the message holds already. -/
def Writable (draft : Draft) : Prop :=
  ∀ writer : Writer, (writer.extend draft).1 = none

/-- What is attempted, or the draft itself if it is no attempt. -/
def element : Draft → Draft
  | .string text => .string text
  | .cstring text => .cstring text
  | .struct fields => .struct fields
  | .array declared items => .array declared items
  | .attempt part => part.element

/-- The kind of element that a draft asks for. -/
def kind : Draft → Kind
  | .string _ => .string
  | .cstring _ => .cstring
  | .struct _ => .struct
  | .array _ _ => .array
  | .attempt part => part.kind

/-- Something is wrong with a draft, apart from what may be wrong with its parts. -/
inductive Flaw : Draft → Fault → Prop
  /-- A text holds a NUL. -/
  | string {text : String} : Text.hasNul text = true → Flaw (.string text) .holdsNul
  /-- So does a text that a NUL is to end. -/
  | cstring {text : String} : Text.hasNul text = true → Flaw (.cstring text) .holdsNul
  /-- An array declares no kind. -/
  | undeclared (items : List Draft) : Flaw (.array none items) .noItemKind
  /-- An element that can be appended is not of the kind that the array declares. -/
  | foreign {item : Kind} {items : List Draft} {part : Draft} :
      part ∈ items → part.element.Writable → part.kind ≠ item →
      Flaw (.array (some item) items) .foreignItem

/-- A draft holds itself and what its parts hold, except for what lies inside attempts that fail. -/
inductive Holds : Draft → Draft → Prop
  /-- The draft itself. -/
  | self (draft : Draft) : Holds draft draft
  /-- What a field of a struct holds. -/
  | field {fields : List Draft} {field part : Draft} :
      field ∈ fields → Holds field part → Holds (.struct fields) part
  /-- What an item of an array holds. -/
  | item {declared : Option Kind} {items : List Draft} {item part : Draft} :
      item ∈ items → Holds item part → Holds (.array declared items) part
  /-- What is held by something that is attempted and can be appended. -/
  | attempt {attempted part : Draft} :
      attempted.Writable → Holds attempted part → Holds (.attempt attempted) part

/-! ## What parts settle to -/

theorem fault?_eq_some_iff {draft : Draft} {fault : Fault} :
    draft.fault? = some fault ↔ draft.settle = .error fault := by
  rw [fault?]
  split
  · next settled => rw [settled, Option.some.injEq, Except.error.injEq]
  · next settled => simp only [settled, reduceCtorEq]

theorem fault?_eq_none_iff {draft : Draft} :
    draft.fault? = none ↔ ∃ left, draft.settle = .ok left := by
  rw [fault?]
  split
  · next settled => simp only [settled, reduceCtorEq, exists_false]
  · next left settled => simp only [settled, Except.ok.injEq, exists_eq']

/-- Appending a draft whose lengths can be written meets the fault that there is in it. -/
theorem fault_of_extend {draft : Draft} (short : draft.Short) (writer : Writer) :
    (writer.extend draft).1 = draft.fault? := by
  rw [Writer.extend, write_of_short short]

theorem writable_iff {draft : Draft} (short : draft.Short) :
    draft.Writable ↔ ∃ left, draft.settle = .ok left := by
  rw [← fault?_eq_none_iff]
  constructor
  · intro writable
    rw [← fault_of_extend short .empty]
    exact writable .empty
  · intro faultless writer
    rw [fault_of_extend short, faultless]

/-- Some drafts leave what each of them leaves. -/
theorem settle_of_settleAll {drafts : List Draft} {values : List Value}
    (settled : settleAll drafts = .ok values) :
    (∀ draft ∈ drafts, ∃ left, draft.settle = .ok left) ∧
      ∀ value, value ∈ values ↔ ∃ draft ∈ drafts, draft.settle = .ok (some value) := by
  induction drafts generalizing values with
  | nil =>
    rw [settleAll] at settled
    cases settled
    simp
  | cons draft drafts ih =>
    obtain ⟨left, here, others, there, rfl⟩ := settleAll_cons_eq_ok_iff.mp settled
    obtain ⟨each, members⟩ := ih there
    refine ⟨List.forall_mem_cons.mpr ⟨⟨left, here⟩, each⟩, fun value => ?_⟩
    rw [List.mem_append, Option.mem_toList, members, List.exists_mem_cons_iff, here,
      Except.ok.injEq]

/-- A draft leaves what is attempted in it, unless that has a fault. -/
theorem settle_element : ∀ {draft : Draft} {value : Value},
    draft.settle = .ok (some value) ↔ draft.element.settle = .ok (some value)
  | .string _, _ => Iff.rfl
  | .cstring _, _ => Iff.rfl
  | .struct _, _ => Iff.rfl
  | .array _ _, _ => Iff.rfl
  | .attempt part, value => by
    rw [element, ← settle_element, settle]
    cases part.settle with
    | error fault => simp only [reduceCtorEq, Except.ok.injEq]
    | ok left => exact Iff.rfl

theorem short_element : ∀ {draft : Draft}, draft.Short → draft.element.Short
  | .string _, short => short
  | .cstring _, short => short
  | .struct _, short => short
  | .array _ _, short => short
  | .attempt part, short => by
    rw [Short] at short
    rw [element]
    exact short_element short

/-- What is left of a draft that is no attempt is a value of its kind. -/
theorem settle_cases {draft : Draft} {left : Option Value} (settled : draft.settle = .ok left) :
    (∃ part, draft = .attempt part) ∨ ∃ value, left = some value ∧ value.kind = draft.kind := by
  cases draft with
  | string text =>
    obtain ⟨_, rfl⟩ := settle_string_eq_ok_iff.mp settled
    exact .inr ⟨_, rfl, rfl⟩
  | cstring text =>
    obtain ⟨_, rfl⟩ := settle_cstring_eq_ok_iff.mp settled
    exact .inr ⟨_, rfl, rfl⟩
  | struct fields =>
    obtain ⟨_, _, rfl⟩ := settle_struct_eq_ok_iff.mp settled
    exact .inr ⟨_, rfl, rfl⟩
  | array declared items =>
    cases declared with
    | none =>
      rw [settle] at settled
      cases settled
    | some item =>
      obtain ⟨_, _, _, rfl⟩ := settle_array_eq_ok_iff.mp settled
      exact .inr ⟨_, rfl, rfl⟩
  | attempt part => exact .inl ⟨part, rfl⟩

/-- What is left of what is attempted is a value of the kind that was asked for. -/
theorem exists_value_of_element : ∀ {draft : Draft} {left : Option Value},
    draft.element.settle = .ok left → ∃ value, left = some value ∧ value.kind = draft.kind
  | .string _, _, settled => (settle_cases settled).resolve_left (by simp [element])
  | .cstring _, _, settled => (settle_cases settled).resolve_left (by simp [element])
  | .struct _, _, settled => (settle_cases settled).resolve_left (by simp [element])
  | .array _ _, _, settled => (settle_cases settled).resolve_left (by simp [element])
  | .attempt part, _, settled => by
    rw [element] at settled
    rw [kind]
    exact exists_value_of_element settled

/-- What is left is of the kind that was asked for. -/
theorem kind_of_settle {draft : Draft} {value : Value} (settled : draft.settle = .ok (some value)) :
    value.kind = draft.kind := by
  obtain ⟨_, ⟨⟩, kind⟩ := exists_value_of_element (settle_element.mp settled)
  exact kind

/-- Something is left of a draft if what is attempted in it has no fault. -/
theorem exists_left_of_element {draft : Draft} (fine : ∃ left, draft.element.settle = .ok left) :
    ∃ value, draft.settle = .ok (some value) := by
  obtain ⟨_, settled⟩ := fine
  obtain ⟨value, rfl, _⟩ := exists_value_of_element settled
  exact ⟨value, settle_element.mpr settled⟩

/-! ## Faults come from flaws -/

/-- An array with a fault of its own has an element of another kind than the declared one. -/
theorem flaw_of_foreign {item : Kind} {items : List Draft} {values : List Value}
    (short : ShortAll items) (settled : settleAll items = .ok values)
    (foreign : values.all (·.kind == item) = false) :
    (array (some item) items).Flaw .foreignItem := by
  obtain ⟨value, left, other⟩ : ∃ value ∈ values, value.kind ≠ item := by simpa using foreign
  obtain ⟨part, asked, left⟩ := ((settle_of_settleAll settled).2 value).mp left
  have writable : part.element.Writable :=
    (writable_iff (short_element (shortAll_iff.mp short part asked))).mpr
      ⟨_, settle_element.mp left⟩
  exact .foreign asked writable (kind_of_settle left ▸ other)

mutual

/-- A draft with a fault in it holds a flaw. -/
theorem exists_flaw : ∀ {draft : Draft} {fault : Fault}, draft.Short →
    draft.settle = .error fault → ∃ part, draft.Holds part ∧ part.Flaw fault
  | .string text, fault, short, settled => by
    obtain ⟨spoilt, rfl⟩ := settle_string_eq_error_iff.mp settled
    exact ⟨_, .self _, .string spoilt⟩
  | .cstring text, fault, short, settled => by
    obtain ⟨spoilt, rfl⟩ := settle_cstring_eq_error_iff.mp settled
    exact ⟨_, .self _, .cstring spoilt⟩
  | .struct fields, fault, short, settled => by
    rw [Short] at short
    obtain ⟨field, inside, part, holds, flaw⟩ :=
      exists_flaw_among short.1 (settle_struct_eq_error_iff.mp settled)
    exact ⟨part, .field inside holds, flaw⟩
  | .array none items, fault, short, settled => by
    rw [settle] at settled
    cases settled
    exact ⟨_, .self _, .undeclared items⟩
  | .array (some item) items, fault, short, settled => by
    rw [Short] at short
    rcases settle_array_eq_error_iff.mp settled with met | ⟨values, left, foreign, rfl⟩
    · obtain ⟨element, inside, part, holds, flaw⟩ := exists_flaw_among short.1 met
      exact ⟨part, .item inside holds, flaw⟩
    · exact ⟨_, .self _, flaw_of_foreign short.1 left foreign⟩
  | .attempt part, fault, short, settled => absurd settled settle_attempt_ne_error

theorem exists_flaw_among : ∀ {drafts : List Draft} {fault : Fault}, ShortAll drafts →
    settleAll drafts = .error fault →
    ∃ draft ∈ drafts, ∃ part, draft.Holds part ∧ part.Flaw fault
  | [], fault, short, settled => by
    rw [settleAll] at settled
    cases settled
  | draft :: drafts, fault, short, settled => by
    rw [ShortAll] at short
    rcases settleAll_cons_eq_error_iff.mp settled with met | ⟨_, met⟩
    · exact ⟨draft, List.mem_cons_self, exists_flaw short.1 met⟩
    · obtain ⟨other, later, found⟩ := exists_flaw_among short.2 met
      exact ⟨other, List.mem_cons_of_mem _ later, found⟩

end

/-! ## Flaws lead to faults -/

/-- A fault in one of some drafts is a fault in them. -/
theorem exists_settleAll_error {drafts : List Draft} {draft : Draft} {fault : Fault}
    (asked : draft ∈ drafts) (met : draft.settle = .error fault) :
    ∃ first, settleAll drafts = .error first := by
  cases settled : settleAll drafts with
  | error first => exact ⟨first, rfl⟩
  | ok values =>
    obtain ⟨left, fine⟩ := (settle_of_settleAll settled).1 draft asked
    rw [met] at fine
    cases fine

/-- A draft with a flaw has a fault in it. -/
theorem exists_fault_of_flaw {draft : Draft} {fault : Fault} (short : draft.Short)
    (flaw : draft.Flaw fault) : ∃ first, draft.settle = .error first := by
  cases flaw with
  | string spoilt => exact ⟨_, settle_string_eq_error_iff.mpr ⟨spoilt, rfl⟩⟩
  | cstring spoilt => exact ⟨_, settle_cstring_eq_error_iff.mpr ⟨spoilt, rfl⟩⟩
  | undeclared items =>
    rw [settle]
    exact ⟨_, rfl⟩
  | @foreign item items part asked writable other =>
    rw [Short] at short
    -- Unless another item has a fault, what is left of this one is among the values of the array.
    cases settled : settleAll items with
    | error first => exact ⟨first, settle_array_eq_error_iff.mpr (.inl settled)⟩
    | ok values =>
      obtain ⟨value, left⟩ := exists_left_of_element
        ((writable_iff (short_element (shortAll_iff.mp short.1 part asked))).mp writable)
      have member := ((settle_of_settleAll settled).2 value).mpr ⟨part, asked, left⟩
      have foreign : values.all (·.kind == item) = false := by
        rw [List.all_eq_false]
        refine ⟨value, member, ?_⟩
        rw [kind_of_settle left, beq_iff_eq]
        exact other
      exact ⟨_, settle_array_eq_error_iff.mpr (.inr ⟨values, settled, foreign, rfl⟩)⟩

/-- A draft that holds a flaw has a fault in it. -/
theorem exists_fault_of_holds {draft part : Draft} {fault : Fault} (holds : draft.Holds part)
    (flaw : part.Flaw fault) (short : draft.Short) : ∃ first, draft.settle = .error first := by
  induction holds with
  | self draft => exact exists_fault_of_flaw short flaw
  | field inside _ ih =>
    rw [Short] at short
    obtain ⟨first, met⟩ := ih flaw (shortAll_iff.mp short.1 _ inside)
    obtain ⟨first, met⟩ := exists_settleAll_error inside met
    exact ⟨first, settle_struct_eq_error_iff.mpr met⟩
  | @item declared _ _ _ inside _ ih =>
    rw [Short] at short
    obtain ⟨first, met⟩ := ih flaw (shortAll_iff.mp short.1 _ inside)
    obtain ⟨first, met⟩ := exists_settleAll_error inside met
    cases declared with
    | none =>
      -- The fault is then that of the array, whatever its items hold.
      rw [settle]
      exact ⟨_, rfl⟩
    | some item => exact ⟨first, settle_array_eq_error_iff.mpr (.inl met)⟩
  | attempt writable _ ih =>
    -- What can be appended holds no flaw.
    rw [Short] at short
    obtain ⟨first, met⟩ := ih flaw short
    obtain ⟨left, fine⟩ := (writable_iff short).mp writable
    rw [met] at fine
    cases fine

end Draft

/-! ## Appending drafts -/

/-- **A draft is appended as a whole or not at all**, as the flaws that it holds decide. -/
theorem appended_whole_or_not_at_all (draft : Draft) (short : draft.Short) :
    (∀ writer : Writer, (writer.extend draft).1 ≠ none ↔
      ∃ part fault, draft.Holds part ∧ part.Flaw fault) ∧
    (∀ (writer : Writer) (fault : Fault), (writer.extend draft).1 = some fault →
      (writer.extend draft).2 = writer ∧ ∃ part, draft.Holds part ∧ part.Flaw fault) ∧
    (∀ writer : Writer, (writer.extend draft).1 = none →
      (writer.extend draft).2.bytes = writer.bytes ++ Value.encodeAll draft.kept?.toList) := by
  have written (writer : Writer) : writer.extend draft =
      (draft.fault?, ⟨writer.bytes ++ Value.encodeAll draft.kept?.toList⟩) := by
    rw [Writer.extend, Draft.write_of_short short]
  refine ⟨?refused, ?untouched, ?longer⟩
  case refused =>
    intro writer
    rw [Draft.fault_of_extend short, Option.ne_none_iff_exists']
    simp only [Draft.fault?_eq_some_iff]
    constructor
    · rintro ⟨fault, settled⟩
      obtain ⟨part, holds, flaw⟩ := Draft.exists_flaw short settled
      exact ⟨part, fault, holds, flaw⟩
    · rintro ⟨part, fault, holds, flaw⟩
      exact Draft.exists_fault_of_holds holds flaw short
  case untouched =>
    intro writer fault met
    rw [Draft.fault_of_extend short, Draft.fault?_eq_some_iff] at met
    have nothing : draft.kept? = none := by rw [Draft.kept?, met]
    refine ⟨?_, Draft.exists_flaw short met⟩
    rw [written, nothing, Option.toList_none, Value.encodeAll, List.append_nil]
  case longer =>
    intro writer _
    rw [written]

/-- A struct of an array in which every part that is wrong lies inside an attempt. -/
def sifted : Draft :=
  .struct [.attempt (.struct [.string "a\x00"]), .array (some .string)
    [.attempt (.attempt (.string "k")), .attempt (.array (some .struct) [.cstring "k"])]]

/-- An array of texts in which the second attempt succeeds with a text of another kind. -/
def mixed : Draft :=
  .struct [.cstring "/",
    .array (some .string) [.attempt (.string "a\x00"), .attempt (.cstring "k")]]

/-- The first is appended as what is left of it, and the second not at all. -/
theorem appended_whole_or_not_at_all_sifted :
    sifted.Short ∧ mixed.Short ∧
    (¬∃ part fault, sifted.Holds part ∧ part.Flaw fault) ∧
    (∃ part, mixed.Holds part ∧ part.Flaw .foreignItem) ∧
    (∀ writer : Writer, (writer.extend sifted).2.bytes =
      writer.bytes ++ (Value.struct [.array .string [.string "k"]]).encode) ∧
    ∀ writer : Writer, (writer.extend mixed).2 = writer := by
  have short : sifted.Short ∧ mixed.Short := by decide +kernel
  have sound (writer : Writer) : (writer.extend sifted).1 = none := by
    rw [Draft.fault_of_extend short.1]
    decide +kernel
  have met (writer : Writer) : (writer.extend mixed).1 = some .foreignItem := by
    rw [Draft.fault_of_extend short.2]
    decide +kernel
  have left : Value.encodeAll sifted.kept?.toList =
      (Value.struct [.array .string [.string "k"]]).encode := by decide +kernel
  obtain ⟨refused, _, longer⟩ := appended_whole_or_not_at_all sifted short.1
  obtain ⟨_, untouched, _⟩ := appended_whole_or_not_at_all mixed short.2
  refine ⟨short.1, short.2, fun flawed => (refused .empty).mpr flawed (sound .empty),
    (untouched .empty _ (met .empty)).2, fun writer => ?_,
    fun writer => (untouched writer _ (met writer)).1⟩
  rw [longer writer (sound writer), left]

end Mounts.Message

import Mounts.Proofs.Except
import Mounts.Proofs.Message.Writing

/-!
# What is left of a draft

Whether a draft may be written can be told from the draft alone, and so can the value that it
leaves: `Draft.settle` follows the draft without a byte in sight.  A text settles to itself unless
it holds a NUL, a container to the container of what its parts settle to, and a part under `attempt`
to what it leaves, or to nothing at all if there is a fault in it.

Appending a draft does just that, as long as every length in it can be written: it adds the bytes of
the value, or it meets the fault and leaves the message as it was (`Draft.write_of_short`).
-/

namespace Mounts.Message

set_option autoImplicit false

namespace Draft

mutual

/-- The value that a draft leaves in a message, if it leaves one, or else the first fault in it. -/
def settle : Draft → Except Fault (Option Value)
  | .string text => if Text.hasNul text then .error .holdsNul else .ok (some (.string text))
  | .cstring text => if Text.hasNul text then .error .holdsNul else .ok (some (.cstring text))
  | .struct fields =>
    match settleAll fields with
    | .error fault => .error fault
    | .ok values => .ok (some (.struct values))
  | .array none _ => .error .noItemKind
  | .array (some item) items =>
    match settleAll items with
    | .error fault => .error fault
    | .ok values =>
      if values.all (·.kind == item) then .ok (some (.array item values)) else .error .foreignItem
  | .attempt part =>
    match part.settle with
    | .error _ => .ok none
    | .ok value => .ok value

/-- The values that drafts leave one after another, or else the first fault in them. -/
def settleAll : List Draft → Except Fault (List Value)
  | [] => .ok []
  | draft :: drafts =>
    match draft.settle with
    | .error fault => .error fault
    | .ok value =>
      match settleAll drafts with
      | .error fault => .error fault
      | .ok values => .ok (value.toList ++ values)

end

/-! ## Settling, constructor by constructor -/

section

variable {text : String} {draft : Draft} {fields items drafts : List Draft} {item : Kind}
  {left : Option Value} {values : List Value} {fault : Fault}

/-- A struct fails where its fields fail. -/
theorem settle_struct :
    (struct fields).settle = (settleAll fields).map fun values => some (.struct values) := by
  rw [settle]
  cases settleAll fields with
  | error fault => rfl
  | ok values => rfl

/-- An array fails where its elements fail, or for an element of another kind. -/
theorem settle_array : (array (some item) items).settle = settleAll items >>= fun values =>
    if values.all (·.kind == item) = false then .error .foreignItem
    else .ok (some (.array item values)) := by
  rw [settle]
  cases settleAll items with
  | error fault => rfl
  | ok values => simp only [Except.ok_bind, ← Bool.not_eq_true, ite_not]

/-- Some drafts fail at the first of them that fails. -/
theorem settleAll_cons : settleAll (draft :: drafts) =
    draft.settle >>= fun left => (settleAll drafts).map (left.toList ++ ·) := by
  rw [settleAll]
  cases draft.settle with
  | error fault => rfl
  | ok left =>
    cases settleAll drafts with
    | error fault => rfl
    | ok others => rfl

theorem settle_string_eq_ok_iff : (string text).settle = .ok left ↔
    Text.hasNul text = false ∧ some (.string text) = left := by
  rw [← Bool.not_eq_true]
  exact Except.ite_eq_ok_iff

theorem settle_string_eq_error_iff : (string text).settle = .error fault ↔
    Text.hasNul text = true ∧ .holdsNul = fault :=
  Except.ite_eq_error_iff

theorem settle_cstring_eq_ok_iff : (cstring text).settle = .ok left ↔
    Text.hasNul text = false ∧ some (.cstring text) = left := by
  rw [← Bool.not_eq_true]
  exact Except.ite_eq_ok_iff

theorem settle_cstring_eq_error_iff : (cstring text).settle = .error fault ↔
    Text.hasNul text = true ∧ .holdsNul = fault :=
  Except.ite_eq_error_iff

theorem settle_struct_eq_ok_iff : (struct fields).settle = .ok left ↔
    ∃ values, settleAll fields = .ok values ∧ some (.struct values) = left := by
  rw [settle_struct, Except.map_eq_ok_iff]

theorem settle_struct_eq_error_iff : (struct fields).settle = .error fault ↔
    settleAll fields = .error fault := by
  rw [settle_struct, Except.map_eq_error_iff]

theorem settle_array_eq_ok_iff : (array (some item) items).settle = .ok left ↔
    ∃ values, settleAll items = .ok values ∧ values.all (·.kind == item) = true ∧
      some (.array item values) = left := by
  simp only [settle_array, Except.bind_eq_ok_iff, Except.ite_eq_ok_iff, Bool.not_eq_false]

theorem settle_array_eq_error_iff : (array (some item) items).settle = .error fault ↔
    settleAll items = .error fault ∨ ∃ values, settleAll items = .ok values ∧
      values.all (·.kind == item) = false ∧ .foreignItem = fault := by
  simp only [settle_array, Except.bind_eq_error_iff, Except.ite_eq_error_iff]

/-- A fault in what is attempted is no fault of the attempt. -/
theorem settle_attempt_eq_ok_iff : (attempt draft).settle = .ok left ↔
    draft.settle = .ok left ∨ (∃ fault, draft.settle = .error fault) ∧ left = none := by
  rw [settle]
  cases draft.settle with
  | error fault => simp [eq_comm]
  | ok value => simp

theorem settle_attempt_ne_error : (attempt draft).settle ≠ .error fault := by
  rw [settle]
  cases draft.settle with
  | error fault => simp
  | ok value => simp

theorem settleAll_cons_eq_ok_iff : settleAll (draft :: drafts) = .ok values ↔
    ∃ left, draft.settle = .ok left ∧
      ∃ others, settleAll drafts = .ok others ∧ left.toList ++ others = values := by
  simp only [settleAll_cons, Except.bind_eq_ok_iff, Except.map_eq_ok_iff]

theorem settleAll_cons_eq_error_iff : settleAll (draft :: drafts) = .error fault ↔
    draft.settle = .error fault ∨
      (∃ left, draft.settle = .ok left) ∧ settleAll drafts = .error fault := by
  simp only [settleAll_cons, Except.bind_eq_error_iff, Except.map_eq_error_iff,
    exists_and_right]

end

/-- The first fault in a draft. -/
def fault? (draft : Draft) : Option Fault :=
  match draft.settle with
  | .error fault => some fault
  | .ok _ => none

/-- The value that is left of a draft; of one with a fault in it nothing is left. -/
def kept? (draft : Draft) : Option Value :=
  match draft.settle with
  | .error _ => none
  | .ok value => value

/-- How many bytes are left of some drafts; none if there is a fault in them. -/
def bodyLength (drafts : List Draft) : Nat :=
  match settleAll drafts with
  | .error _ => 0
  | .ok values => (Value.encodeAll values).length

theorem bodyLength_of_settleAll {drafts : List Draft} {values : List Value}
    (left : settleAll drafts = .ok values) :
    bodyLength drafts = (Value.encodeAll values).length := by
  simp only [bodyLength, left]

mutual

/-- Every length in a draft can be written: that of each text, and that of what is left in each
container. -/
def Short : Draft → Prop
  | .string text => (Text.utf8 text).length < Length.bound
  | .cstring text => (Text.utf8 text).length < Length.bound
  | .struct fields => ShortAll fields ∧ bodyLength fields < Length.bound
  | .array _ items => ShortAll items ∧ bodyLength items < Length.bound
  | .attempt part => part.Short

/-- Every length in some drafts can be written. -/
def ShortAll : List Draft → Prop
  | [] => True
  | draft :: drafts => draft.Short ∧ ShortAll drafts

end

mutual

/-- Whether every length in a draft can be written is found out by counting. -/
def decideShort : (draft : Draft) → Decidable draft.Short
  | .string text => inferInstanceAs (Decidable ((Text.utf8 text).length < Length.bound))
  | .cstring text => inferInstanceAs (Decidable ((Text.utf8 text).length < Length.bound))
  | .struct fields =>
    have := decideShortAll fields
    inferInstanceAs (Decidable (ShortAll fields ∧ bodyLength fields < Length.bound))
  | .array _ items =>
    have := decideShortAll items
    inferInstanceAs (Decidable (ShortAll items ∧ bodyLength items < Length.bound))
  | .attempt part => decideShort part

/-- The same for some drafts. -/
def decideShortAll : (drafts : List Draft) → Decidable (ShortAll drafts)
  | [] => .isTrue trivial
  | draft :: drafts =>
    have := decideShort draft
    have := decideShortAll drafts
    inferInstanceAs (Decidable (draft.Short ∧ ShortAll drafts))

end

instance (draft : Draft) : Decidable draft.Short := decideShort draft

instance (drafts : List Draft) : Decidable (ShortAll drafts) := decideShortAll drafts

theorem shortAll_iff {drafts : List Draft} :
    ShortAll drafts ↔ ∀ draft ∈ drafts, draft.Short := by
  induction drafts with
  | nil => simp only [ShortAll, List.not_mem_nil, false_implies, implies_true]
  | cons draft drafts ih => rw [ShortAll, List.forall_mem_cons, ih]

end Draft

theorem Value.encodeAll_append (first second : List Value) :
    Value.encodeAll (first ++ second) = Value.encodeAll first ++ Value.encodeAll second := by
  induction first with
  | nil => rw [Value.encodeAll, List.nil_append, List.nil_append]
  | cons value first ih =>
    rw [List.cons_append, Value.encodeAll, Value.encodeAll, ih, List.append_assoc]

namespace Draft

/-! ## What is left may be written -/

mutual

/-- What a draft leaves is proper, and it fits. -/
theorem proper_of_settle : ∀ {draft : Draft} {value : Value}, draft.Short →
    draft.settle = .ok (some value) → value.Proper ∧ value.Fits
  | .string text, value, short, settled => by
    rw [Short] at short
    obtain ⟨clean, ⟨⟩⟩ := settle_string_eq_ok_iff.mp settled
    exact ⟨clean, short⟩
  | .cstring text, value, short, settled => by
    rw [Short] at short
    obtain ⟨clean, ⟨⟩⟩ := settle_cstring_eq_ok_iff.mp settled
    exact ⟨clean, short⟩
  | .struct fields, value, short, settled => by
    rw [Short] at short
    obtain ⟨values, left, ⟨⟩⟩ := settle_struct_eq_ok_iff.mp settled
    rw [bodyLength_of_settleAll left] at short
    exact ⟨Value.properAll_iff.mpr (properAll_of_settleAll short.1 left), short.2⟩
  | .array none items, value, short, settled => by
    rw [settle] at settled
    cases settled
  | .array (some item) items, value, short, settled => by
    rw [Short] at short
    obtain ⟨values, left, kinds, ⟨⟩⟩ := settle_array_eq_ok_iff.mp settled
    rw [bodyLength_of_settleAll left] at short
    have proper := Value.properAll_iff.mpr (properAll_of_settleAll short.1 left)
    refine ⟨⟨proper, fun value found => ?_⟩, short.2⟩
    exact beq_iff_eq.mp (List.all_eq_true.mp kinds value found)
  | .attempt part, value, short, settled => by
    rw [Short] at short
    rcases settle_attempt_eq_ok_iff.mp settled with left | ⟨_, ⟨⟩⟩
    exact proper_of_settle short left

theorem properAll_of_settleAll : ∀ {drafts : List Draft} {values : List Value}, ShortAll drafts →
    settleAll drafts = .ok values → ∀ value ∈ values, value.Proper
  | [], values, short, settled => by
    rw [settleAll] at settled
    cases settled
    exact fun _ found => nomatch found
  | draft :: drafts, values, short, settled => by
    rw [ShortAll] at short
    obtain ⟨first, left, rest, others, rfl⟩ := settleAll_cons_eq_ok_iff.mp settled
    intro value found
    rcases List.mem_append.mp found with here | later
    · rw [Option.mem_toList] at here
      rw [here] at left
      exact (proper_of_settle short.1 left).1
    · exact properAll_of_settleAll short.2 others value later

end

/-! ## Appending a draft -/

mutual

/-- **Appending a draft adds the bytes of the value that it leaves, or meets the fault in it and
adds nothing.** -/
theorem write_of_short : ∀ {draft : Draft}, draft.Short → ∀ bytes : List UInt8,
    draft.write bytes = (draft.fault?, bytes ++ Value.encodeAll draft.kept?.toList)
  | .string text, short, bytes => by
    rw [Short] at short
    rw [write, fault?, kept?, settle]
    split
    · exact congrArg (_, ·) (List.append_nil bytes).symm
    · rw [writeCounted_of_short _ short]
      exact congrArg (none, bytes ++ ·) (List.append_nil _).symm
  | .cstring text, short, bytes => by
    rw [write, fault?, kept?, settle]
    split
    · exact congrArg (_, ·) (List.append_nil bytes).symm
    · exact congrArg (none, bytes ++ ·) (List.append_nil _).symm
  | .struct fields, short, bytes => by
    rw [Short] at short
    rw [write, fault?, kept?, settle]
    cases left : settleAll fields with
    | error fault =>
      obtain ⟨body, met⟩ := writeAll_of_error short.1 left []
      rw [met]
      exact congrArg (_, ·) (List.append_nil bytes).symm
    | ok values =>
      rw [bodyLength_of_settleAll left] at short
      rw [writeAll_of_ok short.1 left, List.nil_append]
      dsimp only
      rw [writeCounted_of_short _ short.2]
      exact congrArg (none, bytes ++ ·) (List.append_nil _).symm
  | .array none items, short, bytes => by
    rw [write, fault?, kept?, settle]
    exact congrArg (_, ·) (List.append_nil bytes).symm
  | .array (some item) items, short, bytes => by
    rw [Short] at short
    rw [write, fault?, kept?, settle]
    cases left : settleAll items with
    | error fault =>
      obtain ⟨body, met⟩ := writeAll_of_error short.1 left []
      rw [met]
      exact congrArg (_, ·) (List.append_nil bytes).symm
    | ok values =>
      rw [bodyLength_of_settleAll left] at short
      have reread : (Cursor.ofBytes (Value.encodeAll values)).holdsOnly item =
          values.all (·.kind == item) :=
        Cursor.holdsOnly_eq (properAll_of_settleAll short.1 left) short.2 rfl rfl
      rw [writeAll_of_ok short.1 left, List.nil_append]
      dsimp only
      rw [reread]
      split
      · rw [writeCounted_of_short _ short.2]
        exact congrArg (none, bytes ++ ·) (List.append_nil _).symm
      · exact congrArg (_, ·) (List.append_nil bytes).symm
  | .attempt part, short, bytes => by
    rw [Short] at short
    have left : (attempt part).settle = .ok part.kept? := by
      rw [settle, kept?]
      cases part.settle with
      | error fault => rfl
      | ok value => rfl
    have faultless : (attempt part).fault? = none := by rw [fault?, left]
    have same : (attempt part).kept? = part.kept? := by rw [kept?, left]
    rw [write, write_of_short short, faultless, same]

theorem writeAll_of_ok : ∀ {drafts : List Draft} {values : List Value}, ShortAll drafts →
    settleAll drafts = .ok values → ∀ bytes : List UInt8,
    writeAll drafts bytes = (none, bytes ++ Value.encodeAll values)
  | [], values, short, settled, bytes => by
    rw [settleAll] at settled
    cases settled
    rw [writeAll, Value.encodeAll, List.append_nil]
  | draft :: drafts, values, short, settled, bytes => by
    rw [ShortAll] at short
    obtain ⟨value, left, others, rest, rfl⟩ := settleAll_cons_eq_ok_iff.mp settled
    rw [writeAll, write_of_short short.1, fault?, kept?, left]
    dsimp only
    rw [writeAll_of_ok short.2 rest, List.append_assoc, Value.encodeAll_append]

theorem writeAll_of_error : ∀ {drafts : List Draft} {fault : Fault}, ShortAll drafts →
    settleAll drafts = .error fault → ∀ bytes : List UInt8,
    ∃ longer, writeAll drafts bytes = (some fault, longer)
  | [], fault, short, settled, bytes => by
    rw [settleAll] at settled
    cases settled
  | draft :: drafts, fault, short, settled, bytes => by
    rw [ShortAll] at short
    rw [writeAll, write_of_short short.1, fault?]
    rcases settleAll_cons_eq_error_iff.mp settled with first | ⟨⟨left, first⟩, later⟩
    · rw [first]
      exact ⟨_, rfl⟩
    · rw [first]
      exact writeAll_of_error short.2 later _

end

/-! ## Drafts of given values -/

mutual

/-- A proper value is what is left of the request to write it. -/
theorem settle_ofValue : ∀ {value : Value}, value.Proper →
    (ofValue value).settle = .ok (some value)
  | .string text, proper => by
    rw [Value.Proper] at proper
    rw [ofValue, settle, proper, if_neg Bool.false_ne_true]
  | .cstring text, proper => by
    rw [Value.Proper] at proper
    rw [ofValue, settle, proper, if_neg Bool.false_ne_true]
  | .struct fields, proper => by
    rw [Value.Proper] at proper
    rw [ofValue, settle, settleAll_ofValues proper]
  | .array item items, proper => by
    rw [Value.Proper] at proper
    have kinds : items.all (·.kind == item) = true :=
      List.all_eq_true.mpr fun value found => beq_iff_eq.mpr (proper.2 value found)
    rw [ofValue, settle, settleAll_ofValues proper.1]
    exact if_pos kinds

theorem settleAll_ofValues : ∀ {values : List Value}, Value.ProperAll values →
    settleAll (ofValues values) = .ok values
  | [], _ => by rw [ofValues, settleAll]
  | value :: values, proper => by
    rw [Value.ProperAll] at proper
    rw [ofValues, settleAll, settle_ofValue proper.1, settleAll_ofValues proper.2]
    rfl

end

mutual

/-- Every length in a proper value that fits can be written. -/
theorem short_ofValue : ∀ {value : Value}, value.Proper → value.Fits → (ofValue value).Short
  | .string text, _, fits => fits
  | .cstring text, _, fits => fits
  | .struct fields, proper, fits => by
    rw [Value.Proper] at proper
    rw [ofValue, Short, bodyLength_of_settleAll (settleAll_ofValues proper)]
    exact ⟨shortAll_ofValues proper fits, fits⟩
  | .array item items, proper, fits => by
    rw [Value.Proper] at proper
    rw [ofValue, Short, bodyLength_of_settleAll (settleAll_ofValues proper.1)]
    exact ⟨shortAll_ofValues proper.1 fits, fits⟩

theorem shortAll_ofValues : ∀ {values : List Value}, Value.ProperAll values →
    (Value.encodeAll values).length < Length.bound → ShortAll (ofValues values)
  | [], _, _ => trivial
  | value :: values, proper, short => by
    rw [Value.ProperAll] at proper
    have fits : value.Fits := Value.fits_of_mem List.mem_cons_self short
    rw [Value.encodeAll, List.length_append] at short
    exact ⟨short_ofValue proper.1 fits, shortAll_ofValues proper.2 (by omega)⟩

end

/-- **A proper value that fits is written as its bytes.** -/
theorem write_ofValue {value : Value} (proper : value.Proper) (fits : value.Fits)
    (bytes : List UInt8) : (ofValue value).write bytes = (none, bytes ++ value.encode) := by
  rw [write_of_short (short_ofValue proper fits), fault?, kept?, settle_ofValue proper]
  exact congrArg (none, bytes ++ ·) (List.append_nil _)

/-- So is a proper value without a length of its own, however long it is. -/
theorem write_ofValue_of_countable {value : Value} (proper : value.Proper)
    (countable : value.Countable) (bytes : List UInt8) :
    (ofValue value).write bytes = (none, bytes ++ value.encode) := by
  cases value with
  | cstring text =>
    have clean : Text.hasNul text = false := proper
    rw [ofValue, write, if_neg (Bool.eq_false_iff.mp clean), Value.encode]
  | string text | struct fields | array item items =>
    exact write_ofValue proper (countable (by simp [Value.kind])) bytes

mutual

/-- **What was written without a fault are the bytes of the value, and they could be counted.** -/
theorem encode_of_write : ∀ {value : Value} {bytes longer : List UInt8},
    (ofValue value).write bytes = (none, longer) →
    longer = bytes ++ value.encode ∧ value.Countable
  | .string text, bytes, longer, written => by
    rw [ofValue, write] at written
    split at written
    · cases written
    · obtain ⟨short, whole⟩ := short_of_writeCounted written
      exact ⟨whole, fun _ => short⟩
  | .cstring text, bytes, longer, written => by
    rw [ofValue, write] at written
    split at written
    · cases written
    · cases written
      exact ⟨rfl, fun text => absurd rfl text⟩
  | .struct fields, bytes, longer, written => by
    rw [ofValue, write] at written
    split at written
    · cases written
    · next body inside =>
      obtain ⟨short, whole⟩ := short_of_writeCounted written
      rw [encodeAll_of_writeAll inside, List.nil_append] at short whole
      exact ⟨whole, fun _ => short⟩
  | .array item items, bytes, longer, written => by
    rw [ofValue, write] at written
    split at written
    · cases written
    · next body inside =>
      split at written
      · obtain ⟨short, whole⟩ := short_of_writeCounted written
        rw [encodeAll_of_writeAll inside, List.nil_append] at short whole
        exact ⟨whole, fun _ => short⟩
      · cases written

theorem encodeAll_of_writeAll : ∀ {values : List Value} {bytes longer : List UInt8},
    writeAll (ofValues values) bytes = (none, longer) → longer = bytes ++ Value.encodeAll values
  | [], bytes, longer, written => by
    rw [ofValues, writeAll] at written
    cases written
    rw [Value.encodeAll, List.append_nil]
  | value :: values, bytes, longer, written => by
    rw [ofValues, writeAll] at written
    split at written
    · cases written
    · next between first =>
      rw [encodeAll_of_writeAll written, (encode_of_write first).1, Value.encodeAll,
        List.append_assoc]

end

end Draft

end Mounts.Message

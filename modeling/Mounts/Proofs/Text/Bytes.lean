import Mounts.Text.Basic

/-!
# The bytes of texts, character by character

The UTF-8 form of a text strings together those of its characters, and a character takes one byte to
four.  Two facts about the bytes of single characters carry over to texts: a byte of ASCII belongs
to one character alone, and of two characters the one with the smaller code point has the smaller
bytes, whatever follows either.

Hence a text holds a NUL exactly when its bytes hold a zero (`zero_mem_utf8`), and texts are in the
same order as their bytes (`utf8_lt_utf8`).  So it makes no difference whether texts, their bytes or
their code points are compared (`compare_utf8`, `compare_codePoints`).
-/

namespace Mounts.Text

set_option autoImplicit false

/-- The bytes of a text of given characters. -/
theorem utf8_ofList (letters : List Char) :
    utf8 (String.ofList letters) = letters.flatMap String.utf8EncodeChar := by
  simp only [utf8, String.toByteArray_ofList, List.utf8Encode, List.toList_data_toByteArray]

/-- The bytes of a text are those of its characters in turn. -/
theorem utf8_eq_flatMap (text : String) :
    utf8 text = text.toList.flatMap String.utf8EncodeChar := by
  rw [← utf8_ofList, String.ofList_toList]

/-! ## Bytes as numbers -/

/-- The bytes of a character, as numbers, by its code point. -/
def byteNumbers (code : Nat) : List Nat :=
  if code ≤ 127 then [code]
  else if code ≤ 2047 then [code / 64 + 192, code % 64 + 128]
  else if code ≤ 65535 then [code / 4096 + 224, code / 64 % 64 + 128, code % 64 + 128]
  else [code / 262144 + 240, code / 4096 % 64 + 128, code / 64 % 64 + 128, code % 64 + 128]

theorem toNat_lt_of_valid (letter : Char) : letter.toNat < 1114112 := by
  have valid := letter.valid
  simp only [UInt32.isValidChar, Nat.isValidChar] at valid
  have same : letter.toNat = letter.val.toNat := rfl
  omega

theorem map_toNat_utf8EncodeChar (letter : Char) :
    (String.utf8EncodeChar letter).map UInt8.toNat = byteNumbers letter.toNat := by
  have bounded := toNat_lt_of_valid letter
  have same : letter.val.toNat = letter.toNat := rfl
  simp only [String.utf8EncodeChar, byteNumbers, same]
  split
  · simp only [List.map_cons, List.map_nil, UInt8.toNat_ofNat', List.cons.injEq, and_true]
    omega
  split
  · simp only [List.map_cons, List.map_nil, UInt8.toNat_ofNat', List.cons.injEq, and_true]
    omega
  split
  · simp only [List.map_cons, List.map_nil, UInt8.toNat_ofNat', List.cons.injEq, and_true]
    omega
  · simp only [List.map_cons, List.map_nil, UInt8.toNat_ofNat', List.cons.injEq, and_true]
    omega

/-! ## ASCII bytes -/

theorem mem_byteNumbers {small code : Nat} (ascii : small < 128) :
    small ∈ byteNumbers code ↔ code = small := by
  constructor
  · intro found
    simp only [byteNumbers] at found
    split at found
    · exact (List.mem_singleton.mp found).symm
    split at found
    · simp only [List.mem_cons, List.not_mem_nil, or_false] at found
      omega
    split at found
    · simp only [List.mem_cons, List.not_mem_nil, or_false] at found
      omega
    · simp only [List.mem_cons, List.not_mem_nil, or_false] at found
      omega
  · rintro rfl
    rw [byteNumbers, if_pos (by omega)]
    exact List.mem_singleton_self _

/-- Of all characters only the one of its own number has an ASCII byte among its bytes. -/
theorem mem_utf8EncodeChar {byte : UInt8} (ascii : byte.toNat < 128) {letter : Char} :
    byte ∈ String.utf8EncodeChar letter ↔ letter.toNat = byte.toNat := by
  rw [← mem_byteNumbers ascii, ← map_toNat_utf8EncodeChar, List.mem_map]
  constructor
  · intro found
    exact ⟨byte, found, rfl⟩
  · rintro ⟨other, found, same⟩
    rwa [UInt8.toNat_inj.mp same] at found

theorem utf8EncodeChar_of_ascii {letter : Char} (ascii : letter.toNat < 128) :
    String.utf8EncodeChar letter = [UInt8.ofNat letter.toNat] := by
  have same : letter.val.toNat = letter.toNat := rfl
  rw [String.utf8EncodeChar, same, if_pos (by omega)]

/-- A text holds a NUL exactly when its bytes hold a zero. -/
theorem zero_mem_utf8 {text : String} : (0 : UInt8) ∈ utf8 text ↔ hasNul text = true := by
  have numbered {letter : Char} : letter.toNat = (0 : UInt8).toNat ↔ letter = nul := by
    constructor
    · intro zero
      exact Char.ext (UInt32.toNat_inj.mp zero)
    · rintro rfl
      rfl
  simp only [utf8_eq_flatMap, List.mem_flatMap, hasNul, List.contains_iff_mem,
    mem_utf8EncodeChar (show (0 : UInt8).toNat < 128 by decide), numbered]
  constructor
  · rintro ⟨letter, found, rfl⟩
    exact found
  · intro found
    exact ⟨nul, found, rfl⟩

/-! ## Order -/

/-- An image that keeps the order of single members keeps that of lists. -/
theorem map_lt_map_iff {α β : Type} [LT α] [LT β] {image : α → β}
    (injective : ∀ first second, image first = image second ↔ first = second)
    (order : ∀ first second, image first < image second ↔ first < second) {first second : List α} :
    first.map image < second.map image ↔ first < second := by
  induction first generalizing second with
  | nil =>
    cases second with
    | nil => exact ⟨fun less => absurd less (List.not_lt_nil _), fun less =>
        absurd less (List.not_lt_nil _)⟩
    | cons member members => exact ⟨fun _ => List.nil_lt_cons _ _, fun _ => List.nil_lt_cons _ _⟩
  | cons member members ih =>
    cases second with
    | nil => exact ⟨fun less => absurd less (List.not_lt_nil _), fun less =>
        absurd less (List.not_lt_nil _)⟩
    | cons other others =>
      rw [List.map_cons, List.map_cons, List.cons_lt_cons_iff, List.cons_lt_cons_iff, ih, injective,
        order]

/-- Bytes are in the order of their numbers. -/
theorem map_toNat_lt_iff {first second : List UInt8} :
    first.map UInt8.toNat < second.map UInt8.toNat ↔ first < second :=
  map_lt_map_iff (fun _ _ => UInt8.toNat_inj) fun _ _ => UInt8.lt_iff_toNat_lt.symm

/-- The bytes of a smaller code point are smaller, whatever follows. -/
theorem byteNumbers_append_lt {less more : Nat} (smaller : less < more) (bounded : more < 1114112)
    (first second : List Nat) : byteNumbers less ++ first < byteNumbers more ++ second := by
  simp only [byteNumbers]
  repeat' split
  all_goals
    simp only [List.cons_append, List.nil_append, List.cons_lt_cons_iff]
    omega

/-- The bytes of a smaller character are smaller, whatever follows. -/
theorem utf8EncodeChar_append_lt {less more : Char} (smaller : less < more)
    (first second : List UInt8) :
    String.utf8EncodeChar less ++ first < String.utf8EncodeChar more ++ second := by
  rw [← map_toNat_lt_iff, List.map_append, List.map_append, map_toNat_utf8EncodeChar,
    map_toNat_utf8EncodeChar]
  exact byteNumbers_append_lt smaller (toNat_lt_of_valid more) _ _

theorem flatMap_utf8EncodeChar_lt {first second : List Char} (smaller : first < second) :
    first.flatMap String.utf8EncodeChar < second.flatMap String.utf8EncodeChar := by
  induction first generalizing second with
  | nil =>
    cases second with
    | nil => exact absurd smaller (List.not_lt_nil _)
    | cons letter letters =>
      obtain ⟨byte, bytes, written⟩ :=
        List.exists_cons_of_ne_nil (String.utf8EncodeChar_ne_nil (c := letter))
      rw [List.flatMap_nil, List.flatMap_cons, written]
      exact List.nil_lt_cons _ _
  | cons letter letters ih =>
    cases second with
    | nil => exact absurd smaller (List.not_lt_nil _)
    | cons other others =>
      rw [List.flatMap_cons, List.flatMap_cons]
      rcases List.cons_lt_cons_iff.mp smaller with before | ⟨rfl, rest⟩
      · exact utf8EncodeChar_append_lt before _ _
      · exact List.append_left_lt (ih rest)

/-- **Texts are in the order of their bytes.** -/
theorem utf8_lt_utf8 {first second : String} : utf8 first < utf8 second ↔ first < second := by
  have forward : ∀ {less more : String}, less < more → utf8 less < utf8 more := by
    intro less more smaller
    rw [utf8_eq_flatMap, utf8_eq_flatMap]
    exact flatMap_utf8EncodeChar_lt (String.lt_iff.mp smaller)
  constructor
  · intro smaller
    by_cases same : first = second
    · exact absurd (same ▸ smaller) (List.lt_irrefl _)
    · by_cases before : first < second
      · exact before
      · have after : second < first := Std.lt_of_le_of_ne (String.not_lt.mp before) (Ne.symm same)
        exact absurd (List.lt_trans smaller (forward after)) (List.lt_irrefl _)
  · exact forward

/-! ## Comparing -/

/-- Lists compare in the order of their members. -/
theorem compare_list_eq_lt_iff {α : Type} [Ord α] [LT α] [LE α] [Std.LawfulOrderOrd α]
    [Std.LawfulOrderLT α] [Std.LawfulEqOrd α] {first second : List α} :
    compare first second = .lt ↔ first < second := by
  induction first generalizing second with
  | nil =>
    cases second with
    | nil => exact ⟨fun less => (nomatch less), fun less => absurd less (List.not_lt_nil _)⟩
    | cons member members => exact ⟨fun _ => List.nil_lt_cons _ _, fun _ => rfl⟩
  | cons member members ih =>
    cases second with
    | nil => exact ⟨fun less => (nomatch less), fun less => absurd less (List.not_lt_nil _)⟩
    | cons other others =>
      rw [List.compare_cons_cons, Ordering.then_eq_lt, Std.compare_eq_lt,
        Std.LawfulEqOrd.compare_eq_iff_eq, List.cons_lt_cons_iff, ih]

theorem compare_eq_lt_iff {first second : String} :
    compare first second = .lt ↔ first < second :=
  compareOfLessAndEq_eq_lt

theorem isLE_compare_iff {first second : String} :
    (compare first second).isLE ↔ first ≤ second := by
  rw [← String.not_lt, ← compare_eq_lt_iff, ← Std.OrientedCmp.gt_iff_lt, Ordering.isLE_iff_ne_gt]

/-- An image that keeps which member is smaller keeps all comparisons. -/
theorem compare_image {α β : Type} [Ord α] [Ord β] [Std.OrientedOrd α] [Std.OrientedOrd β]
    {image : α → β}
    (order : ∀ first second, compare (image first) (image second) = .lt ↔
      compare first second = .lt) (first second : α) :
    compare (image first) (image second) = compare first second := by
  have after : compare (image first) (image second) = .gt ↔ compare first second = .gt := by
    rw [Std.OrientedCmp.gt_iff_lt, Std.OrientedCmp.gt_iff_lt, order]
  have before := order first second
  cases outcome : compare first second with
  | lt => exact before.mpr outcome
  | gt => exact after.mpr outcome
  | eq =>
    rw [outcome] at before after
    cases image_outcome : compare (image first) (image second) with
    | lt => exact nomatch before.mp image_outcome
    | gt => exact nomatch after.mp image_outcome
    | eq => rfl

/-- **Texts compare as their bytes do.** -/
theorem compare_utf8 (first second : String) :
    compare (utf8 first) (utf8 second) = compare first second :=
  compare_image (fun _ _ => by
    rw [compare_list_eq_lt_iff, compare_eq_lt_iff, utf8_lt_utf8]) first second

/-- The code points of the characters of a text. -/
def codePoints (text : String) : List Nat :=
  text.toList.map Char.toNat

/-- **Texts compare as their code points do.** -/
theorem compare_codePoints (first second : String) :
    compare (codePoints first) (codePoints second) = compare first second := by
  refine compare_image (fun one other => ?_) first second
  rw [compare_list_eq_lt_iff, compare_eq_lt_iff, codePoints, codePoints, String.lt_iff]
  exact map_lt_map_iff (fun _ _ => Char.toNat_inj) fun _ _ => Iff.rfl

end Mounts.Text

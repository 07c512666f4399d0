import Mounts.Proofs.Text.Bytes

/-!
# Cutting texts to a size

A text is cut to the whole characters that fit a number of bytes and then at its first NUL.  What is
left is the longest of all beginnings that are `Admissible`, since these are exactly its own
beginnings (`admissible_iff`).

The place to cut can also be found among the bytes, by going down from the given number to the first
position at which a character begins.  That search always ends, before it would go below zero, and
cuts where the characters that fit end (`cutAtBoundary?_eq`).
-/

namespace Mounts.Text

set_option autoImplicit false

/-! ## The longest beginning -/

/-- The number of bytes that characters take. -/
def byteCount (letters : List Char) : Nat :=
  (letters.flatMap String.utf8EncodeChar).length

theorem byteCount_nil : byteCount [] = 0 := rfl

theorem byteCount_cons (letter : Char) (letters : List Char) :
    byteCount (letter :: letters) = letter.utf8Size + byteCount letters := by
  rw [byteCount, List.flatMap_cons, List.length_append, String.length_utf8EncodeChar, byteCount]

theorem length_utf8_eq (text : String) : (utf8 text).length = byteCount text.toList := by
  rw [utf8_eq_flatMap, byteCount]

theorem prefix_flatMap {part letters : List Char} (begun : part <+: letters) :
    part.flatMap String.utf8EncodeChar <+: letters.flatMap String.utf8EncodeChar := by
  obtain ⟨rest, rfl⟩ := begun
  rw [List.flatMap_append]
  exact List.prefix_append _ _

/-- **The beginnings of the characters that fit are the beginnings of all of them that fit.** -/
theorem prefix_fitting_iff {limit : Nat} {part letters : List Char} :
    part <+: fitting limit letters ↔ part <+: letters ∧ byteCount part ≤ limit := by
  induction letters generalizing limit part with
  | nil =>
    rw [fitting, List.prefix_nil]
    constructor
    · rintro rfl
      exact ⟨rfl, Nat.zero_le _⟩
    · exact And.left
  | cons letter letters ih =>
    cases part with
    | nil => exact ⟨fun _ => ⟨List.nil_prefix, Nat.zero_le _⟩, fun _ => List.nil_prefix⟩
    | cons first part =>
      rw [fitting, byteCount_cons]
      split
      · next room =>
        rw [List.cons_prefix_cons, List.cons_prefix_cons, ih]
        constructor
        · rintro ⟨rfl, begun, small⟩
          exact ⟨⟨rfl, begun⟩, by omega⟩
        · rintro ⟨⟨rfl, begun⟩, small⟩
          exact ⟨rfl, begun, by omega⟩
      · next full =>
        rw [List.prefix_nil, List.cons_prefix_cons]
        constructor
        · intro none
          cases none
        · rintro ⟨⟨rfl, begun⟩, small⟩
          omega

theorem prefix_takeWhile_iff {keeps : Char → Bool} {part letters : List Char} :
    part <+: letters.takeWhile keeps ↔ part <+: letters ∧ ∀ letter ∈ part, keeps letter := by
  induction letters generalizing part with
  | nil =>
    rw [List.takeWhile_nil, List.prefix_nil]
    constructor
    · rintro rfl
      exact ⟨rfl, fun _ inside => nomatch inside⟩
    · exact And.left
  | cons letter letters ih =>
    cases part with
    | nil => exact ⟨fun _ => ⟨List.nil_prefix, fun _ inside => nomatch inside⟩,
        fun _ => List.nil_prefix⟩
    | cons first part =>
      rw [List.takeWhile_cons, List.forall_mem_cons]
      split
      · next kept =>
        rw [List.cons_prefix_cons, List.cons_prefix_cons, ih]
        constructor
        · rintro ⟨rfl, begun, all⟩
          exact ⟨⟨rfl, begun⟩, kept, all⟩
        · rintro ⟨⟨rfl, begun⟩, _, all⟩
          exact ⟨rfl, begun, all⟩
      · next dropped =>
        rw [List.prefix_nil, List.cons_prefix_cons]
        constructor
        · intro none
          cases none
        · rintro ⟨⟨rfl, begun⟩, kept, _⟩
          exact absurd kept dropped

/-- A beginning of a text, made of whole characters and without NUL, that fits a number of bytes. -/
structure Admissible (limit : Nat) (text beginning : String) : Prop where
  whole : beginning.toList <+: text.toList
  clean : hasNul beginning = false
  fits : (utf8 beginning).length ≤ limit

/-- **The beginnings of what is left of a text are its admissible beginnings.** -/
theorem admissible_iff {limit : Nat} {text beginning : String} :
    Admissible limit text beginning ↔
      beginning.toList <+: (untilNul (within limit text)).toList := by
  rw [untilNul, within, String.toList_ofList, String.toList_ofList, prefix_takeWhile_iff,
    prefix_fitting_iff, ← length_utf8_eq]
  have clean_iff : (∀ letter ∈ beginning.toList, (letter != nul) = true) ↔
      hasNul beginning = false := by
    rw [hasNul, List.contains_eq_mem, decide_eq_false_iff_not]
    constructor
    · intro all inside
      exact absurd rfl (bne_iff_ne.mp (all nul inside))
    · rintro absent letter inside
      exact bne_iff_ne.mpr fun same => absent (same ▸ inside)
  rw [clean_iff]
  constructor
  · rintro ⟨whole, clean, fits⟩
    exact ⟨⟨whole, fits⟩, clean⟩
  · rintro ⟨⟨whole, fits⟩, clean⟩
    exact ⟨whole, clean, fits⟩

/-! ## Looking for a boundary -/

/-- Whether a byte leads a character, rather than continuing one. -/
def leads (byte : UInt8) : Bool :=
  byte < 0x80 || 0xc0 ≤ byte

/-- Whether a position among the bytes of a text is at the beginning of a character, or at the end
of the text.  The beginning of a text needs no rule of its own. -/
def isBoundary (bytes : List UInt8) (position : Nat) : Bool :=
  match bytes[position]? with
  | some byte => leads byte
  | none => position == bytes.length

/-- The first boundary from a position downwards, if there is one before the search would have to go
below zero. -/
def boundaryFrom? (bytes : List UInt8) : Nat → Option Nat
  | 0 => if isBoundary bytes 0 then some 0 else none
  | position + 1 =>
    if isBoundary bytes (position + 1) then some (position + 1) else boundaryFrom? bytes position

/-- The text before the first boundary from a number of bytes downwards, or the whole text if it is
not longer.  There is none if the search finds no boundary or if the bytes are no text. -/
def cutAtBoundary? (limit : Nat) (text : String) : Option String :=
  if (utf8 text).length ≤ limit then some text
  else (boundaryFrom? (utf8 text) limit).bind fun position => ofUtf8? ((utf8 text).take position)

/-- The search finds the greatest boundary that is not above the position where it starts. -/
theorem boundaryFrom?_eq_some {bytes : List UInt8} {start position : Nat}
    (boundary : isBoundary bytes position) (reached : position ≤ start)
    (greatest : ∀ other, isBoundary bytes other → other ≤ start → other ≤ position) :
    boundaryFrom? bytes start = some position := by
  induction start with
  | zero =>
    obtain rfl := Nat.le_zero.mp reached
    rw [boundaryFrom?, if_pos boundary]
  | succ start ih =>
    rw [boundaryFrom?]
    split
    · next here =>
      rw [Nat.le_antisymm (greatest _ here (Nat.le_refl _)) reached]
    · next elsewhere =>
      have below : position ≤ start := by
        rcases Nat.lt_or_eq_of_le reached with less | rfl
        · exact Nat.lt_succ_iff.mp less
        · exact absurd boundary elsewhere
      exact ih below fun other there least => greatest other there (Nat.le_succ_of_le least)

/-! ## Boundaries are ends of characters -/

theorem byteNumbers_shape {code : Nat} (bounded : code < 1114112) :
    ∃ lead tail, byteNumbers code = lead :: tail ∧ (lead < 128 ∨ 192 ≤ lead) ∧
      ∀ number ∈ tail, 128 ≤ number ∧ number < 192 := by
  simp only [byteNumbers]
  split
  · exact ⟨_, _, rfl, by omega, by simp⟩
  split
  · exact ⟨_, _, rfl, by omega, by simp; omega⟩
  split
  · exact ⟨_, _, rfl, by omega, by simp; omega⟩
  · exact ⟨_, _, rfl, by omega, by simp; omega⟩

theorem leads_iff {byte : UInt8} : leads byte = true ↔ byte.toNat < 128 ∨ 192 ≤ byte.toNat := by
  rw [leads, Bool.or_eq_true, decide_eq_true_iff, decide_eq_true_iff, UInt8.lt_iff_toNat_lt,
    UInt8.le_iff_toNat_le]
  rfl

/-- Of the bytes of a character only the first one leads it. -/
theorem utf8EncodeChar_shape (letter : Char) :
    ∃ lead tail, String.utf8EncodeChar letter = lead :: tail ∧ leads lead = true ∧
      ∀ byte ∈ tail, leads byte = false := by
  obtain ⟨number, numbers, written, first, others⟩ := byteNumbers_shape (toNat_lt_of_valid letter)
  rw [← map_toNat_utf8EncodeChar] at written
  obtain ⟨lead, tail, same, rfl, rfl⟩ := List.map_eq_cons_iff.mp written
  refine ⟨lead, tail, same, leads_iff.mpr first, fun byte inside => ?_⟩
  have continues := others byte.toNat (List.mem_map_of_mem inside)
  rw [← Bool.not_eq_true, leads_iff]
  omega

theorem isBoundary_append (front rest : List UInt8) (position : Nat) :
    isBoundary (front ++ rest) (front.length + position) = isBoundary rest position := by
  rw [isBoundary, isBoundary, List.getElem?_append_right (Nat.le_add_right _ _),
    Nat.add_sub_cancel_left, List.length_append]
  cases rest[position]? with
  | some byte => rfl
  | none => exact Bool.eq_iff_iff.mpr (by simp only [beq_iff_eq, Nat.add_left_cancel_iff])

/-- Within the bytes of a character only the first position is a boundary. -/
theorem isBoundary_within {letter : Char} {position : Nat} (inside : position < letter.utf8Size)
    (rest : List UInt8) :
    isBoundary (String.utf8EncodeChar letter ++ rest) position = true ↔ position = 0 := by
  obtain ⟨lead, tail, written, first, others⟩ := utf8EncodeChar_shape letter
  rw [← String.length_utf8EncodeChar, written] at inside
  rw [written]
  cases position with
  | zero => exact iff_of_true first rfl
  | succ position =>
    have short : position < tail.length := Nat.lt_of_succ_lt_succ inside
    have byte : (lead :: tail ++ rest)[position + 1]? = some tail[position] := by
      rw [List.cons_append, List.getElem?_cons_succ, List.getElem?_append_left short,
        List.getElem?_eq_getElem short]
    have continues := others _ (List.getElem_mem short)
    rw [isBoundary, byte]
    exact iff_of_false (Bool.eq_false_iff.mp continues) (Nat.succ_ne_zero _)

/-- **The boundaries among the bytes of characters are the ends of their beginnings.** -/
theorem isBoundary_iff {letters : List Char} {position : Nat} :
    isBoundary (letters.flatMap String.utf8EncodeChar) position = true ↔
      ∃ part, part <+: letters ∧ byteCount part = position := by
  induction letters generalizing position with
  | nil =>
    rw [List.flatMap_nil, isBoundary, List.getElem?_nil, beq_iff_eq, List.length_nil]
    constructor
    · rintro rfl
      exact ⟨[], List.nil_prefix, rfl⟩
    · rintro ⟨part, none, rfl⟩
      rw [List.prefix_nil.mp none, byteCount_nil]
  | cons letter letters ih =>
    rw [List.flatMap_cons]
    rcases Nat.lt_or_ge position letter.utf8Size with inside | behind
    · rw [isBoundary_within inside]
      constructor
      · rintro rfl
        exact ⟨[], List.nil_prefix, byteCount_nil⟩
      · rintro ⟨part, begun, rfl⟩
        cases part with
        | nil => exact byteCount_nil
        | cons first part =>
          obtain ⟨rfl, _⟩ := List.cons_prefix_cons.mp begun
          rw [byteCount_cons] at inside
          omega
    · obtain ⟨further, rfl⟩ := Nat.exists_eq_add_of_le behind
      rw [← String.length_utf8EncodeChar, isBoundary_append, ih, String.length_utf8EncodeChar]
      constructor
      · rintro ⟨part, begun, rfl⟩
        exact ⟨letter :: part, List.cons_prefix_cons.mpr ⟨rfl, begun⟩, byteCount_cons _ _⟩
      · rintro ⟨part, begun, count⟩
        cases part with
        | nil =>
          have some_bytes := letter.utf8Size_pos
          rw [byteCount_nil] at count
          omega
        | cons first part =>
          obtain ⟨rfl, rest⟩ := List.cons_prefix_cons.mp begun
          rw [byteCount_cons] at count
          exact ⟨part, rest, by omega⟩

/-- **The search downwards always ends at a boundary, and cuts a text where it fits best.** -/
theorem cutAtBoundary?_eq (limit : Nat) (text : String) :
    cutAtBoundary? limit text = some (within limit text) := by
  have fitted := prefix_fitting_iff.mp (List.prefix_refl (fitting limit text.toList))
  rw [cutAtBoundary?, within]
  split
  · next short =>
    have whole := prefix_fitting_iff.mpr ⟨List.prefix_refl text.toList, length_utf8_eq text ▸ short⟩
    rw [fitted.1.eq_of_length_le whole.length_le, String.ofList_toList]
  · next long =>
    have found : boundaryFrom? (utf8 text) limit =
        some (byteCount (fitting limit text.toList)) := by
      rw [utf8_eq_flatMap]
      refine boundaryFrom?_eq_some (isBoundary_iff.mpr ⟨_, fitted.1, rfl⟩) fitted.2
        fun other boundary reached => ?_
      obtain ⟨part, begun, rfl⟩ := isBoundary_iff.mp boundary
      exact (prefix_flatMap (prefix_fitting_iff.mpr ⟨begun, reached⟩)).length_le
    have taken : (utf8 text).take (byteCount (fitting limit text.toList)) =
        utf8 (String.ofList (fitting limit text.toList)) := by
      rw [utf8_ofList, utf8_eq_flatMap]
      exact (List.prefix_iff_eq_take.mp (prefix_flatMap fitted.1)).symm
    rw [found, Option.bind_some, taken, ofUtf8?_utf8]

end Mounts.Text

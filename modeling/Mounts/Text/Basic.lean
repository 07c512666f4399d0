/-!
# Texts

What the rest needs of texts: their UTF-8 bytes, in which lengths are counted and messages written,
the cuts that peers and callers make, the pieces between separators, and digests.
-/

namespace Mounts.Text

set_option autoImplicit false

/-!
## Bytes

`utf8` writes a text as the list of its UTF-8 bytes, and `ofUtf8?` reads a list of bytes back,
refusing one that is not UTF-8.  The two undo each other, so a text has one written form and every
accepted list of bytes is the written form of what it was read as.
-/

/-- The UTF-8 bytes of a text, in order. -/
def utf8 (text : String) : List UInt8 :=
  text.toByteArray.data.toList

/-- The text that a list of bytes spells in UTF-8, if it spells one. -/
def ofUtf8? (bytes : List UInt8) : Option String :=
  String.fromUTF8? ⟨bytes.toArray⟩

/-- Reading the bytes of a text gives the text back. -/
@[simp]
theorem ofUtf8?_utf8 (text : String) : ofUtf8? (utf8 text) = some text := by
  have same : ofUtf8? (utf8 text) = String.fromUTF8? text.toByteArray := by
    simp [ofUtf8?, utf8]
  rw [same, String.fromUTF8?, dif_pos text.isValidUTF8]
  rfl

/-- Accepted bytes are the bytes of the text they were read as. -/
theorem utf8_of_ofUtf8? {bytes : List UInt8} {text : String}
    (accepted : ofUtf8? bytes = some text) : utf8 text = bytes := by
  simp only [ofUtf8?, String.fromUTF8?] at accepted
  split at accepted
  · cases accepted
    simp [utf8, String.fromUTF8]
  · exact absurd accepted (by simp)

/-- Bytes are accepted as a text exactly when they are its written form. -/
theorem ofUtf8?_eq_some_iff {bytes : List UInt8} {text : String} :
    ofUtf8? bytes = some text ↔ bytes = utf8 text :=
  ⟨fun accepted => (utf8_of_ofUtf8? accepted).symm, fun written => written ▸ ofUtf8?_utf8 text⟩

/-!
## Cuts

Peers end a text at its first NUL, and some callers announce how many bytes of a text they mean.
`untilNul` is the text before the first NUL, and `within` the longest run of whole characters that
fits a number of bytes.
-/

/-- The character at which a text ends for peers that mark the end of a text by a byte. -/
def nul : Char := '\x00'

/-- Whether a text holds a NUL. -/
def hasNul (text : String) : Bool :=
  text.toList.contains nul

/-- The text before its first NUL, the whole text if it holds none. -/
def untilNul (text : String) : String :=
  String.ofList (text.toList.takeWhile (· != nul))

/-- The longest initial run of characters whose UTF-8 form fits in `limit` bytes. -/
def fitting : Nat → List Char → List Char
  | _, [] => []
  | limit, letter :: letters =>
    if letter.utf8Size ≤ limit then letter :: fitting (limit - letter.utf8Size) letters else []

/-- The longest beginning of a text made of whole characters and at most `limit` bytes long. -/
def within (limit : Nat) (text : String) : String :=
  String.ofList (fitting limit text.toList)

/-- A text cut at its first NUL holds none. -/
@[simp]
theorem hasNul_untilNul (text : String) : hasNul (untilNul text) = false := by
  have kept : ∀ letters : List Char, nul ∉ letters.takeWhile (· != nul) := by
    intro letters
    induction letters with
    | nil => simp
    | cons letter letters ih =>
      by_cases stop : letter = nul
      · simp [stop]
      · simpa [List.takeWhile_cons, stop, Ne.symm stop] using ih
  simp [hasNul, untilNul, kept]

/-- Cutting at NUL leaves a text alone that holds none. -/
theorem untilNul_eq_self {text : String} (clean : hasNul text = false) : untilNul text = text := by
  have whole : ∀ letters : List Char, nul ∉ letters →
      letters.takeWhile (· != nul) = letters := by
    intro letters
    induction letters with
    | nil => simp
    | cons letter letters ih =>
      intro absent
      simp only [List.mem_cons, not_or] at absent
      simp [Ne.symm absent.1, ih absent.2]
  have absent : nul ∉ text.toList := by simpa [hasNul] using clean
  simp [untilNul, whole _ absent]

/-!
## Pieces

A text is split at a character into the pieces between its occurrences, or once at the first
occurrence.  Splitting never loses the empty pieces, so the empty text has one piece.
-/

/-- The pieces of a text between the occurrences of a character, in order. -/
def splitOn (separator : Char) (text : String) : List String :=
  (text.toList.splitOn separator).map String.ofList

/-- The text before and the text after the first occurrence of a character. -/
def splitAtFirst? (separator : Char) (text : String) : Option (String × String) :=
  match text.toList.span (· != separator) with
  | (_, []) => none
  | (before, _ :: after) => some (String.ofList before, String.ofList after)

/-!
## Digests

The digest of a text goes through its UTF-8 bytes, multiplies by 33 and adds the next byte read as a
signed number, all modulo 2³².
-/

/-- A byte read as a signed number and widened to a word. -/
def signExtend (byte : UInt8) : UInt32 :=
  if byte < 128 then byte.toUInt32 else byte.toUInt32 + 0xffffff00

/-- The digest of a text. -/
def digest (text : String) : UInt32 :=
  (utf8 text).foldl (fun sum byte => sum * 33 + signExtend byte) 5381

end Mounts.Text

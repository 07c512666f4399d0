import Mounts.Text.Basic

/-!
# Percent escapes

The compact form of a spec separates its parts by ASCII characters, so inside a part every ASCII
character is escaped as a percent sign and two upper-case hexadecimal digits, the letters, the
digits and `-._~` excepted.  Characters beyond ASCII stand for themselves.

Reading works on bytes and is lenient: a percent sign without two digits after it is itself.  The
bytes that remain have to be UTF-8.

`escapeChar` and `unescapeBytes` stand for a library of percent-encoding that the compact form is
built on.  Of this library two facts are assumed, which are what it documents.  Encoding a character
from the set to be escaped gives a percent sign and two upper-case digits for its byte, and other
characters are copied.  Decoding turns a percent sign with two digits behind it, in either case,
into the byte that they name, copies all other bytes, and never fails.
-/

namespace Mounts

set_option autoImplicit false

/-!
## Hexadecimal digits

Escapes in the compact form and the printed form of bytes and words use hexadecimal digits: the
former in upper case, the latter in lower case.  Reading accepts both.
-/

namespace Text.Hex

/-- The upper-case digit for the lowest four bits of a number. -/
def upper (n : Nat) : Char :=
  "0123456789ABCDEF".toList.getD (n % 16) '0'

/-- The lower-case digit for the lowest four bits of a number. -/
def lower (n : Nat) : Char :=
  "0123456789abcdef".toList.getD (n % 16) '0'

/-- The value of a digit written as an ASCII byte, in either case. -/
def value? (byte : UInt8) : Option UInt8 :=
  if 48 ≤ byte ∧ byte ≤ 57 then some (byte - 48)
  else if 65 ≤ byte ∧ byte ≤ 70 then some (byte - 55)
  else if 97 ≤ byte ∧ byte ≤ 102 then some (byte - 87)
  else none

/-- The byte whose high and low half are the two digits given as ASCII bytes. -/
def pair? (high low : UInt8) : Option UInt8 := do
  let high ← value? high
  let low ← value? low
  return high * 16 + low

/-- Bytes as lower-case digits, two for each, without separators. -/
def ofBytes (bytes : List UInt8) : String :=
  String.ofList (bytes.flatMap fun byte => [lower (byte.toNat / 16), lower byte.toNat])

/-- A word as eight lower-case digits, most significant first. -/
def ofWord (word : UInt32) : String :=
  String.ofList ([28, 24, 20, 16, 12, 8, 4, 0].map fun shift => lower (word.toNat >>> shift))

end Text.Hex

/-! ## Escapes -/

namespace Text

/-- Whether a character stands for itself in escaped text. -/
def standsForItself (letter : Char) : Bool :=
  letter.toNat ≥ 128 || letter.isAlphanum ||
    letter == '-' || letter == '.' || letter == '_' || letter == '~'

/-- The escaped form of one character. -/
def escapeChar (letter : Char) : List Char :=
  if standsForItself letter then [letter]
  else ['%', Hex.upper (letter.toNat / 16), Hex.upper letter.toNat]

/-- Whether a character is one of ASCII. -/
def isAscii (letter : Char) : Bool :=
  letter.toNat < 128

/-- What follows a run of ASCII and a run of other characters. -/
def afterRuns (letters : List Char) : List Char :=
  (letters.dropWhile isAscii).dropWhile (!isAscii ·)

/-- One of the two runs at the start of some characters is not empty. -/
theorem length_afterRuns {letters : List Char} (some_left : letters ≠ []) :
    (afterRuns letters).length < letters.length := by
  obtain ⟨letter, others, rfl⟩ := List.exists_cons_of_ne_nil some_left
  by_cases first : isAscii letter = true
  · have ascii := (List.dropWhile_suffix (l := others) isAscii).length_le
    have raw := (List.dropWhile_suffix (l := others.dropWhile isAscii) (!isAscii ·)).length_le
    simp only [afterRuns, List.dropWhile_cons, first, if_true, List.length_cons]
    omega
  · have raw := (List.dropWhile_suffix (l := others) (!isAscii ·)).length_le
    simp only [afterRuns, List.dropWhile_cons, first, Bool.false_eq_true, if_false,
      Bool.not_false, if_true, List.length_cons]
    omega

/-- The escaped form of characters: by turns a run of ASCII, which is escaped, and a run of others,
which is copied. -/
def escapeRuns (letters : List Char) : List Char :=
  if letters = [] then []
  else
    (letters.takeWhile isAscii).flatMap escapeChar ++
      (letters.dropWhile isAscii).takeWhile (!isAscii ·) ++ escapeRuns (afterRuns letters)
termination_by letters.length
decreasing_by exact length_afterRuns ‹_›

/-- The escaped form of a text. -/
def escape (text : String) : String :=
  String.ofList (escapeRuns text.toList)

/-- The bytes that escaped bytes stand for. -/
def unescapeBytes : List UInt8 → List UInt8
  | [] => []
  | 37 :: high :: low :: rest =>
    match Hex.pair? high low with
    | some byte => byte :: unescapeBytes rest
    | none => 37 :: unescapeBytes (high :: low :: rest)
  | byte :: rest => byte :: unescapeBytes rest

/-- The text that an escaped text stands for, if its bytes are UTF-8. -/
def unescape? (token : String) : Option String :=
  ofUtf8? (unescapeBytes (utf8 token))

end Text

end Mounts

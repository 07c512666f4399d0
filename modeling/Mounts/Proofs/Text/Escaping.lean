import Mounts.Proofs.Text.Bytes
import Mounts.Text.Percent

/-!
# Escaped text

Every text is read back from its escaped form, in which no separator occurs (`unescape?_escape`,
`signsEscape_escape`).  Escaped text need not come from there, and what it stands for in general is
told by rules (`unescape?_eq_some_iff`).
-/

namespace Mounts.Text

set_option autoImplicit false

/-!
## Escaping

Escaping goes by runs of characters, but what becomes of a character does not depend on its
neighbours (`escapeRuns_eq_flatMap`), so reading back can be followed character by character: an
escape gives back the byte of its character, and a character that stands for itself brings no
percent sign that could start an escape.  Hence every text is read back from its escaped form
(`unescape?_escape`).

Escaped text is made of percent signs and of characters that stand for themselves, so no separator
occurs in it.  Every percent sign in it starts an escape of two upper-case digits
(`signsEscape_escape`).
-/

/-! ### Character by character -/

theorem standsForItself_of_not_ascii {letter : Char} (beyond : isAscii letter = false) :
    standsForItself letter = true := by
  have large : 128 ≤ letter.toNat := by simpa only [isAscii, decide_eq_false_iff_not, Nat.not_lt]
    using beyond
  simp only [standsForItself, ge_iff_le, large, decide_true, Bool.true_or]

/-- **Escaping a text escapes each of its characters.** -/
theorem escapeRuns_eq_flatMap (letters : List Char) :
    escapeRuns letters = letters.flatMap escapeChar := by
  fun_induction escapeRuns letters with
  | case1 => rfl
  | case2 letters some_left ih =>
    have copied : ∀ run : List Char, (∀ letter ∈ run, isAscii letter = false) →
        run.flatMap escapeChar = run := by
      intro run beyond
      induction run with
      | nil => rfl
      | cons letter run ih =>
        rw [List.forall_mem_cons] at beyond
        rw [List.flatMap_cons, escapeChar, if_pos (standsForItself_of_not_ascii beyond.1),
          ih beyond.2, List.singleton_append]
    have raw : ((letters.dropWhile isAscii).takeWhile (!isAscii ·)).flatMap escapeChar =
        (letters.dropWhile isAscii).takeWhile (!isAscii ·) := by
      refine copied _ fun letter found => ?_
      simpa using List.all_eq_true.mp List.all_takeWhile letter found
    rw [ih, ← raw, ← List.flatMap_append, ← List.flatMap_append, afterRuns, List.append_assoc,
      List.takeWhile_append_dropWhile, List.takeWhile_append_dropWhile]

theorem toList_escape (text : String) : (escape text).toList = text.toList.flatMap escapeChar := by
  rw [escape, String.toList_ofList, escapeRuns_eq_flatMap]

/-! ### Hexadecimal digits -/

theorem Hex.upper_mod (number : Nat) : Hex.upper number = Hex.upper (number % 16) := by
  rw [Hex.upper, Hex.upper, Nat.mod_mod]

/-- Digits are letters and figures of ASCII, and have the value that they were written for. -/
theorem Hex.digit (number : Nat) :
    (Hex.upper number).toNat < 128 ∧ (Hex.upper number).isAlphanum = true ∧
      Hex.value? (UInt8.ofNat (Hex.upper number).toNat) = some (UInt8.ofNat (number % 16)) := by
  have digits : ∀ digit < 16, (Hex.upper digit).toNat < 128 ∧
      (Hex.upper digit).isAlphanum = true ∧
        Hex.value? (UInt8.ofNat (Hex.upper digit).toNat) = some (UInt8.ofNat digit) := by decide
  rw [Hex.upper_mod]
  exact digits (number % 16) (Nat.mod_lt _ (by decide))

/-- Two digits name the byte that they were written for. -/
theorem Hex.pair?_upper (number : Nat) :
    Hex.pair? (UInt8.ofNat (Hex.upper (number / 16)).toNat)
      (UInt8.ofNat (Hex.upper number).toNat) = some (UInt8.ofNat number) := by
  rw [Hex.pair?, (Hex.digit (number / 16)).2.2, (Hex.digit number).2.2]
  have joined : UInt8.ofNat (number / 16 % 16) * 16 + UInt8.ofNat (number % 16) =
      UInt8.ofNat number := by
    apply UInt8.toNat_inj.mp
    have base : (16 : UInt8).toNat = 16 := rfl
    simp only [UInt8.toNat_add, UInt8.toNat_mul, UInt8.toNat_ofNat', base]
    omega
  exact congrArg some joined

/-! ### Reading back -/

/-- The byte of the percent sign. -/
def percent : UInt8 := 37

theorem unescapeBytes_cons_of_ne {byte : UInt8} (other : byte ≠ percent) (rest : List UInt8) :
    unescapeBytes (byte :: rest) = byte :: unescapeBytes rest := by
  rw [unescapeBytes]
  intro _ _ _ same
  exact absurd same other

theorem unescapeBytes_append_of_plain {bytes : List UInt8} (plain : percent ∉ bytes)
    (rest : List UInt8) : unescapeBytes (bytes ++ rest) = bytes ++ unescapeBytes rest := by
  induction bytes with
  | nil => rfl
  | cons byte bytes ih =>
    rw [List.mem_cons, not_or] at plain
    rw [List.cons_append, unescapeBytes_cons_of_ne (Ne.symm plain.1), ih plain.2, List.cons_append]

/-- What a character was written as is read as the bytes of the character. -/
theorem unescapeBytes_escapeChar (letter : Char) (rest : List UInt8) :
    unescapeBytes ((escapeChar letter).flatMap String.utf8EncodeChar ++ rest) =
      String.utf8EncodeChar letter ++ unescapeBytes rest := by
  rw [escapeChar]
  split
  · next itself =>
    rw [List.flatMap_singleton]
    refine unescapeBytes_append_of_plain (fun found => ?_) rest
    have sign : letter = '%' :=
      Char.ext (UInt32.toNat_inj.mp ((mem_utf8EncodeChar (by decide)).mp found))
    rw [sign] at itself
    exact absurd itself (by decide)
  · next escaped =>
    have ascii : letter.toNat < 128 := by
      cases inside : isAscii letter with
      | true => exact of_decide_eq_true inside
      | false => exact absurd (standsForItself_of_not_ascii inside) escaped
    have high := (Hex.digit (letter.toNat / 16)).1
    have low := (Hex.digit letter.toNat).1
    rw [List.flatMap_cons, List.flatMap_cons, List.flatMap_cons, List.flatMap_nil,
      utf8EncodeChar_of_ascii (by decide), utf8EncodeChar_of_ascii high,
      utf8EncodeChar_of_ascii low, utf8EncodeChar_of_ascii ascii]
    change unescapeBytes (37 :: _ :: _ :: rest) = _
    rw [unescapeBytes, Hex.pair?_upper]
    rfl

theorem unescapeBytes_escape (text : String) : unescapeBytes (utf8 (escape text)) = utf8 text := by
  rw [utf8_eq_flatMap, utf8_eq_flatMap, toList_escape]
  induction text.toList with
  | nil => rfl
  | cons letter letters ih =>
    rw [List.flatMap_cons, List.flatMap_append, unescapeBytes_escapeChar, ih, List.flatMap_cons]

/-- **Every text is read back from its escaped form.** -/
theorem unescape?_escape (text : String) : unescape? (escape text) = some text := by
  rw [unescape?, unescapeBytes_escape, ofUtf8?_utf8]

/-! ### Separators -/

/-- Escaped text is made of percent signs and of characters that stand for themselves. -/
theorem standsForItself_of_mem_escape {text : String} {letter : Char}
    (found : letter ∈ (escape text).toList) : standsForItself letter = true ∨ letter = '%' := by
  have digit (number : Nat) : standsForItself (Hex.upper number) = true := by
    simp only [standsForItself, (Hex.digit number).2.1, Bool.or_true, Bool.true_or]
  rw [toList_escape, List.mem_flatMap] at found
  obtain ⟨origin, _, written⟩ := found
  rw [escapeChar] at written
  split at written
  · next itself =>
    obtain rfl := List.mem_singleton.mp written
    exact .inl itself
  · rw [List.mem_cons, List.mem_cons, List.mem_singleton] at written
    rcases written with rfl | rfl | rfl
    · exact .inr rfl
    · exact .inl (digit _)
    · exact .inl (digit _)

theorem separator_not_mem_escape {separator : Char} (text : String)
    (escaped : standsForItself separator = false) (other : separator ≠ '%') :
    separator ∉ (escape text).toList := by
  intro found
  rcases standsForItself_of_mem_escape found with itself | sign
  · rw [escaped] at itself
    cases itself
  · exact other sign

/-- The characters of ASCII that stand for themselves. -/
theorem standsForItself_iff_of_ascii {letter : Char} (ascii : letter.toNat < 128) :
    standsForItself letter = true ↔ letter.isAlphanum = true ∨ letter ∈ ['-', '.', '_', '~'] := by
  have small : ¬ 128 ≤ letter.toNat := Nat.not_le_of_lt ascii
  simp [standsForItself, small, or_assoc]

/-! ### Percent signs -/

/-- The hexadecimal digits in upper case. -/
def Hex.IsUpper (letter : Char) : Prop :=
  letter ∈ "0123456789ABCDEF".toList

instance (letter : Char) : Decidable (Hex.IsUpper letter) :=
  inferInstanceAs (Decidable (_ ∈ _))

/-- Behind every percent sign there are two upper-case digits. -/
def SignsEscape (letters : List Char) : Prop :=
  ∀ before after, letters = before ++ '%' :: after →
    ∃ high low rest, after = high :: low :: rest ∧ Hex.IsUpper high ∧ Hex.IsUpper low

theorem Hex.isUpper_upper (number : Nat) : Hex.IsUpper (Hex.upper number) := by
  have digits : ∀ digit < 16, Hex.IsUpper (Hex.upper digit) := by decide
  rw [Hex.upper_mod]
  exact digits (number % 16) (Nat.mod_lt _ (by decide))

theorem signsEscape_of_absent {letters : List Char} (absent : '%' ∉ letters) :
    SignsEscape letters := by
  rintro before after rfl
  exact absurd (List.mem_append_right _ List.mem_cons_self) absent

theorem SignsEscape.append {first second : List Char} (one : SignsEscape first)
    (other : SignsEscape second) : SignsEscape (first ++ second) := by
  intro before after whole
  rcases List.append_eq_append_iff.mp whole with ⟨middle, begins, ends⟩ | ⟨middle, begins, ends⟩
  · exact other middle after ends
  · cases middle with
    | nil => exact other [] after ends.symm
    | cons sign middle =>
      obtain ⟨rfl, rfl⟩ := List.cons.inj ends
      obtain ⟨high, low, rest, rfl, digits⟩ := one before middle begins
      exact ⟨high, low, rest ++ second, rfl, digits⟩

theorem signsEscape_flatMap {α : Type} {write : α → List Char} {parts : List α}
    (each : ∀ part ∈ parts, SignsEscape (write part)) : SignsEscape (parts.flatMap write) := by
  induction parts with
  | nil => exact signsEscape_of_absent List.not_mem_nil
  | cons part parts ih =>
    rw [List.forall_mem_cons] at each
    exact each.1.append (ih each.2)

theorem signsEscape_escapeChar (letter : Char) : SignsEscape (escapeChar letter) := by
  rw [escapeChar]
  split
  · next itself =>
    apply signsEscape_of_absent
    intro found
    rw [← List.mem_singleton.mp found] at itself
    exact absurd itself (by decide)
  · intro before after whole
    -- No digit is a percent sign, so the one at the front is the only one.
    have no_sign (number : Nat) : Hex.upper number ≠ '%' := by
      intro sign
      have digit := Hex.isUpper_upper number
      rw [sign] at digit
      exact absurd digit (by decide)
    rcases before with - | ⟨first, - | ⟨second, - | ⟨third, before⟩⟩⟩
    · obtain ⟨_, rfl⟩ := List.cons.inj whole
      exact ⟨_, _, [], rfl, Hex.isUpper_upper _, Hex.isUpper_upper _⟩
    · exact absurd (by simpa using whole) (by simp [no_sign])
    · exact absurd (by simpa using whole) (by simp [no_sign])
    · exact absurd (congrArg List.length whole) (by simp)

/-- **Every percent sign of escaped text starts an escape of two upper-case digits.** -/
theorem signsEscape_escape (text : String) : SignsEscape (escape text).toList := by
  rw [toList_escape]
  exact signsEscape_flatMap fun letter _ => signsEscape_escapeChar letter

/-!
## What escaped text stands for

`Unescapes` says by rules which bytes escaped bytes stand for: a percent sign with two hexadecimal
digits behind it, of either case, stands for the byte that they number; any other percent sign and
every other byte stand for themselves.  The rules exclude each other, and reading follows them
(`unescapeBytes_eq_iff`), so a token is read as a text exactly if its bytes stand for the bytes of
that text (`unescape?_eq_some_iff`).
-/

/-! ### Digits -/

/-- A byte is one of the two digits, upper and lower case, for a number below sixteen. -/
def Hex.IsDigit (byte : UInt8) (number : Nat) : Prop :=
  number < 16 ∧
    (byte.toNat = (Hex.upper number).toNat ∨ byte.toNat = (Hex.lower number).toNat)

/-- Digits below ten follow the code of zero, and the others those of the two letters. -/
theorem Hex.isDigit_iff {byte : UInt8} {number : Nat} : Hex.IsDigit byte number ↔
    number < 10 ∧ byte.toNat = 48 + number ∨
      10 ≤ number ∧ number < 16 ∧ (byte.toNat = 55 + number ∨ byte.toNat = 87 + number) := by
  have decimal : ∀ number < 10, (Hex.upper number).toNat = 48 + number ∧
      (Hex.lower number).toNat = 48 + number := by decide
  have letters : ∀ number < 16, 10 ≤ number → (Hex.upper number).toNat = 55 + number ∧
      (Hex.lower number).toNat = 87 + number := by decide
  rw [Hex.IsDigit]
  by_cases small : number < 16
  · rcases Nat.lt_or_ge number 10 with below | above
    · rw [(decimal number below).1, (decimal number below).2]
      omega
    · rw [(letters number small above).1, (letters number small above).2]
      omega
  · omega

/-- A byte has a value exactly if it is a digit for it. -/
theorem Hex.value?_eq_some_iff {byte value : UInt8} :
    Hex.value? byte = some value ↔ ∃ number, Hex.IsDigit byte number ∧ value.toNat = number := by
  have size := byte.toNat_lt
  have counted (base : UInt8) : some (byte - base) = some value ↔
      (2 ^ 8 - base.toNat + byte.toNat) % 2 ^ 8 = value.toNat := by
    rw [Option.some.injEq, ← UInt8.toNat_inj, UInt8.toNat_sub]
  rw [exists_eq_right', Hex.isDigit_iff, Hex.value?]
  simp only [UInt8.le_iff_toNat_le, UInt8.toNat_ofNat]
  split
  · simp only [counted, UInt8.toNat_ofNat]
    omega
  · split
    · simp only [counted, UInt8.toNat_ofNat]
      omega
    · split
      · simp only [counted, UInt8.toNat_ofNat]
        omega
      · simp only [reduceCtorEq, false_iff]
        omega

/-- Two bytes name a byte exactly if they are digits for its halves. -/
theorem Hex.pair?_eq_some_iff {high low byte : UInt8} :
    Hex.pair? high low = some byte ↔ ∃ upper lower, Hex.IsDigit high upper ∧
      Hex.IsDigit low lower ∧ byte = UInt8.ofNat (16 * upper + lower) := by
  have joined (upper lower : UInt8) :
      upper * 16 + lower = UInt8.ofNat (16 * upper.toNat + lower.toNat) := by
    apply UInt8.toNat_inj.mp
    have base : (16 : UInt8).toNat = 16 := rfl
    simp only [UInt8.toNat_add, UInt8.toNat_mul, UInt8.toNat_ofNat', base]
    omega
  rw [Hex.pair?]
  constructor
  · intro named
    obtain ⟨upper, first, named⟩ := Option.bind_eq_some_iff.mp named
    obtain ⟨lower, second, named⟩ := Option.bind_eq_some_iff.mp named
    obtain ⟨_, isUpper, rfl⟩ := Hex.value?_eq_some_iff.mp first
    obtain ⟨_, isLower, rfl⟩ := Hex.value?_eq_some_iff.mp second
    exact ⟨_, _, isUpper, isLower, (Option.some.inj named).symm.trans (joined upper lower)⟩
  · rintro ⟨upper, lower, isUpper, isLower, rfl⟩
    have value {digit : UInt8} {number : Nat} (isDigit : Hex.IsDigit digit number) :
        Hex.value? digit = some (UInt8.ofNat number) := by
      refine Hex.value?_eq_some_iff.mpr ⟨number, isDigit, ?_⟩
      have small := isDigit.1
      rw [UInt8.toNat_ofNat']
      omega
    rw [value isUpper, value isLower]
    refine congrArg some ((joined _ _).trans ?_)
    have small := isUpper.1
    have small_too := isLower.1
    apply UInt8.toNat_inj.mp
    simp only [UInt8.toNat_ofNat']
    omega

/-! ### Escaped bytes -/

/-- The bytes that escaped bytes stand for. -/
inductive Unescapes : List UInt8 → List UInt8 → Prop
  /-- No bytes stand for none. -/
  | nothing : Unescapes [] []
  /-- A percent sign and two digits stand for one byte. -/
  | escape {high low : UInt8} {upper lower : Nat} {rest bytes : List UInt8} :
      Hex.IsDigit high upper → Hex.IsDigit low lower → Unescapes rest bytes →
        Unescapes (percent :: high :: low :: rest) (UInt8.ofNat (16 * upper + lower) :: bytes)
  /-- A percent sign without two digits behind it stands for itself. -/
  | stray {rest bytes : List UInt8} :
      (∀ high low upper lower, [high, low] <+: rest →
        ¬ (Hex.IsDigit high upper ∧ Hex.IsDigit low lower)) →
          Unescapes rest bytes → Unescapes (percent :: rest) (percent :: bytes)
  /-- Any other byte stands for itself. -/
  | plain {byte : UInt8} {rest bytes : List UInt8} :
      byte ≠ percent → Unescapes rest bytes → Unescapes (byte :: rest) (byte :: bytes)

/-- What reading gives is what escaped bytes stand for. -/
theorem unescapes_unescapeBytes (escaped : List UInt8) :
    Unescapes escaped (unescapeBytes escaped) := by
  fun_induction unescapeBytes escaped with
  | case1 => exact .nothing
  | case2 high low rest byte named ih =>
    obtain ⟨upper, lower, isUpper, isLower, rfl⟩ := Hex.pair?_eq_some_iff.mp named
    exact .escape isUpper isLower ih
  | case3 high low rest unnamed ih =>
    refine .stray (fun first second upper lower ahead digits => ?_) ih
    obtain ⟨rfl, rfl⟩ : first = high ∧ second = low := by simpa using ahead
    have named := Hex.pair?_eq_some_iff.mpr ⟨upper, lower, digits.1, digits.2, rfl⟩
    rw [unnamed] at named
    cases named
  | case4 byte rest other ih =>
    by_cases sign : byte = percent
    · subst sign
      refine .stray (fun high low _ _ ahead _ => ?_) ih
      obtain ⟨more, rfl⟩ := ahead
      exact other high low more rfl rfl
    · exact .plain sign ih

/-- Reading follows the rules. -/
theorem unescapeBytes_of_unescapes {escaped bytes : List UInt8} (rules : Unescapes escaped bytes) :
    unescapeBytes escaped = bytes := by
  induction rules with
  | nothing => rfl
  | escape isUpper isLower _ ih =>
    have named := Hex.pair?_eq_some_iff.mpr ⟨_, _, isUpper, isLower, rfl⟩
    rw [percent, unescapeBytes, named, ih]
  | @stray rest bytes undigited _ ih =>
    rcases rest with - | ⟨high, - | ⟨low, more⟩⟩
    · rw [← ih]
      rfl
    · rw [← ih]
      rfl
    · have unnamed : Hex.pair? high low = none := by
        rw [Option.eq_none_iff_forall_ne_some]
        intro byte named
        obtain ⟨upper, lower, isUpper, isLower, _⟩ := Hex.pair?_eq_some_iff.mp named
        exact undigited high low upper lower ⟨more, rfl⟩ ⟨isUpper, isLower⟩
      rw [percent, unescapeBytes, unnamed, ih]
  | plain other _ ih => rw [unescapeBytes_cons_of_ne other, ih]

/-- **Reading gives the bytes that escaped bytes stand for.** -/
theorem unescapeBytes_eq_iff {escaped bytes : List UInt8} :
    unescapeBytes escaped = bytes ↔ Unescapes escaped bytes :=
  ⟨fun same => same ▸ unescapes_unescapeBytes escaped, unescapeBytes_of_unescapes⟩

/-- A token is read as a text exactly if its bytes stand for those of the text. -/
theorem unescape?_eq_some_iff {token text : String} :
    unescape? token = some text ↔ Unescapes (utf8 token) (utf8 text) := by
  rw [unescape?, ofUtf8?_eq_some_iff, unescapeBytes_eq_iff]

end Mounts.Text

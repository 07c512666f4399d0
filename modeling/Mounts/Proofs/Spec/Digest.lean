import Mathlib.Algebra.BigOperators.Fin
import Mathlib.Data.Int.ModEq
import Mathlib.Data.Multiset.Dedup
import Mathlib.Data.Multiset.Fold
import Mathlib.Tactic.Ring
import Mounts.Proofs.Spec.Storing
import Mounts.Spec.Basic
import Mounts.Text.Basic

/-!
# Digests

The digest of a text is a number in base 33, modulo 2³² (`digest_eq_numeral`), and the digest of a
spec combines those of its scope and of its values (`digest_eq_combined`).  `digest_under_change`
says what becomes of it when a value is stored.
-/

namespace Mounts

set_option autoImplicit false

/-!
## Digests of texts as numbers

The digest of a text goes through its bytes and multiplies what it has by 33 before it adds the next
one.  So it is the number that the bytes, read as signed numbers, spell in base 33 behind the digit
5381, modulo 2³² (`digest_eq_numeral`).
-/

namespace Text

/-- A byte read as a signed number, from -128 to 127. -/
def signed (byte : UInt8) : ℤ :=
  byte.toInt8.toInt

theorem signed_eq (byte : UInt8) :
    signed byte = if byte.toNat < 128 then (byte.toNat : ℤ) else byte.toNat - 256 := by
  have cases_by_size : signed byte =
      if 2 * byte.toNat < 2 ^ 8 then (byte.toNat : ℤ) else byte.toNat - (2 ^ 8 : ℕ) :=
    BitVec.toInt_eq_toNat_cond byte.toBitVec
  split
  · rw [cases_by_size, if_pos (by omega)]
  · rw [cases_by_size, if_neg (by omega)]
    rfl

/-- A byte is widened to the word that its signed number has modulo 2³². -/
theorem signExtend_modEq (byte : UInt8) :
    ((signExtend byte).toNat : ℤ) ≡ signed byte [ZMOD 2 ^ 32] := by
  have bounded := byte.toNat_lt
  rw [signed_eq, signExtend]
  by_cases small : byte < 128
  · have ascii : byte.toNat < 128 := UInt8.lt_iff_toNat_lt.mp small
    rw [if_pos small, if_pos ascii, UInt8.toNat_toUInt32]
  · have high : ¬byte.toNat < 128 := fun below => small (UInt8.lt_iff_toNat_lt.mpr below)
    have widened : (byte.toUInt32 + 0xffffff00).toNat = byte.toNat + 4294967040 := by
      have ones : (0xffffff00 : UInt32).toNat = 4294967040 := rfl
      rw [UInt32.toNat_add, UInt8.toNat_toUInt32, ones]
      omega
    rw [if_neg small, if_neg high, widened, Int.modEq_iff_dvd]
    exact ⟨-1, by push_cast; ring⟩

/-- One more byte behind a word. -/
theorem step_modEq {sum : UInt32} {number : ℤ} (same : (sum.toNat : ℤ) ≡ number [ZMOD 2 ^ 32])
    (byte : UInt8) :
    ((sum * 33 + signExtend byte).toNat : ℤ) ≡ number * 33 + signed byte [ZMOD 2 ^ 32] := by
  have wrapped : ((sum * 33 + signExtend byte).toNat : ℤ) ≡
      sum.toNat * 33 + (signExtend byte).toNat [ZMOD 2 ^ 32] := by
    rw [UInt32.toNat_add, UInt32.toNat_mul]
    push_cast
    exact (Int.mod_modEq _ _).trans ((Int.mod_modEq _ _).add_right _)
  exact wrapped.trans ((same.mul_right 33).add (signExtend_modEq byte))

/-- The bytes of a list as digits in base 33, the last one for the units. -/
theorem foldl_modEq (bytes : List UInt8) {sum : UInt32} {number : ℤ}
    (same : (sum.toNat : ℤ) ≡ number [ZMOD 2 ^ 32]) :
    ((bytes.foldl (fun sum byte => sum * 33 + signExtend byte) sum).toNat : ℤ) ≡
      number * 33 ^ bytes.length +
        ∑ index : Fin bytes.length, signed (bytes.get index) * 33 ^ (bytes.length - 1 - index)
      [ZMOD 2 ^ 32] := by
  induction bytes generalizing sum number with
  | nil => simpa using same
  | cons byte bytes ih =>
    have expanded : (number * 33 + signed byte) * 33 ^ bytes.length +
        ∑ index : Fin bytes.length, signed (bytes.get index) * 33 ^ (bytes.length - 1 - index) =
      number * 33 ^ (byte :: bytes).length + ∑ index : Fin (byte :: bytes).length,
        signed ((byte :: bytes).get index) * 33 ^ ((byte :: bytes).length - 1 - index) := by
      have later (index : Fin bytes.length) :
          bytes.length - (index.val + 1) = bytes.length - 1 - index.val := by omega
      simp only [List.length_cons, Fin.sum_univ_succ, List.get_eq_getElem, Fin.val_zero,
        Fin.val_succ, List.getElem_cons_zero, List.getElem_cons_succ, later, Nat.add_sub_cancel,
        Nat.sub_zero]
      ring
    rw [List.foldl_cons, ← expanded]
    exact ih (step_modEq same byte)

/-- **The digest of a text is the number that its signed bytes spell in base 33 behind 5381, modulo
2³².** -/
theorem digest_eq_numeral (text : String) :
    ((digest text).toNat : ℤ) =
      (5381 * 33 ^ (utf8 text).length + ∑ index : Fin (utf8 text).length,
        signed ((utf8 text).get index) * 33 ^ ((utf8 text).length - 1 - index)) % 2 ^ 32 := by
  have started : ((5381 : UInt32).toNat : ℤ) ≡ 5381 [ZMOD 2 ^ 32] := rfl
  have spelled := foldl_modEq (utf8 text) started
  have small : ((digest text).toNat : ℤ) < 2 ^ 32 := by exact_mod_cast (digest text).toNat_lt
  rw [← Int.emod_eq_of_lt (Int.natCast_nonneg _) small]
  exact spelled

/-- The two bytes of this character count as negative numbers. -/
example : ((digest "é").toNat : ℤ) = (5381 * 33 ^ 2 + -61 * 33 + -87) % 2 ^ 32 := by
  decide +kernel

end Text

/-!
## Digests of specs under change

The digest of a spec combines the digests of its scope and of its values by exclusive or, which is
commutative and takes a value that occurs twice out again.  So it is told by the scope and the
values as a multiset (`digest_eq_combined`); keys and their order have no part in it.

Storing a value takes the digest of the value that its key had before out and the digest of the new
one in (`digest_setWithin`).  The values after a course of stored values are those that the course
gives last for each key, and those that other keys had before (`values_storeAll`).  The main
statement puts this together with the digests of texts (`digest_under_change`).
-/

/-! ### Values after a course -/

/-- The values that keys have after a course of values: for every key that the course or the
collection has, the value that the course gives last for it, or else the one of the collection. -/
def Params.finalValues (params : Params) (assignments : List Params.Assignment) :
    Multiset String :=
  ((assignments.map Params.Assignment.entry).map (·.1) ++ params.keys).dedup.filterMap fun key =>
    (Keyed.last? (assignments.map Params.Assignment.entry) key).or (params.get? key)

theorem Params.values_storeAll (params : Params) (assignments : List Params.Assignment) :
    ((params.storeAll assignments).values : Multiset String) = params.finalValues assignments := by
  refine (Multiset.coe_eq_coe.mpr ?_).symm
  refine Keyed.values_perm_filterMap (List.nodup_dedup _) (fun key found => ?_) fun key _ =>
    (get?_storeAll params _ key).symm
  rw [List.mem_dedup, List.mem_append]
  by_contra absent
  obtain ⟨not_given, not_held⟩ := not_or.mp absent
  have given_none : Keyed.last? (assignments.map Assignment.entry) key = none :=
    Keyed.last?_eq_none_iff.mpr fun entry inside same =>
      not_given (List.mem_map.mpr ⟨entry, inside, same⟩)
  have held_none : params.get? key = none :=
    Keyed.get?_eq_none_iff.mpr fun entry inside same =>
      not_held (List.mem_map.mpr ⟨entry, inside, same⟩)
  rw [get?_storeAll, given_none, held_none] at found
  cases found

namespace Spec

/-! ### Combining digests -/

/-- The digests of a scope and of values, combined by exclusive or. -/
def combined (scope : String) (values : Multiset String) : UInt32 :=
  (values.map Text.digest).fold (· ^^^ ·) (Text.digest scope)

theorem combined_cons (scope value : String) (values : Multiset String) :
    combined scope (value ::ₘ values) = Text.digest value ^^^ combined scope values := by
  rw [combined, Multiset.map_cons, Multiset.fold_cons_left]
  rfl

/-- A value that occurs twice cancels out. -/
theorem combined_cons_cons (scope value : String) (values : Multiset String) :
    combined scope (value ::ₘ value ::ₘ values) = combined scope values := by
  rw [combined_cons, combined_cons, ← UInt32.xor_assoc, UInt32.xor_self, UInt32.zero_xor]

/-- **The digest of a spec is told by its scope and the multiset of its values.** -/
theorem digest_eq_combined (spec : Spec) :
    spec.digest = combined spec.scope spec.params.values := by
  rw [combined, Multiset.map_coe, Multiset.coe_fold_l, List.foldl_map]
  rfl

theorem combined_append_toList (scope : String) (held : Option String) (values : List String) :
    combined scope ((held.toList ++ values : List String) : Multiset String) =
      held.elim 0 Text.digest ^^^ combined scope values := by
  cases held with
  | none => exact UInt32.zero_xor.symm
  | some value => exact combined_cons scope value values

/-- The values of a spec are a value that two keys have, twice, and others. -/
theorem exists_others {spec : Spec} {first second value : String}
    (apart : first ≠ second) (held : spec.get? first = some value)
    (held_too : spec.get? second = some value) :
    ∃ others : Multiset String,
      (spec.params.values : Multiset String) = value ::ₘ value ::ₘ others := by
  have left : (Keyed.erase spec.params first).get? second = some value := by
    rw [Keyed.get?_erase, if_neg (Ne.symm apart)]
    exact held_too
  have one := Keyed.values_perm spec.params first
  have other := Keyed.values_perm (Keyed.erase spec.params first) second
  rw [left] at other
  rw [show spec.params.get? first = some value from held] at one
  refine ⟨((Keyed.erase spec.params first).erase second).values, ?_⟩
  exact (Multiset.coe_eq_coe.mpr ((other.cons value).trans one)).symm

/-! ### Storing -/

/-- **Storing a value takes the digest of the key's earlier value out and that of the new in.** -/
theorem digest_setWithin (spec : Spec) (key value : String) (limit : Option Nat) :
    (spec.setWithin key value limit).digest =
      spec.digest ^^^ (spec.get? (Text.untilNul key)).elim 0 Text.digest ^^^
        Text.digest (Params.stored value limit) := by
  let held := spec.get? (Text.untilNul key)
  let after := spec.params.setWithin key value limit
  have exchanged : (held.toList ++ after.values).Perm
      (Params.stored value limit :: spec.params.values) := by
    have filed :=
      Keyed.values_insert_perm spec.params (Text.untilNul key) (Params.stored value limit)
    rwa [← Params.setWithin_eq_insert] at filed
  have both : held.elim 0 Text.digest ^^^ combined spec.scope after.values =
      Text.digest (Params.stored value limit) ^^^ spec.digest := by
    rw [← combined_append_toList, Multiset.coe_eq_coe.mpr exchanged, ← Multiset.cons_coe,
      combined_cons, digest_eq_combined]
  calc (spec.setWithin key value limit).digest
      = combined spec.scope after.values := digest_eq_combined _
    _ = held.elim 0 Text.digest ^^^ (held.elim 0 Text.digest ^^^
          combined spec.scope after.values) := by
      rw [← UInt32.xor_assoc, UInt32.xor_self, UInt32.zero_xor]
    _ = held.elim 0 Text.digest ^^^ (Text.digest (Params.stored value limit) ^^^ spec.digest) := by
      rw [both]
    _ = spec.digest ^^^ held.elim 0 Text.digest ^^^ Text.digest (Params.stored value limit) := by
      rw [UInt32.xor_comm (Text.digest _), ← UInt32.xor_assoc, UInt32.xor_comm spec.digest]

/-- Stores several values one after another. -/
def storeAll (spec : Spec) (assignments : List Params.Assignment) : Spec :=
  assignments.foldl (fun spec assignment =>
    spec.setWithin assignment.key assignment.value assignment.limit) spec

theorem storeAll_eq (spec : Spec) (assignments : List Params.Assignment) :
    spec.storeAll assignments = ⟨spec.params.storeAll assignments, spec.scope⟩ := by
  induction assignments generalizing spec with
  | nil => rfl
  | cons assignment assignments ih => exact ih _

theorem digest_storeAll (spec : Spec) (assignments : List Params.Assignment) :
    (spec.storeAll assignments).digest =
      combined spec.scope (spec.params.finalValues assignments) := by
  rw [digest_eq_combined, storeAll_eq, Params.values_storeAll]

/-- **The digest of a spec under change**: how the digest of a text is computed, what storing one
value or a course of values does to the digest of a spec, and which specs share theirs. -/
theorem digest_under_change :
    (∀ text : String, ((Text.digest text).toNat : ℤ) =
      (5381 * 33 ^ (Text.utf8 text).length + ∑ index : Fin (Text.utf8 text).length,
        Text.signed ((Text.utf8 text).get index) * 33 ^ ((Text.utf8 text).length - 1 - index)) %
          2 ^ 32) ∧
    (∀ (spec : Spec) (key value : String) (limit : Option Nat),
      (spec.setWithin key value limit).get? (Text.untilNul key) =
          some (Params.stored value limit) ∧
        (spec.setWithin key value limit).digest =
          spec.digest ^^^ (spec.get? (Text.untilNul key)).elim 0 Text.digest ^^^
            Text.digest (Params.stored value limit)) ∧
    (∀ (spec : Spec) (assignments : List Params.Assignment),
      ((spec.storeAll assignments).params.values : Multiset String) =
          spec.params.finalValues assignments ∧
        (spec.storeAll assignments).digest =
          combined spec.scope (spec.params.finalValues assignments)) ∧
    (∀ (first second : Spec) (one other : List Params.Assignment), first.scope = second.scope →
      (first.storeAll one).params.values.Perm (second.storeAll other).params.values →
      (first.storeAll one).digest = (second.storeAll other).digest) ∧
    (∀ (spec : Spec) (first second value : String), first ≠ second →
      spec.get? first = some value → spec.get? second = some value →
      ∃ others : Multiset String,
        (spec.params.values : Multiset String) = value ::ₘ value ::ₘ others ∧
          spec.digest = combined spec.scope others) := by
  refine ⟨Text.digest_eq_numeral, ?stored, ?course, ?order, ?twice⟩
  case stored =>
    intro spec key value limit
    refine ⟨?_, digest_setWithin spec key value limit⟩
    have found := Params.get?_setWithin spec.params key value limit (Text.untilNul key)
    rwa [if_pos rfl] at found
  case course =>
    intro spec assignments
    refine ⟨?_, digest_storeAll spec assignments⟩
    rw [storeAll_eq, Params.values_storeAll]
  case order =>
    intro first second one other scopes values
    have same_scope : (first.storeAll one).scope = (second.storeAll other).scope := by
      rw [storeAll_eq, storeAll_eq, scopes]
    rw [digest_eq_combined, digest_eq_combined, same_scope, Multiset.coe_eq_coe.mpr values]
  case twice =>
    intro spec first second value apart held held_too
    obtain ⟨others, values⟩ := exists_others apart held held_too
    refine ⟨others, values, ?_⟩
    rw [digest_eq_combined, values, combined_cons_cons]

/-- A course after which a guest has its type under another key, too. -/
def typeTwice : List Params.Assignment :=
  [⟨"user\x00x", "ftp", none⟩, ⟨"host", "gate", some 1⟩]

/-- A course that leaves a guest the same values under other keys. -/
def typeAsHost : List Params.Assignment :=
  [⟨"host", "ftp\x00", none⟩, ⟨"port", "g", none⟩]

/-- Where the type is kept, and how often, does not show in the digest of a guest. -/
theorem digest_under_change_guest :
    (guest.setWithin "user\x00x" "ftp!" (some 3)).digest =
        guest.digest ^^^ (guest.get? (Text.untilNul "user\x00x")).elim 0 Text.digest ^^^
          Text.digest (Params.stored "ftp!" (some 3)) ∧
      (guest.storeAll typeTwice).digest = (guest.storeAll typeAsHost).digest ∧
      ∃ others : Multiset String,
        ((guest.storeAll typeTwice).params.values : Multiset String) = "ftp" ::ₘ "ftp" ::ₘ others ∧
          (guest.storeAll typeTwice).digest = combined (guest.storeAll typeTwice).scope others := by
  obtain ⟨_, stored, _, order, twice⟩ := digest_under_change
  have values : (guest.storeAll typeTwice).params.values.Perm
      (guest.storeAll typeAsHost).params.values := by
    rw [← Multiset.coe_eq_coe, storeAll_eq, storeAll_eq, Params.values_storeAll,
      Params.values_storeAll]
    decide +kernel
  have held (key : String) : (guest.storeAll typeTwice).get? key =
      (Keyed.last? (typeTwice.map Params.Assignment.entry) key).or (guest.get? key) := by
    rw [storeAll_eq]
    exact Params.get?_storeAll _ _ key
  refine ⟨(stored guest _ _ _).2, order guest guest _ _ rfl values,
    twice _ "type" "user" "ftp" (by decide) ?_ ?_⟩
  · rw [held]
    decide +kernel
  · rw [held]
    decide +kernel

end Spec

end Mounts

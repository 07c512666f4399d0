import Mounts.Proofs.Spec.Built
import Mounts.Proofs.Text.Bytes
import Mounts.Spec.Basic

/-!
# The order of specs

Specs compare by their parameters, entry by entry and in each entry by the key before the value, and
then by their scope.  Texts compare by their bytes.  `Params.Before` and `Spec.Before` say this by
rules, and a comparison answers that the first spec is less exactly if the rules put it first
(`compare_eq_lt_iff`).

The order is total on contents: the two directions mirror each other, it is transitive, and only
equal specs compare as equal (`order_total_on_contents`).  Keys are in the same order within a
collection.
-/

namespace Mounts

set_option autoImplicit false

/-! ## Laws -/

/-- To compare images is as good as the order that they are compared in. -/
theorem transCmp_image {α β : Type} (order : β → β → Ordering) [Std.TransCmp order]
    (image : α → β) : Std.TransCmp fun first second => order (image first) (image second) where
  eq_swap := Std.OrientedCmp.eq_swap
  isLE_trans := Std.TransCmp.isLE_trans

namespace Params

instance : Std.TransCmp compareEntry :=
  inferInstanceAs (Std.TransCmp (compareLex (compareOn Prod.fst) (compareOn Prod.snd)))

instance : Std.LawfulEqCmp compareEntry where
  eq_of_compare {first second} equal := by
    obtain ⟨keys, values⟩ := Ordering.then_eq_eq.mp equal
    exact Prod.ext (Std.LawfulEqOrd.eq_of_compare keys) (Std.LawfulEqOrd.eq_of_compare values)

instance : Std.TransCmp Params.compare :=
  transCmp_image (List.compareLex compareEntry) Keyed.entries

instance : Std.LawfulEqCmp Params.compare where
  eq_of_compare {first second} equal := by
    have alike : List.compareLex compareEntry first.entries second.entries = .eq := equal
    exact Keyed.ext (Std.LawfulEqCmp.eq_of_compare alike)

/-! ## Which parameters come first -/

/-- Whether entries come before others: the first difference decides, in the bytes of a key before
those of its value, and a list that ends first comes first. -/
inductive Before : List (String × String) → List (String × String) → Prop
  /-- Entries that have ended come before others that go on. -/
  | ended (entry : String × String) (entries : List (String × String)) :
      Before [] (entry :: entries)
  /-- The smaller key comes first. -/
  | key {first second : String × String} (entries others : List (String × String)) :
      Text.utf8 first.1 < Text.utf8 second.1 → Before (first :: entries) (second :: others)
  /-- Under one key the smaller value comes first. -/
  | value {first second : String × String} (entries others : List (String × String)) :
      first.1 = second.1 → Text.utf8 first.2 < Text.utf8 second.2 →
        Before (first :: entries) (second :: others)
  /-- Behind equal entries the further ones decide. -/
  | further (entry : String × String) {entries others : List (String × String)} :
      Before entries others → Before (entry :: entries) (entry :: others)

theorem compareEntry_eq_lt_iff {first second : String × String} :
    compareEntry first second = .lt ↔
      Text.utf8 first.1 < Text.utf8 second.1 ∨
        first.1 = second.1 ∧ Text.utf8 first.2 < Text.utf8 second.2 := by
  rw [compareEntry, Ordering.then_eq_lt, Text.compare_eq_lt_iff, Text.compare_eq_lt_iff,
    Std.LawfulEqOrd.compare_eq_iff_eq, Text.utf8_lt_utf8, Text.utf8_lt_utf8]

theorem before_cons_iff {first second : String × String}
    {entries others : List (String × String)} :
    Before (first :: entries) (second :: others) ↔
      compareEntry first second = .lt ∨ first = second ∧ Before entries others := by
  rw [compareEntry_eq_lt_iff]
  constructor
  · intro before
    cases before with
    | key _ _ keys => exact .inl (.inl keys)
    | value _ _ keys values => exact .inl (.inr ⟨keys, values⟩)
    | further _ rest => exact .inr ⟨rfl, rest⟩
  · rintro ((keys | ⟨keys, values⟩) | ⟨rfl, rest⟩)
    · exact .key _ _ keys
    · exact .value _ _ keys values
    · exact .further _ rest

theorem compareLex_eq_lt_iff {entries others : List (String × String)} :
    List.compareLex compareEntry entries others = .lt ↔ Before entries others := by
  induction entries generalizing others with
  | nil =>
    cases others with
    | nil => exact ⟨fun less => (nomatch less), fun before => (nomatch before)⟩
    | cons second others => exact ⟨fun _ => .ended second others, fun _ => rfl⟩
  | cons first entries ih =>
    cases others with
    | nil => exact ⟨fun less => (nomatch less), fun before => (nomatch before)⟩
    | cons second others =>
      have same : compareEntry first second = .eq ↔ first = second :=
        Std.LawfulEqCmp.compare_eq_iff_eq
      rw [List.compareLex_cons_cons, Ordering.then_eq_lt, ih, same, before_cons_iff]

end Params

namespace Spec

instance : Std.TransOrd Spec :=
  have := transCmp_image Params.compare Spec.params
  inferInstanceAs (Std.TransCmp (compareLex
    (fun first second : Spec => Params.compare first.params second.params) (compareOn Spec.scope)))

instance : Std.LawfulEqOrd Spec where
  eq_of_compare {first second} equal := by
    obtain ⟨params, scopes⟩ := Ordering.then_eq_eq.mp equal
    exact Spec.ext (Std.LawfulEqCmp.eq_of_compare params) (Std.LawfulEqOrd.eq_of_compare scopes)

/-- Whether a spec comes before another one: by its parameters, or by the bytes of its scope if the
parameters are equal. -/
def Before (first second : Spec) : Prop :=
  Params.Before first.params.entries second.params.entries ∨
    first.params = second.params ∧ Text.utf8 first.scope < Text.utf8 second.scope

theorem compare_eq_lt_iff {first second : Spec} :
    Ord.compare first second = .lt ↔ first.Before second := by
  have parts : Ord.compare first second =
      (Params.compare first.params second.params).then
        (Ord.compare first.scope second.scope) := rfl
  have same : Params.compare first.params second.params = .eq ↔ first.params = second.params :=
    Std.LawfulEqCmp.compare_eq_iff_eq
  rw [parts, Ordering.then_eq_lt, same, Text.compare_eq_lt_iff, ← Text.utf8_lt_utf8,
    Params.compare, Params.compareLex_eq_lt_iff, Before]

/-- **The order of specs is a total order on their contents**, which goes by the bytes of the texts
in them, as the order of keys within a spec does. -/
theorem order_total_on_contents :
    (∀ first second : Spec,
      Ord.compare first second = (Ord.compare second first).swap) ∧
    (∀ first second third : Spec, (Ord.compare first second).isLE →
      (Ord.compare second third).isLE → (Ord.compare first third).isLE) ∧
    (∀ first second : Spec, (Ord.compare first second = .eq ↔ first = second) ∧
      (Ord.compare first second = .eq → first.digest = second.digest)) ∧
    (∀ first second : Spec, Ord.compare first second = .lt ↔ first.Before second) ∧
    (∀ first second : String,
      Ord.compare first second = Ord.compare (Text.utf8 first) (Text.utf8 second) ∧
        Ord.compare first second =
          Ord.compare (Text.codePoints first) (Text.codePoints second)) ∧
    (∀ spec : Spec, spec.params.entries.Pairwise fun first second =>
      Ord.compare (Text.utf8 first.1) (Text.utf8 second.1) = .lt) ∧
    (∀ entries : List (String × String), Keyed.sortByKey entries =
      entries.mergeSort fun first second =>
        (Ord.compare (Text.utf8 first.1) (Text.utf8 second.1)).isLE) := by
  refine ⟨?mirrored, ?transitive, ?equal, fun _ _ => compare_eq_lt_iff, ?texts, ?keys, ?sorted⟩
  case mirrored =>
    intro first second
    exact Std.OrientedOrd.eq_swap
  case transitive =>
    intro first second third before further
    exact Std.TransOrd.isLE_trans before further
  case equal =>
    intro first second
    have same : Ord.compare first second = .eq ↔ first = second :=
      Std.LawfulEqOrd.compare_eq_iff_eq
    exact ⟨same, fun equal => congrArg digest (same.mp equal)⟩
  case texts =>
    intro first second
    exact ⟨(Text.compare_utf8 first second).symm, (Text.compare_codePoints first second).symm⟩
  case keys =>
    intro spec
    refine spec.params.increasing.imp fun {first second} before => ?_
    rw [Text.compare_utf8]
    exact Text.compare_eq_lt_iff.mpr before
  case sorted =>
    intro entries
    have same (first second : String × String) :
        (Ord.compare (Text.utf8 first.1) (Text.utf8 second.1)).isLE =
          decide (first.1 ≤ second.1) := by
      rw [Bool.eq_iff_iff, decide_eq_true_iff, Text.compare_utf8, Text.isLE_compare_iff]
    simp only [Keyed.sortByKey, same]

/-- Three scopes of a guest in order, of which UTF-16 would exchange the last two. -/
theorem order_total_on_contents_guest :
    guest.params.entries.Pairwise (fun first second =>
        Ord.compare (Text.utf8 first.1) (Text.utf8 second.1) = .lt) ∧
      (Ord.compare guest (guest.rescope "/\uffff")).isLE ∧
      (Ord.compare (guest.rescope "/\uffff") (guest.rescope "/😀")).isLE ∧
      (Ord.compare guest (guest.rescope "/😀")).isLE := by
  obtain ⟨_, transitive, _, _, _, keys, _⟩ := order_total_on_contents
  have lower : (Ord.compare guest (guest.rescope "/\uffff")).isLE := by decide +kernel
  have upper : (Ord.compare (guest.rescope "/\uffff") (guest.rescope "/😀")).isLE := by
    decide +kernel
  exact ⟨keys guest, lower, upper, transitive _ _ _ lower upper⟩

end Spec

end Mounts

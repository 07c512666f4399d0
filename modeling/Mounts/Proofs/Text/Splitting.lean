import Mathlib.Data.List.TakeDrop
import Mounts.Text.Basic

/-!
# Texts that are split

Splitting a text at a separator and joining the pieces again are inverse to each other: pieces never
hold the separator, and texts that do not hold it come apart where they were joined
(`splitOn_intercalate`).

A text starts with another one and goes on with the separator exactly if its pieces are those of the
other one and then some more (`startsPiece_iff`).

Splitting once finds the first separator, and only a text without one is not split
(`splitAtFirst?_eq_some_iff`, `splitAtFirst?_eq_none_iff`).
-/

namespace Mounts.Text

set_option autoImplicit false

/-! ## Pieces -/

/-- No piece holds the separator. -/
theorem separator_not_mem_of_mem_splitOn {separator : Char} {text piece : String}
    (found : piece ∈ splitOn separator text) : separator ∉ piece.toList := by
  have pieces : ∀ letters : List Char, ∀ part ∈ letters.splitOn separator, separator ∉ part := by
    intro letters
    induction letters with
    | nil => simp
    | cons letter letters ih =>
      intro part inside
      rw [List.splitOn_cons_eq_if_modifyHead] at inside
      split at inside
      · rcases List.mem_cons.mp inside with rfl | later
        · exact List.not_mem_nil
        · exact ih part later
      · next other =>
        obtain ⟨first, rest, split_up⟩ := List.exists_cons_of_ne_nil
          (List.splitOn_ne_nil separator letters)
        rw [split_up, List.modifyHead_cons] at inside
        rw [split_up, List.forall_mem_cons] at ih
        rcases List.mem_cons.mp inside with rfl | later
        · rw [List.mem_cons, not_or]
          exact ⟨fun same => other (beq_iff_eq.mpr same.symm), ih.1⟩
        · exact ih.2 part later
  obtain ⟨part, inside, rfl⟩ := List.mem_map.mp found
  rw [String.toList_ofList]
  exact pieces _ part inside

/-- Two texts around a separator come apart at it. -/
theorem splitOn_around (separator : Char) (first second : List Char) :
    splitOn separator (String.ofList (first ++ separator :: second)) =
      splitOn separator (String.ofList first) ++ splitOn separator (String.ofList second) := by
  simp only [splitOn, String.toList_ofList, List.splitOn_append_cons_self, List.map_append]

/-- Two texts around a separator that is not in the first come apart at it. -/
theorem splitOn_append {separator : Char} {first : String} (absent : separator ∉ first.toList)
    (second : String) :
    splitOn separator (first ++ String.singleton separator ++ second) =
      first :: splitOn separator second := by
  rw [splitOn, String.toList_append, String.toList_append, String.toList_singleton,
    List.append_assoc, List.singleton_append, List.splitOn_append_cons_self_of_not_mem absent,
    List.map_cons, String.ofList_toList, splitOn]

theorem splitOn_of_absent {separator : Char} {text : String} (absent : separator ∉ text.toList) :
    splitOn separator text = [text] := by
  rw [splitOn, List.splitOn_eq_singleton absent, List.map_singleton, String.ofList_toList]

/-- A separator more makes a piece more. -/
theorem length_splitOn (separator : Char) (text : String) :
    (splitOn separator text).length = text.toList.count separator + 1 := by
  rw [splitOn, List.length_map]
  induction text.toList with
  | nil => rfl
  | cons letter letters ih =>
    rw [List.splitOn_cons_eq_if_modifyHead, List.count_cons]
    split
    · rw [List.length_cons, ih]
    · rw [List.length_modifyHead, ih, Nat.add_zero]

/-! ## Joining pieces -/

/-- Texts joined by a separator that is in none of them come apart again. -/
theorem splitOn_intercalate {separator : Char} {texts : List String} (some_text : texts ≠ [])
    (absent : ∀ text ∈ texts, separator ∉ text.toList) :
    splitOn separator ((String.singleton separator).intercalate texts) = texts := by
  have lists : ∀ letters ∈ texts.map String.toList, separator ∉ letters :=
    List.forall_mem_map.mpr absent
  rw [splitOn, String.toList_intercalate, String.toList_singleton,
    List.splitOn_intercalate separator lists (by simpa using some_text), List.map_map]
  exact (List.map_congr_left fun text _ => String.ofList_toList).trans (List.map_id _)

/-- Joining puts a separator in front of every text but the first. -/
theorem intercalate_cons (separator : Char) (first : List Char) (others : List (List Char)) :
    [separator].intercalate (first :: others) = first ++ others.flatMap (separator :: ·) := by
  induction others generalizing first with
  | nil => simp
  | cons second others ih => simp [ih]

/-- The letters of a text are those of its pieces, joined. -/
theorem toList_eq_intercalate (separator : Char) (text : String) :
    text.toList = [separator].intercalate ((splitOn separator text).map String.toList) := by
  have lists : (splitOn separator text).map String.toList = text.toList.splitOn separator := by
    simp [splitOn, List.map_map]
  rw [lists, List.intercalate_splitOn]

/-- Joining texts that hold a character once each gives as many of it as there are texts. -/
theorem count_intercalate {separator letter : Char} (other : letter ≠ separator)
    {texts : List (List Char)} (each : ∀ text ∈ texts, text.count letter = 1) :
    ([separator].intercalate texts).count letter = texts.length := by
  cases texts with
  | nil => rfl
  | cons first others =>
    rw [List.forall_mem_cons] at each
    have further : (others.flatMap (separator :: ·)).count letter = others.length := by
      rw [List.count_flatMap, List.map_congr_left (g := fun _ => 1), List.map_const',
        List.sum_replicate_nat, Nat.mul_one]
      intro text inside
      rw [Function.comp_apply, List.count_cons_of_ne (Ne.symm other), each.2 text inside]
    rw [intercalate_cons, List.count_append, each.1, further, List.length_cons, Nat.add_comm]

/-- A text has two pieces exactly if it is these two around a separator that is in neither. -/
theorem splitOn_eq_pair_iff {separator : Char} {text first second : String} :
    splitOn separator text = [first, second] ↔
      text = first ++ String.singleton separator ++ second ∧
        separator ∉ first.toList ∧ separator ∉ second.toList := by
  constructor
  · intro apart
    have absent {piece : String} (found : piece ∈ [first, second]) : separator ∉ piece.toList :=
      separator_not_mem_of_mem_splitOn (apart ▸ found)
    refine ⟨?_, absent (by simp), absent (by simp)⟩
    apply String.toList_inj.mp
    rw [toList_eq_intercalate separator text, apart]
    simp
  · rintro ⟨rfl, first_free, second_free⟩
    rw [splitOn_append first_free, splitOn_of_absent second_free]

/-- **A text goes on with the separator behind another one exactly if it has the other one's pieces
and then some more.** -/
theorem startsPiece_iff (separator : Char) (first whole : String) :
    (∃ rest, whole.toList = first.toList ++ separator :: rest) ↔
      splitOn separator first <+: splitOn separator whole ∧
        splitOn separator first ≠ splitOn separator whole := by
  constructor
  · rintro ⟨rest, longer⟩
    have apart : splitOn separator whole =
        splitOn separator first ++ splitOn separator (String.ofList rest) := by
      rw [← String.ofList_toList (s := whole), longer, splitOn_around, String.ofList_toList]
    rw [apart]
    refine ⟨List.prefix_append _ _, fun same => ?_⟩
    have nothing := List.self_eq_append_right.mp same
    simp [splitOn, List.splitOn_ne_nil] at nothing
  · rintro ⟨⟨more, pieces⟩, other⟩
    cases more with
    | nil => exact absurd (by simpa using pieces) other
    | cons next more =>
      have whole_eq := toList_eq_intercalate separator whole
      have first_eq := toList_eq_intercalate separator first
      obtain ⟨head, tail, split_up⟩ := List.exists_cons_of_ne_nil
        (l := splitOn separator first) (by simp [splitOn, List.splitOn_ne_nil])
      rw [← pieces, split_up] at whole_eq
      rw [split_up] at first_eq
      simp only [List.map_append, List.map_cons, List.cons_append, intercalate_cons,
        List.flatMap_append, List.flatMap_cons] at whole_eq first_eq
      refine ⟨next.toList ++ (more.map String.toList).flatMap (separator :: ·), ?_⟩
      rw [whole_eq, first_eq]
      simp only [List.append_assoc]

/-! ## Splitting once -/

/-- A text is split once into what stands before and what stands behind its first separator. -/
theorem splitAtFirst?_eq_some_iff {separator : Char} {text before after : String} :
    splitAtFirst? separator text = some (before, after) ↔
      text = before ++ String.singleton separator ++ after ∧ separator ∉ before.toList := by
  rw [splitAtFirst?, List.span_eq_takeWhile_dropWhile]
  constructor
  · intro found
    have whole := List.takeWhile_append_dropWhile (p := (· != separator)) (l := text.toList)
    have stopped := List.head?_dropWhile_not (· != separator) text.toList
    cases behind : text.toList.dropWhile (· != separator) with
    | nil =>
      rw [behind] at found
      cases found
    | cons sign rest =>
      rw [behind] at found whole stopped
      cases found
      obtain rfl : sign = separator := by simpa using stopped
      refine ⟨?_, fun inside => ?_⟩
      · rw [← String.toList_inj]
        simpa using whole.symm
      · rw [String.toList_ofList] at inside
        simpa using List.all_eq_true.mp List.all_takeWhile sign inside
  · rintro ⟨rfl, absent⟩
    have passed : ∀ letter ∈ before.toList, (letter != separator) = true := fun letter inside =>
      bne_iff_ne.mpr fun same => absent (same ▸ inside)
    simp [List.takeWhile_append_of_pos passed, List.dropWhile_append_of_pos passed]

theorem splitAtFirst?_eq_none_iff {separator : Char} {text : String} :
    splitAtFirst? separator text = none ↔ separator ∉ text.toList := by
  rw [Option.eq_none_iff_forall_ne_some]
  constructor
  · intro unsplit inside
    obtain ⟨before, after, whole, absent⟩ := List.eq_append_cons_of_mem inside
    refine unsplit (String.ofList before, String.ofList after) ?_
    rw [splitAtFirst?_eq_some_iff, ← String.toList_inj]
    simpa using ⟨whole, absent⟩
  · rintro absent ⟨before, after⟩ found
    obtain ⟨rfl, _⟩ := splitAtFirst?_eq_some_iff.mp found
    simp at absent

end Mounts.Text

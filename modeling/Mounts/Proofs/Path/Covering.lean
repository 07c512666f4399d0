import Mathlib.Data.List.Basic
import Mounts.Path

/-!
# Scopes that cover a path

A scope covers a path if the path lies under it (`liesUnder_iff`).  A scope that covers a path is a
beginning of it, with one exception: a path is covered by itself with a separator more, so that a
scope that is written as a directory covers the directory itself (`beginning_or_opened`).

The size of a scope tells how far it reaches.  No scope that covers a path is longer than the path
apart from that exception, and none but the path is as long (`size_of_covering`).  Nor do two
scopes of one size cover the same path (`eq_of_covering`).
-/

namespace Mounts.Path

set_option autoImplicit false

/-- A path with a separator more. -/
def opened (path : String) : String :=
  path.push separator

theorem toList_opened (path : String) : (opened path).toList = path.toList ++ [separator] := by
  rw [opened, String.toList_push]

theorem opened_inj {first second : String} : opened first = opened second ↔ first = second := by
  rw [← String.toList_inj, toList_opened, toList_opened, List.append_left_inj, String.toList_inj]

theorem endsOpen_opened (path : String) : endsOpen (opened path) = true := by
  rw [endsOpen, toList_opened, List.getLast?_concat, beq_self_eq_true]

theorem opened_ne_empty (path : String) : opened path ≠ "" := by
  rw [← String.toList_inj.ne, toList_opened]
  exact List.append_ne_nil_of_right_ne_nil _ (List.cons_ne_nil _ _)

theorem root_ne_opened {path : String} (filled : path ≠ "") : root ≠ opened path := by
  have top : root = opened "" := by decide
  rw [top, Ne, opened_inj]
  exact filled.symm

theorem size_opened (path : String) : (opened path).utf8ByteSize = path.utf8ByteSize + 1 := by
  rw [opened, String.utf8ByteSize_push]
  rfl

/-- **What lies under a scope**: everything under the empty one, what goes on with a new segment
after any other one or ends there, and the directory that a scope names. -/
theorem liesUnder_iff {path scope : String} : liesUnder path (some scope) = true ↔
    scope = "" ∨
    (∃ rest, path.toList = scope.toList ++ rest ∧
      (endsOpen scope = true ∨ rest = [] ∨ rest.head? = some separator)) ∨
    (path ≠ "" ∧ scope = opened path) := by
  rw [liesUnder]
  by_cases empty : scope = ""
  · rw [if_pos empty]
    exact iff_of_true rfl (.inl empty)
  rw [if_neg empty, or_iff_right empty]
  cases begins : scope.toList.isPrefixOf? path.toList with
  | some rest =>
    have whole := (List.isPrefixOf?_eq_some_iff_append_eq.mp begins).symm
    have shorter : scope ≠ opened path := by
      rintro rfl
      have lengths := congrArg List.length whole
      rw [opened, String.toList_push, List.length_append, List.length_append,
        List.length_singleton] at lengths
      omega
    dsimp only
    rw [or_iff_left fun directory => shorter directory.2, Bool.or_eq_true, Bool.or_eq_true,
      List.isEmpty_iff, beq_iff_eq, or_assoc]
    constructor
    · exact fun goes_on => ⟨rest, whole, goes_on⟩
    · rintro ⟨other, whole_again, goes_on⟩
      rwa [List.append_cancel_left (whole.symm.trans whole_again)]
  | none =>
    have apart : ¬ ∃ rest, path.toList = scope.toList ++ rest ∧
        (endsOpen scope = true ∨ rest = [] ∨ rest.head? = some separator) := by
      rintro ⟨rest, whole, _⟩
      rw [List.isPrefixOf?_eq_some_iff_append_eq.mpr whole.symm] at begins
      cases begins
    dsimp only
    rw [or_iff_right apart, Bool.and_eq_true, bne_iff_ne, beq_iff_eq]
    rfl

/-- Every path lies under itself. -/
theorem liesUnder_self (path : String) : liesUnder path (some path) = true :=
  liesUnder_iff.mpr (.inr (.inl ⟨[], (List.append_nil _).symm, .inr (.inl rfl)⟩))

/-- A directory lies under the scope that writes it with a separator. -/
theorem liesUnder_opened {path : String} (filled : path ≠ "") :
    liesUnder path (some (opened path)) = true :=
  liesUnder_iff.mpr (.inr (.inr ⟨filled, rfl⟩))

/-- What covers a path is a beginning of it, or the path with a separator more. -/
theorem beginning_or_opened {path scope : String} (covers : liesUnder path (some scope) = true) :
    scope.toList <+: path.toList ∨ path ≠ "" ∧ scope = opened path := by
  rcases liesUnder_iff.mp covers with rfl | ⟨rest, whole, _⟩ | directory
  · exact .inl List.nil_prefix
  · exact .inl ⟨rest, whole.symm⟩
  · exact .inr directory

/-- What begins a text is shorter than it if it is not the whole text. -/
theorem size_of_beginning {beginning text : String} (begins : beginning.toList <+: text.toList) :
    beginning = text ∨ beginning.utf8ByteSize < text.utf8ByteSize := by
  obtain ⟨rest, parts⟩ := begins
  have whole : text = beginning ++ String.ofList rest := by
    rw [← String.toList_inj, String.toList_append, String.toList_ofList, parts]
  by_cases nothing : String.ofList rest = ""
  · left
    rw [whole, nothing, String.append_empty]
  · right
    have some_bytes : (String.ofList rest).utf8ByteSize ≠ 0 :=
      mt String.utf8ByteSize_eq_zero_iff.mp nothing
    rw [whole, String.utf8ByteSize_append]
    omega

/-- **How far the scopes reach that cover a path**: all are shorter than it but the path itself and
the path with a separator more. -/
theorem size_of_covering {path scope : String} (covers : liesUnder path (some scope) = true) :
    scope.utf8ByteSize < path.utf8ByteSize ∨ scope = path ∨ path ≠ "" ∧ scope = opened path := by
  rcases beginning_or_opened covers with begins | directory
  · rcases size_of_beginning begins with same | shorter
    · exact .inr (.inl same)
    · exact .inl shorter
  · exact .inr (.inr directory)

/-- What begins a path is shorter than the path with a separator more. -/
theorem size_lt_opened {path beginning : String} (begins : beginning.toList <+: path.toList) :
    beginning.utf8ByteSize < (opened path).utf8ByteSize := by
  rw [size_opened]
  rcases size_of_beginning begins with rfl | shorter
  · exact Nat.lt_succ_self _
  · exact Nat.lt_succ_of_lt shorter

/-- **Two scopes that cover one path are told apart by their sizes.** -/
theorem eq_of_covering {path first second : String} (one : liesUnder path (some first) = true)
    (other : liesUnder path (some second) = true)
    (same : first.utf8ByteSize = second.utf8ByteSize) : first = second := by
  rcases beginning_or_opened one with begins | ⟨_, rfl⟩
  · rcases beginning_or_opened other with begins_too | ⟨_, rfl⟩
    · -- Of two beginnings of the path the shorter one begins the other.
      rcases List.prefix_or_prefix_of_prefix begins begins_too with inside | outside
      · exact (size_of_beginning inside).resolve_right (by omega)
      · exact ((size_of_beginning outside).resolve_right (by omega)).symm
    · exact absurd same (Nat.ne_of_lt (size_lt_opened begins))
  · rcases beginning_or_opened other with begins_too | ⟨_, rfl⟩
    · exact absurd same.symm (Nat.ne_of_lt (size_lt_opened begins_too))
    · rfl

end Mounts.Path

import Mounts.Proofs.Spec.Built
import Mounts.Proofs.Text.Cutting

/-!
# Storing parameters

A value is stored under a key, both cut at NUL, and of the value only as much as fits in a number of
bytes if one is given.  So storing shows in what is found under the cut key and nowhere else
(`get?_setWithin`), and a course of several values shows in the last one for each key
(`get?_storeAll`).

Collections of parameters in which the same is found are the same.  Hence the order in which
values are stored matters only among those whose keys are the same once they are cut
(`equal_iff_alike`).

Parameters can also be collected in bulk: all keys and values are cut, sorted once and stably, and
each run of one key is collapsed in place, later values over earlier ones.  That comes to the same
as storing them one after another (`collected_as_stored`).

If only so many bytes of a value are meant, the longest beginning of it that fits is stored, made of
whole characters and without NUL, whichever way the place to cut is found
(`longest_beginning_stored`).
-/

namespace Mounts.Params

set_option autoImplicit false

/-- What is stored of a value. -/
def stored (value : String) (limit : Option Nat) : String :=
  Text.untilNul (limit.elim value fun bytes => Text.within bytes value)

variable {params : Params}

/-- Storing as much of a value as fits files it, cut at NUL, at the place of the key, cut at NUL. -/
theorem setWithin_eq_insert (params : Params) (key value : String) (limit : Option Nat) :
    params.setWithin key value limit = params.insert (Text.untilNul key) (stored value limit) := by
  cases limit with
  | none => exact set_eq_insert params key value
  | some bytes => exact set_eq_insert params key (Text.within bytes value)

/-- **A stored value is found under its key, and nothing else changes.** -/
theorem get?_setWithin (params : Params) (key value : String) (limit : Option Nat)
    (asked : String) :
    (params.setWithin key value limit).get? asked =
      if asked = Text.untilNul key then some (stored value limit) else params.get? asked := by
  rw [setWithin_eq_insert, Keyed.get?_insert]

/-! ## Courses of values -/

/-- A value to be stored. -/
structure Assignment where
  /-- Under which key, before it is cut. -/
  key : String
  /-- What value, before it is cut. -/
  value : String
  /-- How many bytes of the value at most, if not all of it is meant. -/
  limit : Option Nat
deriving Repr, DecidableEq

/-- The key and the value that an assignment leaves in a collection. -/
def Assignment.entry (assignment : Assignment) : String × String :=
  (Text.untilNul assignment.key, stored assignment.value assignment.limit)

/-- Stores a value. -/
def store (params : Params) (assignment : Assignment) : Params :=
  params.setWithin assignment.key assignment.value assignment.limit

/-- Stores several values one after another. -/
def storeAll (params : Params) (assignments : List Assignment) : Params :=
  assignments.foldl store params

theorem get?_store (params : Params) (assignment : Assignment) (asked : String) :
    (params.store assignment).get? asked =
      if asked = assignment.entry.1 then some assignment.entry.2 else params.get? asked :=
  get?_setWithin params _ _ _ asked

/-- **After a course of values a key has the last one that was given for it, or else the one that it
had before.** -/
theorem get?_storeAll (params : Params) (assignments : List Assignment) (key : String) :
    (params.storeAll assignments).get? key =
      (Keyed.last? (assignments.map Assignment.entry) key).or (params.get? key) := by
  induction assignments generalizing params with
  | nil => rfl
  | cons assignment assignments ih =>
    rw [storeAll, List.foldl_cons, ← storeAll, ih, get?_store, List.map_cons, Keyed.last?_cons,
      Option.or_assoc]
    split
    · rfl
    · rfl

/-! ## Collections that answer alike -/

/-- **Collections of parameters are equal exactly when they answer alike**, so of a course of values
only the last one for each key counts, and values under different keys may change places. -/
theorem equal_iff_alike :
    (∀ first second : Params, first = second ↔ ∀ key, first.get? key = second.get? key) ∧
    (∀ (params : Params) (one other : List Assignment),
      (∀ key, Keyed.last? (one.map Assignment.entry) key =
        Keyed.last? (other.map Assignment.entry) key) →
      params.storeAll one = params.storeAll other) ∧
    (∀ one other : List Assignment, storeAll ∅ one = storeAll ∅ other →
      ∀ key, Keyed.last? (one.map Assignment.entry) key =
        Keyed.last? (other.map Assignment.entry) key) ∧
    (∀ (params : Params) (one other : Assignment),
      Text.untilNul one.key ≠ Text.untilNul other.key →
      (params.store one).store other = (params.store other).store one) := by
  refine ⟨?alike, ?courses, ?necessary, ?commute⟩
  case alike =>
    intro first second
    constructor
    · rintro rfl key
      rfl
    · exact Keyed.ext_get?
  case courses =>
    intro params one other same
    refine Keyed.ext_get? fun key => ?_
    rw [get?_storeAll, get?_storeAll, same]
  case necessary =>
    intro one other same key
    have found := congrArg (Keyed.get? · key) same
    have nothing : (∅ : Params).get? key = none := Keyed.get?_empty key
    rwa [get?_storeAll, get?_storeAll, nothing, Option.or_none, Option.or_none] at found
  case commute =>
    intro params one other apart
    refine Keyed.ext_get? fun key => ?_
    rw [get?_store, get?_store, get?_store, get?_store]
    by_cases first : key = one.entry.1
    · have second : key ≠ other.entry.1 := fun same => apart (first.symm.trans same)
      rw [if_neg second, if_pos first, if_pos first]
    · rw [if_neg first, if_neg first]

/-- Two values under one key that is cut, and one under another key. -/
def cutKeys : List Assignment :=
  [⟨"user\x00x", "alice", none⟩, ⟨"host", "h.example", some 1⟩, ⟨"user\x00y", "bob\x00z", none⟩]

/-- What is left of them, in another order. -/
def plainKeys : List Assignment :=
  [⟨"user", "bob", none⟩, ⟨"host", "h", none⟩]

/-- What is left of values is as good as the values, in any order. -/
theorem equal_iff_alike_cut : storeAll ∅ cutKeys = storeAll ∅ plainKeys := by
  have entries :
      cutKeys.map Assignment.entry = [("user", "alice"), ("host", "h"), ("user", "bob")] ∧
        plainKeys.map Assignment.entry = [("user", "bob"), ("host", "h")] := by
    decide +kernel
  obtain ⟨_, courses, _⟩ := equal_iff_alike
  refine courses ∅ cutKeys plainKeys fun key => ?_
  rw [entries.1, entries.2]
  simp only [Keyed.last?_cons]
  by_cases user : key = "user"
  · simp [user]
  · simp [user]

/-! ## Collecting in bulk -/

/-- **To collect parameters in bulk is to store them one after another.** -/
theorem collected_as_stored :
    (∀ pairs : List (String × String),
      ofPairs pairs = pairs.foldl (fun longer pair => set longer pair.1 pair.2) ∅) ∧
    (∀ pairs : List (String × String), (ofPairs pairs).entries = Keyed.collapse (Keyed.sortByKey
      (pairs.map fun pair => (Text.untilNul pair.1, Text.untilNul pair.2)))) ∧
    (∀ pairs more : List (String × String),
      ofPairs (pairs ++ more) =
        more.foldl (fun longer pair => set longer pair.1 pair.2) (ofPairs pairs)) ∧
    (∀ (pairs : List (String × String)) (key : String), (ofPairs pairs).get? key =
      Keyed.last? (pairs.map fun pair => (Text.untilNul pair.1, Text.untilNul pair.2)) key) := by
  refine ⟨ofPairs_eq_foldl, ?in_place, ?further, ?found⟩
  case in_place =>
    intro pairs
    rw [Keyed.collapse_eq_keepLast]
    rfl
  case further =>
    intro pairs more
    rw [ofPairs_eq_foldl, List.foldl_append, ← ofPairs_eq_foldl]
  case found =>
    intro pairs key
    exact Keyed.get?_ofList _ key

/-! ## Beginnings of values -/

/-- **Of a value the longest beginning is stored that fits a number of bytes.** -/
theorem longest_beginning_stored :
    (∀ (params : Params) (key value : String) (limit : Nat),
      ∃ longest, (params.setWithin key value (some limit)).get? (Text.untilNul key) =
          some longest ∧
        Text.Admissible limit value longest ∧
        ∀ other, Text.Admissible limit value other → other.toList <+: longest.toList) ∧
    (∀ (params : Params) (key value : String) (limit : Nat) (asked : String),
      asked ≠ Text.untilNul key →
      (params.setWithin key value (some limit)).get? asked = params.get? asked) ∧
    (∀ (limit : Nat) (value : String),
      Text.cutAtBoundary? limit value = some (Text.within limit value)) := by
  refine ⟨?longest, ?others, Text.cutAtBoundary?_eq⟩
  case longest =>
    intro params key value limit
    refine ⟨stored value (some limit), ?_, Text.admissible_iff.mpr (List.prefix_refl _),
      fun other admissible => Text.admissible_iff.mp admissible⟩
    rw [get?_setWithin, if_pos rfl]
  case others =>
    intro params key value limit asked apart
    rw [get?_setWithin, if_neg apart]

/-- A share whose name is cut within its last character. -/
theorem longest_beginning_stored_share :
    ("type" ≠ Text.untilNul "share\x00x" ∧
      (Spec.guest.params.setWithin "share\x00x" "café" (some 4)).get? "type" =
        Spec.guest.params.get? "type") ∧
    Text.Admissible 4 "café" "caf" ∧
    ∃ longest, (Spec.guest.params.setWithin "share\x00x" "café" (some 4)).get?
        (Text.untilNul "share\x00x") = some longest ∧ "caf".toList <+: longest.toList := by
  obtain ⟨longest, others, _⟩ := longest_beginning_stored
  have apart : "type" ≠ Text.untilNul "share\x00x" := by decide +kernel
  have admissible : Text.Admissible 4 "café" "caf" :=
    ⟨by decide +kernel, by decide +kernel, by decide +kernel⟩
  obtain ⟨name, found, _, greatest⟩ := longest Spec.guest.params "share\x00x" "café" 4
  exact ⟨⟨apart, others _ _ _ _ _ apart⟩, admissible, name, found, greatest _ admissible⟩

end Mounts.Params

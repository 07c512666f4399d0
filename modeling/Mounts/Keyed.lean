/-!
# Keyed collections

A keyed collection holds at most one value for each text key, in increasing order of the keys.
Keys compare by their code points, which is the same order as that of their UTF-8 bytes.  A
collection carries the proof that its keys increase, so each way to build or change one shows that
it keeps them in order.

Collections are built entry by entry with `insert`, or from a whole list with `ofList`, where the
last value given for a key counts.

The main statements say what look-up finds after a key was filed or taken away: the change at that
key, and everything else as before.
-/

namespace Mounts

set_option autoImplicit false

/-- Entries whose keys increase strictly, so that no key comes twice. -/
def Keyed.Increasing {α : Type} (entries : List (String × α)) : Prop :=
  entries.Pairwise fun first second => first.1 < second.1

instance {α : Type} (entries : List (String × α)) : Decidable (Keyed.Increasing entries) :=
  inferInstanceAs (Decidable (entries.Pairwise fun first second => first.1 < second.1))

/-- Values filed under text keys, in increasing order of the keys. -/
@[ext]
structure Keyed (α : Type) where
  /-- The keys with their values. -/
  entries : List (String × α)
  /-- The keys are in order. -/
  increasing : Keyed.Increasing entries
deriving Repr, DecidableEq

namespace Keyed

variable {α : Type}

/-- The collection that holds nothing. -/
def empty : Keyed α := ⟨[], List.Pairwise.nil⟩

instance : EmptyCollection (Keyed α) := ⟨empty⟩

instance : Inhabited (Keyed α) := ⟨empty⟩

/-- The number of keys. -/
def size (collection : Keyed α) : Nat :=
  collection.entries.length

/-- Whether there are no keys. -/
def isEmpty (collection : Keyed α) : Bool :=
  collection.entries.isEmpty

/-- The value filed under a key. -/
def get? (collection : Keyed α) (key : String) : Option α :=
  (collection.entries.find? (·.1 == key)).map (·.2)

/-- The keys, in increasing order. -/
def keys (collection : Keyed α) : List String :=
  collection.entries.map (·.1)

/-- The values, in the order of their keys. -/
def values (collection : Keyed α) : List α :=
  collection.entries.map (·.2)

/-- A key without a value is in no entry. -/
theorem get?_eq_none_iff {collection : Keyed α} {key : String} :
    collection.get? key = none ↔ ∀ entry ∈ collection.entries, entry.1 ≠ key := by
  rw [get?, Option.map_eq_none_iff, List.find?_eq_none]
  simp only [beq_iff_eq, ne_eq]

/-! ## Filing and taking away -/

/-- Files a value at its place among ordered entries, in place of the key's earlier value. -/
def place (key : String) (value : α) : List (String × α) → List (String × α)
  | [] => [(key, value)]
  | (other, held) :: rest =>
    if key = other then (key, value) :: rest
    else if key < other then (key, value) :: (other, held) :: rest
    else (other, held) :: place key value rest

theorem mem_place {key : String} {value : α} {entry : String × α} {entries : List (String × α)}
    (found : entry ∈ place key value entries) : entry = (key, value) ∨ entry ∈ entries := by
  induction entries with
  | nil => exact .inl (List.mem_singleton.mp found)
  | cons first rest ih =>
    obtain ⟨other, held⟩ := first
    rw [place] at found
    split at found
    · rcases List.mem_cons.mp found with rfl | further
      · exact .inl rfl
      · exact .inr (List.mem_cons_of_mem _ further)
    split at found
    · exact List.mem_cons.mp found
    · rcases List.mem_cons.mp found with rfl | further
      · exact .inr List.mem_cons_self
      · exact (ih further).imp id (List.mem_cons_of_mem _)

theorem increasing_place (key : String) (value : α) {entries : List (String × α)}
    (increasing : Increasing entries) : Increasing (place key value entries) := by
  induction entries with
  | nil => exact List.pairwise_singleton _ _
  | cons first rest ih =>
    obtain ⟨other, held⟩ := first
    obtain ⟨least, further⟩ := List.pairwise_cons.mp increasing
    rw [place]
    split
    · next same =>
      subst same
      exact List.pairwise_cons.mpr ⟨least, further⟩
    split
    · next before =>
      refine List.pairwise_cons.mpr ⟨fun entry found => ?_, increasing⟩
      rcases List.mem_cons.mp found with rfl | inRest
      · exact before
      · exact String.lt_trans before (least entry inRest)
    · next differs notBefore =>
      refine List.pairwise_cons.mpr ⟨fun entry found => ?_, ih further⟩
      rcases mem_place found with rfl | inRest
      · exact Std.lt_of_le_of_ne (String.not_lt.mp notBefore) (Ne.symm differs)
      · exact least entry inRest

/-- Files a value under a key, in place of the key's earlier value. -/
def insert (collection : Keyed α) (key : String) (value : α) : Keyed α :=
  ⟨place key value collection.entries, increasing_place key value collection.increasing⟩

/-- Takes a key and its value away. -/
def erase (collection : Keyed α) (key : String) : Keyed α :=
  ⟨collection.entries.filter (·.1 != key), collection.increasing.filter _⟩

@[simp]
theorem entries_insert (collection : Keyed α) (key : String) (value : α) :
    (collection.insert key value).entries = place key value collection.entries := rfl

@[simp]
theorem entries_erase (collection : Keyed α) (key : String) :
    (collection.erase key).entries = collection.entries.filter (·.1 != key) := rfl

/-! ## Overwriting, and sorting behind -/

/-- Gives the first entry with a key another value. -/
def overwrite (key : String) (value : α) : List (String × α) → List (String × α)
  | [] => []
  | (other, held) :: rest =>
    if other = key then (other, value) :: rest else (other, held) :: overwrite key value rest

/-- Overwriting leaves the keys as they are. -/
theorem map_fst_overwrite (key : String) (value : α) (entries : List (String × α)) :
    (overwrite key value entries).map (·.1) = entries.map (·.1) := by
  induction entries with
  | nil => rfl
  | cons entry rest ih =>
    rw [overwrite]
    split
    · rfl
    · rw [List.map_cons, List.map_cons, ih]

/-- The keys of entries decide whether they increase. -/
theorem increasing_iff_keys {entries : List (String × α)} :
    Increasing entries ↔ (entries.map (·.1)).Pairwise (· < ·) := by
  rw [List.pairwise_map]
  exact Iff.rfl

theorem increasing_overwrite (key : String) (value : α) {entries : List (String × α)}
    (increasing : Increasing entries) : Increasing (overwrite key value entries) := by
  rw [increasing_iff_keys, map_fst_overwrite]
  exact increasing_iff_keys.mp increasing

/-- Entries in increasing order of their keys; those with one key stay in the order they had. -/
def sortByKey (entries : List (String × α)) : List (String × α) :=
  entries.mergeSort fun first second => decide (first.1 ≤ second.1)

theorem sortByKey_perm (entries : List (String × α)) : (sortByKey entries).Perm entries :=
  List.mergeSort_perm _ _

theorem pairwise_sortByKey (entries : List (String × α)) :
    (sortByKey entries).Pairwise fun first second => first.1 ≤ second.1 := by
  have sorted : (sortByKey entries).Pairwise fun first second => decide (first.1 ≤ second.1) :=
    List.pairwise_mergeSort
      (fun first second third => by
        simp only [decide_eq_true_eq]
        exact String.le_trans)
      (fun first second => by
        simp only [Bool.or_eq_true, decide_eq_true_eq]
        exact String.le_total _ _) entries
  exact sorted.imp fun before => of_decide_eq_true before

/-- Sorted entries of different keys increase. -/
theorem increasing_sortByKey_append {key : String} (value : α) {entries : List (String × α)}
    (increasing : Increasing entries) (absent : ∀ entry ∈ entries, entry.1 ≠ key) :
    Increasing (sortByKey (entries ++ [(key, value)])) := by
  have apart : (entries ++ [(key, value)]).Pairwise fun first second => first.1 ≠ second.1 := by
    refine List.pairwise_append.mpr ⟨increasing.imp String.ne_of_lt, List.pairwise_singleton _ _,
      fun entry inside last same => ?_⟩
    obtain rfl := List.mem_singleton.mp same
    exact absent entry inside
  have still_apart := (sortByKey_perm _).symm.pairwise apart fun differs => differs.symm
  exact ((pairwise_sortByKey _).and still_apart).imp fun both =>
    Std.lt_of_le_of_ne both.1 both.2

/-! ## Bulk collection -/

/-- Of neighbouring entries with one key, only the last. -/
def keepLast : List (String × α) → List (String × α)
  | first :: second :: rest =>
    if first.1 = second.1 then keepLast (second :: rest) else first :: keepLast (second :: rest)
  | entries => entries

theorem mem_keepLast {entry : String × α} {entries : List (String × α)}
    (found : entry ∈ keepLast entries) : entry ∈ entries := by
  fun_induction keepLast entries with
  | case1 first second rest same ih => exact List.mem_cons_of_mem _ (ih found)
  | case2 first second rest differ ih =>
    rcases List.mem_cons.mp found with rfl | further
    · exact List.mem_cons_self
    · exact List.mem_cons_of_mem _ (ih further)
  | case3 => exact found

/-- Of sorted entries the last ones of their keys increase strictly. -/
theorem increasing_keepLast {entries : List (String × α)}
    (sorted : entries.Pairwise fun first second => first.1 ≤ second.1) :
    Increasing (keepLast entries) := by
  fun_induction keepLast entries with
  | case1 first second rest same ih => exact ih sorted.of_cons
  | case2 first second rest differ ih =>
    obtain ⟨least, further⟩ := List.pairwise_cons.mp sorted
    refine List.pairwise_cons.mpr ⟨fun entry found => ?_, ih further⟩
    have below := Std.lt_of_le_of_ne (least second List.mem_cons_self) differ
    rcases List.mem_cons.mp (mem_keepLast found) with rfl | later
    · exact below
    · exact Std.lt_of_lt_of_le below ((List.pairwise_cons.mp further).1 entry later)
  | case3 entries short =>
    match entries, short with
    | [], _ => exact List.Pairwise.nil
    | [_], _ => exact List.pairwise_singleton _ _
    | first :: second :: rest, short => exact absurd rfl (short first second rest)

/-- The collection of a list of entries, where the last value given for a key counts. -/
def ofList (entries : List (String × α)) : Keyed α :=
  ⟨keepLast (sortByKey entries), increasing_keepLast (pairwise_sortByKey entries)⟩

@[simp]
theorem entries_ofList (entries : List (String × α)) :
    (ofList entries).entries = keepLast (sortByKey entries) := rfl

/-! ## Look-up after a change -/

/-- The empty collection has no values. -/
@[simp]
theorem get?_empty (key : String) : (empty : Keyed α).get? key = none := rfl

/-- What is found among entries after a value was placed there. -/
theorem find?_place (key : String) (value : α) (asked : String) (entries : List (String × α)) :
    ((place key value entries).find? (·.1 == asked)).map (·.2) =
      if asked = key then some value else (entries.find? (·.1 == asked)).map (·.2) := by
  induction entries with
  | nil =>
    by_cases same : asked = key
    · simp [place, same]
    · simp [place, same, Ne.symm same]
  | cons entry rest ih =>
    obtain ⟨other, held⟩ := entry
    by_cases equal : key = other
    · subst equal
      by_cases same : asked = key
      · simp [place, same]
      · simp [place, same, Ne.symm same]
    · by_cases before : key < other
      · by_cases same : asked = key
        · simp [place, equal, before, same]
        · simp [place, equal, before, same, Ne.symm same]
      · by_cases found : other = asked
        · subst found
          simp [place, equal, before, Ne.symm equal]
        · simp [place, equal, before, found, ih]

/-- A filed value is found under its key, and nothing else changes. -/
theorem get?_insert (collection : Keyed α) (key : String) (value : α) (asked : String) :
    (collection.insert key value).get? asked =
      if asked = key then some value else collection.get? asked :=
  find?_place key value asked collection.entries

/-- A key that is taken away has no value, and nothing else changes. -/
theorem get?_erase (collection : Keyed α) (key asked : String) :
    (collection.erase key).get? asked = if asked = key then none else collection.get? asked := by
  simp only [get?, erase]
  induction collection.entries with
  | nil => simp
  | cons entry rest ih =>
    by_cases gone : entry.1 = key
    · by_cases same : asked = key
      · simp_all
      · have other : entry.1 ≠ asked := fun found => same (found.symm.trans gone)
        simp_all
    · by_cases found : entry.1 = asked
      · have other : asked ≠ key := fun same => gone (found.trans same)
        simp_all
      · simp_all

end Keyed

end Mounts

import Mounts.Keyed

/-!
# Entries in the order of their keys

A new key may be filed in either of two ways, at its place among the others or behind them before
all are sorted; the outcome is the same (`sortByKey_append`).  The values of a collection are the
value of any one key and those of the other keys (`values_perm`), so they are found by asking each
key that has one (`values_perm_filterMap`).

Collecting a list of entries sorts all of them at once and then keeps one of each run with the same
key.  The sort is stable, so that one is the entry which the list gives last (`get?_ofList`).  A
collection is told by what is found in it (`ext_get?`), and empty if that is nothing
(`isEmpty_iff`).  So bulk collection comes to the same as filing the entries one after another
(`ofList_eq_foldl`).

Runs may be collapsed in place as well, each into the entry that it starts with
(`collapse_eq_keepLast`).
-/

namespace Mounts.Keyed

set_option autoImplicit false

variable {α : Type}

/-! ## Overwriting, and sorting behind -/

/-- A key that is there is overwritten where filing would place it. -/
theorem overwrite_eq_place {key : String} {value : α} {entries : List (String × α)}
    (increasing : Increasing entries) (there : (entries.find? (·.1 == key)).isSome) :
    overwrite key value entries = place key value entries := by
  induction entries with
  | nil => exact absurd there (by simp)
  | cons first rest ih =>
    obtain ⟨other, held⟩ := first
    obtain ⟨least, further⟩ := List.pairwise_cons.mp increasing
    rw [overwrite, place]
    by_cases same : other = key
    · rw [if_pos same, if_pos same.symm, same]
    · have inRest : (rest.find? (·.1 == key)).isSome := by
        rw [List.find?_cons_of_neg (by simpa using same)] at there
        exact there
      obtain ⟨entry, found⟩ := Option.isSome_iff_exists.mp inRest
      have above : other < key := by
        have later := least entry (List.mem_of_find?_eq_some found)
        have named : entry.1 = key := by simpa using List.find?_some found
        rwa [named] at later
      rw [if_neg same, if_neg (Ne.symm same), if_neg (String.lt_asymm above), ih further inRest]

theorem place_perm {key : String} {value : α} {entries : List (String × α)}
    (absent : ∀ entry ∈ entries, entry.1 ≠ key) :
    (place key value entries).Perm (entries ++ [(key, value)]) := by
  induction entries with
  | nil => exact List.Perm.refl _
  | cons first rest ih =>
    obtain ⟨other, held⟩ := first
    rw [place, if_neg (Ne.symm (absent _ List.mem_cons_self))]
    split
    · exact (List.perm_append_singleton _ _).symm
    · exact (ih fun entry found => absent entry (List.mem_cons_of_mem _ found)).cons _

theorem sortByKey_of_increasing {entries : List (String × α)} (increasing : Increasing entries) :
    sortByKey entries = entries :=
  List.mergeSort_of_pairwise (increasing.imp fun before =>
    decide_eq_true (Std.le_of_lt before))

/-- Among increasing entries there is one for a key. -/
theorem eq_of_fst_eq {entries : List (String × α)} (increasing : Increasing entries)
    {one other : String × α} (oneThere : one ∈ entries) (otherThere : other ∈ entries)
    (same : one.1 = other.1) : one = other := by
  induction entries with
  | nil => cases oneThere
  | cons first rest ih =>
    obtain ⟨least, further⟩ := List.pairwise_cons.mp increasing
    rcases List.mem_cons.mp oneThere with rfl | oneLater
    · rcases List.mem_cons.mp otherThere with rfl | otherLater
      · rfl
      · exact absurd same (String.ne_of_lt (least other otherLater))
    · rcases List.mem_cons.mp otherThere with rfl | otherLater
      · exact absurd same.symm (String.ne_of_lt (least one oneLater))
      · exact ih further oneLater otherLater

/-- Entries of different keys have one order. -/
theorem eq_of_perm {first second : List (String × α)} (increasing : Increasing first)
    (sorted : second.Pairwise fun one other => one.1 ≤ other.1) (perm : first.Perm second) :
    first = second := by
  have antisymm : ∀ one other : String × α, one ∈ first → other ∈ second → one.1 ≤ other.1 →
      other.1 ≤ one.1 → one = other := by
    intro one other inFirst inSecond before after
    exact eq_of_fst_eq increasing inFirst (perm.mem_iff.mpr inSecond)
      (String.le_antisymm before after)
  exact List.Perm.eq_of_pairwise antisymm (increasing.imp Std.le_of_lt) sorted perm

/-- **Sorting a new entry in from behind files it at its place.** -/
theorem sortByKey_append {key : String} {value : α} {entries : List (String × α)}
    (increasing : Increasing entries) (absent : ∀ entry ∈ entries, entry.1 ≠ key) :
    sortByKey (entries ++ [(key, value)]) = place key value entries :=
  (eq_of_perm (increasing_place key value increasing) (pairwise_sortByKey _)
    ((place_perm absent).trans (sortByKey_perm _).symm)).symm

/-! ## Bulk collection -/

theorem keepLast_of_increasing {entries : List (String × α)} (increasing : Increasing entries) :
    keepLast entries = entries := by
  fun_induction keepLast entries with
  | case1 first second rest same ih =>
    have before := (List.pairwise_cons.mp increasing).1 second List.mem_cons_self
    exact absurd same (String.ne_of_lt before)
  | case2 first second rest differ ih => rw [ih increasing.of_cons]
  | case3 => rfl

theorem mem_ofList {entry : String × α} {entries : List (String × α)}
    (found : entry ∈ (ofList entries).entries) : entry ∈ entries :=
  (sortByKey_perm entries).mem_iff.mp (mem_keepLast found)

/-- Collecting the entries of a collection gives it back. -/
theorem ofList_entries (collection : Keyed α) : ofList collection.entries = collection := by
  ext1
  rw [entries_ofList, sortByKey_of_increasing collection.increasing,
    keepLast_of_increasing collection.increasing]

/-! ## Look-up -/

/-- The value of a key is the one that it is entered with. -/
theorem get?_eq_some_iff {collection : Keyed α} {key : String} {value : α} :
    collection.get? key = some value ↔ (key, value) ∈ collection.entries := by
  rw [get?, Option.map_eq_some_iff]
  constructor
  · rintro ⟨⟨found, held⟩, first, rfl⟩
    have named : found = key := by simpa using List.find?_some first
    exact named ▸ List.mem_of_find?_eq_some first
  · intro there
    have some_found : (collection.entries.find? (·.1 == key)).isSome :=
      List.find?_isSome.mpr ⟨(key, value), there, by simp⟩
    obtain ⟨entry, first⟩ := Option.isSome_iff_exists.mp some_found
    have named : entry.1 = key := by simpa using List.find?_some first
    have same := eq_of_fst_eq collection.increasing (List.mem_of_find?_eq_some first) there named
    exact ⟨entry, first, by rw [same]⟩

theorem erase_of_absent {collection : Keyed α} {key : String}
    (absent : collection.get? key = none) : collection.erase key = collection := by
  ext1
  rw [entries_erase, List.filter_eq_self.mpr]
  intro entry found
  exact bne_iff_ne.mpr (get?_eq_none_iff.mp absent entry found)

/-! ## Values -/

theorem filter_key_of_least {key : String} {entries : List (String × α)}
    (least : ∀ entry ∈ entries, key < entry.1) : entries.filter (·.1 != key) = entries := by
  rw [List.filter_eq_self]
  intro entry found
  exact bne_iff_ne.mpr (Ne.symm (String.ne_of_lt (least entry found)))

theorem place_perm_filter (key : String) (value : α) {entries : List (String × α)}
    (increasing : Increasing entries) :
    (place key value entries).Perm ((key, value) :: entries.filter (·.1 != key)) := by
  induction entries with
  | nil => exact List.Perm.refl _
  | cons first rest ih =>
    obtain ⟨other, held⟩ := first
    obtain ⟨least, further⟩ := List.pairwise_cons.mp increasing
    rw [place]
    split
    · next same =>
      subst same
      rw [List.filter_cons_of_neg (by simp), filter_key_of_least least]
    split
    · next differs before =>
      rw [filter_key_of_least]
      intro entry found
      rcases List.mem_cons.mp found with rfl | later
      · exact before
      · exact String.lt_trans before (least entry later)
    · next differs notBefore =>
      rw [List.filter_cons_of_pos (by simpa using Ne.symm differs)]
      exact ((ih further).cons _).trans (List.Perm.swap _ _ _)

theorem perm_filter_of_mem {key : String} {value : α} {entries : List (String × α)}
    (increasing : Increasing entries) (there : (key, value) ∈ entries) :
    entries.Perm ((key, value) :: entries.filter (·.1 != key)) := by
  induction entries with
  | nil => cases there
  | cons first rest ih =>
    obtain ⟨least, further⟩ := List.pairwise_cons.mp increasing
    rcases List.mem_cons.mp there with rfl | later
    · rw [List.filter_cons_of_neg (by simp), filter_key_of_least least]
    · have differs : first.1 ≠ key := String.ne_of_lt (least _ later)
      rw [List.filter_cons_of_pos (by simpa using differs)]
      exact ((ih further later).cons _).trans (List.Perm.swap _ _ _)

/-- The values of a collection: the one of a key, if it has one, and those of the other keys. -/
theorem values_perm (collection : Keyed α) (key : String) :
    ((collection.get? key).toList ++ (collection.erase key).values).Perm collection.values := by
  cases found : collection.get? key with
  | none =>
    rw [erase_of_absent found]
    exact List.Perm.refl _
  | some value =>
    exact ((perm_filter_of_mem collection.increasing (get?_eq_some_iff.mp found)).map Prod.snd).symm

/-- A filed value takes the place of the one that its key had. -/
theorem values_insert_perm (collection : Keyed α) (key : String) (value : α) :
    ((collection.get? key).toList ++ (collection.insert key value).values).Perm
      (value :: collection.values) := by
  have filed : (collection.insert key value).values.Perm (value :: (collection.erase key).values) :=
    (place_perm_filter key value collection.increasing).map Prod.snd
  exact (filed.append_left _).trans
    (List.perm_middle.trans ((values_perm collection key).cons value))

/-- The values of a collection are what is found when every key that has one is asked once. -/
theorem values_perm_filterMap {collection : Keyed α} {keys : List String} (distinct : keys.Nodup)
    (all : ∀ key, (collection.get? key).isSome → key ∈ keys) {found? : String → Option α}
    (told : ∀ key ∈ keys, found? key = collection.get? key) :
    (keys.filterMap found?).Perm collection.values := by
  induction keys generalizing collection with
  | nil =>
    have nothing : collection.entries = [] := by
      rw [List.eq_nil_iff_forall_not_mem]
      rintro ⟨key, value⟩ there
      have found := get?_eq_some_iff.mpr there
      exact List.not_mem_nil (all key (by rw [found]; rfl))
    simp [values, nothing]
  | cons key keys ih =>
    obtain ⟨absent, further⟩ := List.nodup_cons.mp distinct
    -- The other keys are asked of the collection without the first one.
    have others : (keys.filterMap found?).Perm (collection.erase key).values := by
      refine ih further (fun other found => ?_) fun other inside => ?_
      · rw [get?_erase] at found
        split at found
        · cases found
        · next differs => exact List.mem_of_ne_of_mem differs (all other found)
      · have differs : other ≠ key := fun same => absent (same ▸ inside)
        rw [told other (List.mem_cons_of_mem _ inside), get?_erase, if_neg differs]
    have first : (key :: keys).filterMap found? =
        (collection.get? key).toList ++ keys.filterMap found? := by
      rw [List.filterMap_cons, told key List.mem_cons_self]
      cases collection.get? key with
      | none => rfl
      | some value => rfl
    rw [first]
    exact (others.append_left _).trans (values_perm collection key)

theorem mem_values_of_get? {collection : Keyed α} {key : String} {value : α}
    (found : collection.get? key = some value) : value ∈ collection.values := by
  obtain ⟨entry, first, rfl⟩ := Option.map_eq_some_iff.mp found
  exact List.mem_map_of_mem (List.mem_of_find?_eq_some first)

/-! ## What is given last -/

/-- Entries give a value for a key last: only entries with other keys follow. -/
def GivesLast (entries : List (String × α)) (key : String) (value : α) : Prop :=
  ∃ earlier later, entries = earlier ++ (key, value) :: later ∧ ∀ entry ∈ later, entry.1 ≠ key

/-- The value that entries give last for a key. -/
def last? (entries : List (String × α)) (key : String) : Option α :=
  (entries.findRev? (·.1 == key)).map (·.2)

theorem last?_eq_some_iff {entries : List (String × α)} {key : String} {value : α} :
    last? entries key = some value ↔ GivesLast entries key value := by
  rw [last?, List.findRev?_eq_find?_reverse, Option.map_eq_some_iff]
  constructor
  · rintro ⟨⟨other, held⟩, found, rfl⟩
    obtain ⟨named, later, earlier, reversed, others⟩ := List.find?_eq_some_iff_append.mp found
    obtain rfl : other = key := by simpa using named
    refine ⟨earlier.reverse, later.reverse, ?_, fun entry inside => ?_⟩
    · rw [← List.reverse_reverse entries, reversed]
      simp
    · simpa using others entry (List.mem_reverse.mp inside)
  · rintro ⟨earlier, later, rfl, others⟩
    refine ⟨(key, value), List.find?_eq_some_iff_append.mpr ⟨by simp, later.reverse,
      earlier.reverse, by simp, fun entry inside => ?_⟩, rfl⟩
    simpa using others entry (List.mem_reverse.mp inside)

/-- What the images of some entries give last is given by one of these entries. -/
theorem givesLast_map_iff {β : Type} {entries : List β} {image : β → String × α} {key : String}
    {value : α} : GivesLast (entries.map image) key value ↔
      ∃ earlier entry later, entries = earlier ++ entry :: later ∧ image entry = (key, value) ∧
        ∀ other ∈ later, (image other).1 ≠ key := by
  constructor
  · rintro ⟨earlier, later, split_up, others⟩
    obtain ⟨before, rest, rfl, rfl, behind⟩ := List.map_eq_append_iff.mp split_up
    obtain ⟨entry, after, rfl, same, rfl⟩ := List.map_eq_cons_iff.mp behind
    exact ⟨before, entry, after, rfl, same, fun other inside =>
      others _ (List.mem_map_of_mem inside)⟩
  · rintro ⟨earlier, entry, later, rfl, same, others⟩
    refine ⟨earlier.map image, later.map image, ?_, List.forall_mem_map.mpr others⟩
    rw [List.map_append, List.map_cons, same]

theorem last?_eq_none_iff {entries : List (String × α)} {key : String} :
    last? entries key = none ↔ ∀ entry ∈ entries, entry.1 ≠ key := by
  simp [last?, List.findRev?_eq_find?_reverse]

theorem last?_cons (entry : String × α) (entries : List (String × α)) (key : String) :
    last? (entry :: entries) key =
      (last? entries key).or (if key = entry.1 then some entry.2 else none) := by
  rw [last?, last?, List.findRev?_eq_find?_reverse, List.findRev?_eq_find?_reverse,
    List.reverse_cons, List.find?_append, Option.map_or]
  by_cases same : key = entry.1
  · simp [same]
  · simp [same, Ne.symm same]

/-- Leaving out the entries with one key changes nothing for the others. -/
theorem last?_filter (entries : List (String × α)) (other key : String) :
    last? (entries.filter (·.1 != other)) key =
      if key = other then none else last? entries key := by
  induction entries with
  | nil => simp [last?]
  | cons entry entries ih =>
    by_cases left_out : entry.1 = other
    · rw [List.filter_cons_of_neg (by simpa using left_out), ih, last?_cons]
      by_cases same : key = other
      · simp [same]
      · simp [same, left_out]
    · rw [List.filter_cons_of_pos (by simpa using left_out), last?_cons, last?_cons, ih]
      by_cases same : key = other
      · simp [same, Ne.symm left_out]
      · simp [same]

/-! ## One entry for each key -/

/-- Sorting leaves the entries with one key in the order they had. -/
theorem filter_sortByKey (entries : List (String × α)) (key : String) :
    (sortByKey entries).filter (·.1 == key) = entries.filter (·.1 == key) := by
  have equal_keys : (entries.filter (·.1 == key)).Pairwise fun first second =>
      decide (first.1 ≤ second.1) = true := by
    refine List.pairwise_filter.mpr (List.pairwise_of_forall fun first second => ?_)
    simp +contextual
  have kept : (entries.filter (·.1 == key)).Sublist (sortByKey entries) :=
    List.sublist_mergeSort
      (fun first second third => by simpa using String.le_trans)
      (fun first second => by simpa using String.le_total first.1 second.1)
      equal_keys List.filter_sublist
  have filtered := kept.filter (·.1 == key)
  rw [List.filter_filter, List.filter_congr (fun entry _ => Bool.and_self _)] at filtered
  exact (filtered.eq_of_length ((sortByKey_perm entries).filter _).length_eq.symm).symm

/-- Among sorted entries the last one of a key is kept. -/
theorem find?_keepLast {entries : List (String × α)}
    (sorted : entries.Pairwise fun first second => first.1 ≤ second.1) (key : String) :
    (keepLast entries).find? (·.1 == key) = (entries.filter (·.1 == key)).getLast? := by
  fun_induction keepLast entries with
  | case1 first second rest same ih =>
    rw [ih sorted.of_cons]
    by_cases named : second.1 = key
    · simp [same, named]
    · simp [same, named]
  | case2 first second rest differ ih =>
    obtain ⟨least, further⟩ := List.pairwise_cons.mp sorted
    rw [List.find?_cons, ih further, List.filter_cons (x := first)]
    split
    · next here =>
      -- All later keys are greater, so no other entry has the key of the first.
      have above := Std.lt_of_le_of_ne (least second List.mem_cons_self) differ
      have none_later : (second :: rest).filter (·.1 == key) = [] := by
        rw [List.filter_eq_nil_iff]
        intro entry inside named
        have reached : second.1 ≤ entry.1 := by
          rcases List.mem_cons.mp inside with rfl | later
          · exact String.le_refl _
          · exact (List.pairwise_cons.mp further).1 entry later
        have same : entry.1 = first.1 := by simp_all
        exact String.lt_irrefl _ (Std.lt_of_lt_of_le above (same ▸ reached))
      rw [here, if_pos rfl, none_later]
      rfl
    · next elsewhere => rw [elsewhere, if_neg Bool.false_ne_true]
  | case3 entries short =>
    rcases entries with - | ⟨entry, - | ⟨second, rest⟩⟩
    · rfl
    · by_cases named : entry.1 = key
      · simp [named]
      · simp [named]
    · exact absurd rfl (short entry second rest)

/-- **Bulk collection keeps for each key the value that the list gives last.** -/
theorem get?_ofList (entries : List (String × α)) (key : String) :
    (ofList entries).get? key = last? entries key := by
  rw [get?, ofList, find?_keepLast (pairwise_sortByKey entries), filter_sortByKey,
    List.getLast?_filter, last?, List.findRev?_eq_find?_reverse]

/-! ## Collapsing runs in place -/

/-- An entry and those behind it, where each entry with the key of the one that was kept last gives
its value to that one. -/
def collapseInto (kept : String × α) : List (String × α) → List (String × α)
  | [] => [kept]
  | later :: rest =>
    if later.1 = kept.1 then collapseInto (kept.1, later.2) rest
    else kept :: collapseInto later rest

/-- Each run of entries with one key, collapsed into the entry that it starts with. -/
def collapse : List (String × α) → List (String × α)
  | [] => []
  | first :: rest => collapseInto first rest

theorem collapseInto_eq_keepLast (kept : String × α) (rest : List (String × α)) :
    collapseInto kept rest = keepLast (kept :: rest) := by
  induction rest generalizing kept with
  | nil => rfl
  | cons later rest ih =>
    rw [collapseInto, keepLast]
    by_cases same : later.1 = kept.1
    · rw [if_pos same, if_pos same.symm, ih, ← same]
    · rw [if_neg same, if_neg (Ne.symm same), ih]

/-- **To collapse runs in place is to keep the last entry of each.** -/
theorem collapse_eq_keepLast (entries : List (String × α)) :
    collapse entries = keepLast entries := by
  cases entries with
  | nil => rfl
  | cons first rest => exact collapseInto_eq_keepLast first rest

/-! ## Collections told by look-up -/

/-- Collections in which the same is found are the same. -/
theorem ext_get? {first second : Keyed α} (same : ∀ key, first.get? key = second.get? key) :
    first = second := by
  have entered (entry : String × α) : entry ∈ first.entries ↔ entry ∈ second.entries := by
    rw [← get?_eq_some_iff, ← get?_eq_some_iff, same]
  have distinct (collection : Keyed α) : collection.entries.Nodup :=
    collection.increasing.imp fun before equal => String.ne_of_lt before (congrArg Prod.fst equal)
  have perm : first.entries.Perm second.entries :=
    (List.perm_ext_iff_of_nodup (distinct first) (distinct second)).mpr entered
  ext1
  exact eq_of_perm first.increasing (second.increasing.imp Std.le_of_lt) perm

/-- A collection is empty exactly if nothing is found in it. -/
theorem isEmpty_iff {collection : Keyed α} :
    collection.isEmpty = true ↔ ∀ key, collection.get? key = none := by
  rw [isEmpty, List.isEmpty_iff]
  constructor
  · intro nothing key
    rw [get?, nothing]
    rfl
  · intro missing
    have same : collection = ∅ := ext_get? missing
    rw [same]
    rfl

theorem get?_foldl_insert (collection : Keyed α) (entries : List (String × α)) (key : String) :
    (entries.foldl (fun longer entry => longer.insert entry.1 entry.2) collection).get? key =
      (last? entries key).or (collection.get? key) := by
  induction entries generalizing collection with
  | nil => rfl
  | cons entry entries ih =>
    rw [List.foldl_cons, ih, get?_insert, last?_cons, Option.or_assoc]
    split
    · rfl
    · rfl

/-- **Bulk collection comes to the same as filing the entries one after another.** -/
theorem ofList_eq_foldl (entries : List (String × α)) :
    ofList entries =
      entries.foldl (fun longer entry => longer.insert entry.1 entry.2) empty := by
  refine ext_get? fun key => ?_
  rw [get?_ofList, get?_foldl_insert, get?_empty, Option.or_none]

end Mounts.Keyed

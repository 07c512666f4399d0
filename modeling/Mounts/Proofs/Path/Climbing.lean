import Mathlib.Data.List.Infix
import Mounts.Proofs.Path.Nesting

/-!
# Ways up

A path is left upwards by its enclosing directory and by `..`, which come to the same.  A text that
goes up no further than it came down stays below the place where it starts.
-/

namespace Mounts.Path

set_option autoImplicit false

/-!
## Enclosing directories

Every canonical path but the root is that of an entry of another canonical path
(`Canonical.exists_child`).  The path of an entry is taken apart again in three ways, each with an
algorithm of its own: the last segment is the name (`basename_child`), the enclosing directory is
the other path (`parent?_child`), and so is what the text `..` leads to (`resolve_up_child`).  The
root has no enclosing directory, and `..` leads from it to itself.
-/

section

variable {path name : String}

/-- Every canonical path but the root is that of an entry of a directory. -/
theorem Canonical.exists_child (canonical : Canonical path) (below_root : path ≠ root) :
    ∃ above name, Canonical above ∧ IsName name ∧ path = child above name := by
  have some_name : names path ≠ [] := mt canonical.names_eq_nil_iff.mp below_root
  obtain ⟨first, last, parted⟩ := (List.eq_nil_or_concat' (names path)).resolve_left some_name
  have proper := canonical.isName
  rw [parted, List.forall_mem_append, List.forall_mem_singleton] at proper
  have canonical_above : Canonical (ofNames first) := ⟨first, proper.1, rfl⟩
  refine ⟨ofNames first, last, canonical_above, proper.2, ?_⟩
  rw [canonical_above.child_eq, names_ofNames proper.1, ← parted, canonical.ofNames_names]

/-! ### Taking an entry's path apart -/

section

variable (canonical : Canonical path) (proper : IsName name)
include canonical proper

theorem child_ne_root : child path name ≠ root := by
  rw [Ne, ← (canonical_child canonical proper).names_eq_nil_iff, canonical.names_child proper]
  exact List.append_ne_nil_of_right_ne_nil _ (List.cons_ne_nil _ _)

theorem segments_child : segments (child path name) = "" :: names path ++ [name] := by
  rw [(canonical_child canonical proper).segments_eq (child_ne_root canonical proper),
    canonical.names_child proper, List.cons_append]

/-- The last segment of an entry's path is its name. -/
theorem basename_child : basename (child path name) = name := by
  rw [basename, segments_child canonical proper, List.getLast?_concat]
  dsimp only
  rw [if_neg proper.filled]

/-- The enclosing directory of an entry is the one that it is an entry of. -/
theorem parent?_child : parent? (child path name) = some path := by
  obtain ⟨above, further, backwards⟩ :=
    List.exists_cons_of_ne_nil (l := ("" :: names path).reverse) (by simp)
  have forwards : (above :: further).reverse = "" :: names path := by
    rw [← backwards, List.reverse_reverse]
  rw [parent?, segments_child canonical proper, List.reverse_append, List.reverse_singleton,
    List.singleton_append, backwards]
  dsimp only
  rw [if_neg proper.filled, forwards, trail_cons_empty, trail_eq_trailFrom,
    trailFrom_names canonical.isName, List.nil_append, canonical.ofNames_names]

/-- A name leads from a directory to its entry of that name. -/
theorem resolve_child : resolve path name = child path name :=
  (canonical_child canonical proper).resolve_of_relative? canonical
    (canonical.relative?_eq_some_iff.mpr rfl)

/-- The text `..` leads from an entry to its directory. -/
theorem resolve_up_child : resolve (child path name) ".." = path := by
  have canonical_entry := canonical_child canonical proper
  have reached : names (resolve (child path name) "..") = names path := by
    have one_up : segments ".." = [".."] := by decide
    rw [canonical_entry.names_resolve (by decide), one_up, canonical.names_child proper,
      trailFrom, List.reverse_append, List.reverse_singleton, List.singleton_append,
      List.foldl_cons, List.foldl_nil]
    exact List.reverse_reverse _
  exact ((canonical_resolve _ _).names_inj canonical).mp reached

end

/-! ### The top of a tree -/

theorem parent?_root : parent? root = none := by
  decide

theorem resolve_up_root : resolve root ".." = root := by
  decide

/-- The root alone has no enclosing directory. -/
theorem Canonical.parent?_eq_none_iff (canonical : Canonical path) :
    parent? path = none ↔ path = root := by
  constructor
  · intro nothing
    by_contra below_root
    obtain ⟨above, name, canonical_above, proper, rfl⟩ := canonical.exists_child below_root
    rw [parent?_child canonical_above proper] at nothing
    cases nothing
  · rintro rfl
    exact parent?_root

/-- The enclosing directory of what several names lead to is what all but the last lead to. -/
theorem parent?_ofNames_concat {above : List String}
    (proper : ∀ each ∈ above ++ [name], IsName each) :
    parent? (ofNames (above ++ [name])) = some (ofNames above) := by
  rw [List.forall_mem_append, List.forall_mem_singleton] at proper
  have canonical_above : Canonical (ofNames above) := ⟨above, proper.1, rfl⟩
  have entry := parent?_child canonical_above proper.2
  rwa [canonical_above.child_eq, names_ofNames proper.1] at entry

end

/-!
## Texts that stay below

Each `..` takes back a name that was followed before, if one is left, and a name of the place where
the walk began otherwise.  A text stays below its place if the ways up never outnumber the names
(`StaysWithin`).  Then the names of the place are not touched, and the text adds the names that it
leads to from the top of a tree (`Canonical.names_resolve_of_stays`).

The condition cannot be weakened: a text that breaks it leaves some place (`exists_left`).
-/

/-- The ways up in no initial part of some segments outnumber the names in it and those that were
followed before. -/
def StaysWithin (before : Nat) (segments : List String) : Prop :=
  ∀ initial, initial <+: segments →
    initial.count ".." ≤ before + initial.countP fun segment => decide (IsName segment)

instance (before : Nat) (segments : List String) : Decidable (StaysWithin before segments) :=
  decidable_of_iff (∀ initial ∈ segments.inits, initial.count ".." ≤
      before + initial.countP fun segment => decide (IsName segment)) <|
    forall_congr' fun initial => imp_congr_left (List.mem_inits initial segments)

variable {above below segments : List String} {segment : String}

/-! ### One segment -/

/-- A segment that finds a name to take away does not touch the names further up. -/
theorem follow_append (room : segment = ".." → above ≠ []) :
    follow (above ++ below) segment = follow above segment ++ below := by
  rw [follow, follow]
  split
  · rfl
  · split
    · next up =>
      obtain ⟨last, further, rfl⟩ := List.exists_cons_of_ne_nil (room up)
      rfl
    · rfl

/-- The names that are left, and one for a way up, are as many as there were, and one for a name. -/
theorem length_follow (closed : separator ∉ segment.toList) (room : segment = ".." → above ≠ []) :
    (follow above segment).length + [segment].count ".." =
      above.length + [segment].countP fun segment => decide (IsName segment) := by
  rw [List.countP_singleton, List.count_singleton, follow]
  by_cases idle : segment = "" ∨ segment = "."
  · have no_name : ¬ IsName segment := by
      rcases idle with rfl | rfl <;> decide
    have no_way_up : segment ≠ ".." := by
      rcases idle with rfl | rfl <;> decide
    simp [idle, no_name, no_way_up]
  · by_cases up : segment = ".."
    · have no_name : ¬ IsName ".." := by decide
      have some_name := List.length_pos_of_ne_nil (room up)
      subst up
      simp [no_name]
      omega
    · rw [not_or] at idle
      have name : IsName segment := ⟨idle.1, idle.2, up, closed⟩
      simp [idle, up, name]

theorem staysWithin_nil (before : Nat) : StaysWithin before [] := by
  intro initial begins
  rw [List.prefix_nil.mp begins]
  exact Nat.zero_le _

/-- **Segments stay within what was followed before if the first one finds a name to take away, and
the others stay within what is left then.** -/
theorem staysWithin_cons_iff (closed : separator ∉ segment.toList) :
    StaysWithin above.length (segment :: segments) ↔
      (segment = ".." → above ≠ []) ∧ StaysWithin (follow above segment).length segments := by
  have counted (initial : List String) (room : segment = ".." → above ≠ []) :
      (segment :: initial).count ".." ≤ above.length +
          (segment :: initial).countP (fun segment => decide (IsName segment)) ↔
        initial.count ".." ≤ (follow above segment).length +
          initial.countP fun segment => decide (IsName segment) := by
    have change := length_follow closed room
    rw [← List.singleton_append, List.count_append, List.countP_append]
    omega
  constructor
  · intro stays
    have room : segment = ".." → above ≠ [] := by
      rintro rfl rfl
      have first := stays [".."] ⟨segments, rfl⟩
      revert first
      decide
    refine ⟨room, fun initial begins => ?_⟩
    exact (counted initial room).mp (stays _ ((List.prefix_cons_inj segment).mpr begins))
  · rintro ⟨room, stays⟩ initial begins
    rcases List.prefix_cons_iff.mp begins with rfl | ⟨further, rfl, begins⟩
    · exact Nat.zero_le _
    · exact (counted further room).mpr (stays _ ((List.prefix_cons_inj segment).mp begins))

/-! ### Several segments -/

/-- **Segments that stay within the names followed before do not touch the names further up.** -/
theorem foldl_follow_append (closed : ∀ segment ∈ segments, separator ∉ segment.toList)
    (stays : StaysWithin above.length segments) :
    segments.foldl follow (above ++ below) = segments.foldl follow above ++ below := by
  induction segments generalizing above with
  | nil => rfl
  | cons segment segments ih =>
    rw [List.forall_mem_cons] at closed
    obtain ⟨room, further⟩ := (staysWithin_cons_iff closed.1).mp stays
    rw [List.foldl_cons, List.foldl_cons, follow_append room, ih closed.2 further]

theorem mem_of_mem_follow {trail : List String} {name : String}
    (found : name ∈ follow trail segment) : name ∈ trail ∨ name = segment := by
  rw [follow] at found
  split at found
  · exact .inl found
  · split at found
    · exact .inl (List.mem_of_mem_drop found)
    · exact (List.mem_cons.mp found).symm

theorem mem_of_mem_foldl_follow {trail : List String} {name : String}
    (found : name ∈ segments.foldl follow trail) : name ∈ trail ∨ name ∈ segments := by
  induction segments generalizing trail with
  | nil => exact .inl found
  | cons segment segments ih =>
    rw [List.mem_cons]
    rcases ih found with earlier | later
    · exact (mem_of_mem_follow earlier).imp_right .inl
    · exact .inr (.inr later)

/-- **Segments that do not stay within the names followed before take away the next name up.**  It
does not come back if it is not among the segments. -/
theorem not_mem_foldl_follow {name : String}
    (closed : ∀ segment ∈ segments, separator ∉ segment.toList) (new : name ∉ segments)
    (other : name ∉ above) (leaves : ¬ StaysWithin above.length segments) :
    name ∉ segments.foldl follow (above ++ [name]) := by
  induction segments generalizing above with
  | nil => exact absurd (staysWithin_nil _) leaves
  | cons segment segments ih =>
    rw [List.forall_mem_cons] at closed
    rw [List.mem_cons, not_or] at new
    rw [List.foldl_cons]
    by_cases room : segment = ".." → above ≠ []
    · have leaves_later : ¬ StaysWithin (follow above segment).length segments :=
        fun stays => leaves ((staysWithin_cons_iff closed.1).mpr ⟨room, stays⟩)
      have still_other : name ∉ follow above segment :=
        fun found => (mem_of_mem_follow found).elim other new.1
      rw [follow_append room]
      exact ih closed.2 new.2 still_other leaves_later
    · -- Here the name goes.
      rw [Classical.not_imp, not_not] at room
      obtain ⟨rfl, rfl⟩ := room
      intro found
      rcases mem_of_mem_foldl_follow found with left | again
      · exact List.not_mem_nil left
      · exact new.2 again

/-! ### Texts -/

variable {path relative : String}

/-- **A text that stays below its place adds the names that it leads to from the top of a tree.** -/
theorem Canonical.names_resolve_of_stays (canonical : Canonical path)
    (not_absolute : startsAtRoot relative = false)
    (stays : StaysWithin 0 (Path.segments relative)) :
    names (resolve path relative) = names path ++ names (canonicalize relative) := by
  have untouched :
      (Path.segments relative).foldl follow ([] ++ (names path).reverse) =
        (Path.segments relative).foldl follow [] ++ (names path).reverse :=
    foldl_follow_append (fun _ found => closed_of_mem_segments found) stays
  rw [canonical.names_resolve not_absolute, names_canonicalize, trailFrom, trail,
    ← List.nil_append (names path).reverse, untouched, List.reverse_append, List.reverse_reverse]

theorem length_repeated (size : Nat) : (String.ofList (List.replicate size 'x')).length = size := by
  rw [← String.length_toList, String.toList_ofList, List.length_replicate]

theorem isName_repeated (size : Nat) :
    IsName (String.ofList (List.replicate (size + 3) 'x')) := by
  have apart {text : String} (shorter : text.length < size + 3) :
      String.ofList (List.replicate (size + 3) 'x') ≠ text := by
    rintro rfl
    exact Nat.ne_of_lt shorter (length_repeated _)
  refine ⟨apart (Nat.succ_pos _), apart (Nat.lt_add_left _ (by decide)),
    apart (Nat.lt_add_left _ (by decide)), fun found => ?_⟩
  rw [String.toList_ofList] at found
  exact absurd (List.eq_of_mem_replicate found) (by decide)

/-- There is a name that is longer than several segments, and so not among them. -/
theorem exists_new_name (segments : List String) : ∃ name, IsName name ∧ name ∉ segments := by
  have longer : ∃ size, ∀ segment ∈ segments, segment.length ≤ size := by
    induction segments with
    | nil => exact ⟨0, List.forall_mem_nil _⟩
    | cons segment segments ih =>
      obtain ⟨size, shorter⟩ := ih
      refine ⟨max segment.length size, List.forall_mem_cons.mpr ⟨Nat.le_max_left _ _, ?_⟩⟩
      exact fun other found => Nat.le_trans (shorter other found) (Nat.le_max_right _ _)
  obtain ⟨size, shorter⟩ := longer
  refine ⟨_, isName_repeated size, fun found => ?_⟩
  have within := shorter _ found
  rw [length_repeated] at within
  omega

/-- **A text that does not stay below every place leaves some place.** -/
theorem exists_left (not_absolute : startsAtRoot relative = false)
    (leaves : ¬ StaysWithin 0 (Path.segments relative)) :
    ∃ path, Canonical path ∧ liesUnder (resolve path relative) (some path) = false := by
  obtain ⟨name, proper, new⟩ := exists_new_name (Path.segments relative)
  have names_place := names_ofNames (List.forall_mem_singleton.mpr proper)
  have canonical : Canonical (ofNames [name]) :=
    ⟨[name], List.forall_mem_singleton.mpr proper, rfl⟩
  refine ⟨ofNames [name], canonical, Bool.eq_false_iff.mpr fun under => ?_⟩
  have gone := not_mem_foldl_follow (fun _ found => closed_of_mem_segments found) new
    List.not_mem_nil leaves
  rw [(canonical_resolve _ _).liesUnder_iff canonical, canonical.names_resolve not_absolute,
    names_place] at under
  exact gone (List.mem_reverse.mp (under.subset List.mem_cons_self))

end Mounts.Path

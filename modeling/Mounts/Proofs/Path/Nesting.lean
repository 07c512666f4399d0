import Mounts.Proofs.Path.Canonical

/-!
# Paths within one another

One canonical path lies within another exactly if it has the names of the other and then some more.
The tests on texts agree with that, and so do relative paths.
-/

namespace Mounts.Path

set_option autoImplicit false

/-!
## Scopes and what lies under them

Whether a path lies under a scope and what follows the scope in the path are asked of the texts and
in two ways.  On canonical paths both come to one question about names: whether those of the scope
begin those of the path (`Canonical.liesUnder_iff`, `remainder_opens_iff`).  On texts of
any form it makes no difference for what lies under a scope whether the scope is written with a
separator at its end (`liesUnder_opened_eq`).  `prefix_tests_agree` puts this together.

An entry of a directory has the names of the directory and one more, so the scopes that cover it are
itself and those that cover the directory (`Canonical.liesUnder_child_iff`).
-/

/-! ### Scopes with and without a separator at their ends -/

/-- Under a scope that is neither empty nor the path written as a directory lies what is the same or
goes on behind it. -/
theorem liesUnder_iff_goesOnBehind {path scope : String} (filled : scope ≠ "")
    (no_directory : scope ≠ opened path) :
    liesUnder path (some scope) = true ↔ path = scope ∨ GoesOnBehind path scope := by
  rw [liesUnder_iff, or_iff_right filled, or_iff_left fun directory => no_directory directory.2,
    goesOnBehind_iff]
  constructor
  · rintro ⟨rest, parted, ends_open | rfl | opens⟩
    · exact .inr ⟨rest, parted, .inl ends_open⟩
    · rw [List.append_nil, String.toList_inj] at parted
      exact .inl parted
    · exact .inr ⟨rest, parted, .inr opens⟩
  · rintro (rfl | ⟨rest, parted, goes_on⟩)
    · exact ⟨[], (List.append_nil _).symm, .inr (.inl rfl)⟩
    · exact ⟨rest, parted, goes_on.imp_right .inr⟩

/-- Under a scope that ends within a segment lie itself and what a separator follows. -/
theorem liesUnder_iff_of_closed {path scope : String} (filled : scope ≠ "")
    (closed : endsOpen scope = false) : liesUnder path (some scope) = true ↔
      path = scope ∨ ∃ rest, path.toList = scope.toList ++ separator :: rest := by
  have no_directory : scope ≠ opened path := by
    rintro rfl
    rw [endsOpen_opened] at closed
    cases closed
  rw [liesUnder_iff_goesOnBehind filled no_directory, goesOnBehind_iff_separator closed]

/-- Under a scope that is written as a directory lie the directory and what follows the
separator. -/
theorem liesUnder_opened_iff {path scope : String} (filled : scope ≠ "") :
    liesUnder path (some (opened scope)) = true ↔
      path = scope ∨ ∃ rest, path.toList = scope.toList ++ separator :: rest := by
  rw [liesUnder_iff, or_iff_right (opened_ne_empty scope), opened_inj, toList_opened,
    endsOpen_opened]
  constructor
  · rintro (⟨rest, parted, _⟩ | ⟨_, rfl⟩)
    · rw [List.append_assoc, List.singleton_append] at parted
      exact .inr ⟨rest, parted⟩
    · exact .inl rfl
  · rintro (rfl | ⟨rest, parted⟩)
    · exact .inr ⟨filled, rfl⟩
    · refine .inl ⟨rest, ?_, .inl rfl⟩
      rwa [List.append_assoc, List.singleton_append]

/-- **A separator at the end of a scope makes no difference for what lies under it.** -/
theorem liesUnder_opened_eq {scope : String} (filled : scope ≠ "") (closed : endsOpen scope = false)
    (path : String) : liesUnder path (some (opened scope)) = liesUnder path (some scope) := by
  rw [Bool.eq_iff_iff, liesUnder_opened_iff filled, liesUnder_iff_of_closed filled closed]

/-! ### What follows a path -/

theorem remainder?_eq_empty_iff {path above : String} :
    remainder? path above = some "" ↔ path = above ∧ endsOpen above = false := by
  rw [remainder?, Option.map_eq_some_iff]
  constructor
  · rintro ⟨rest, parted, nothing⟩
    rw [String.ofList_eq_empty_iff] at nothing
    split at nothing
    · cases nothing
    · next closed =>
      rw [List.isPrefixOf?_eq_some_iff_append_eq, nothing, List.append_nil, String.toList_inj]
        at parted
      exact ⟨parted.symm, Bool.eq_false_iff.mpr closed⟩
  · rintro ⟨rfl, closed⟩
    refine ⟨[], List.isPrefixOf?_eq_some_iff_append_eq.mpr (List.append_nil _), ?_⟩
    rw [closed]
    rfl

theorem goesOnBehind_iff_remainder {path above : String} : GoesOnBehind path above ↔
    ∃ rest, remainder? path above = some rest ∧ startsAtRoot rest = true := by
  rw [GoesOnBehind, Option.isSome_iff_exists]
  exact exists_congr fun rest => Option.filter_eq_some_iff

/-- What follows a path is nothing or opens a segment in the path itself and in what goes on behind
it, and in no other path. -/
theorem remainder_opens_iff {path above : String} :
    (∃ rest, remainder? path above = some rest ∧ (rest = "" ∨ startsAtRoot rest = true)) ↔
      path = above ∨ GoesOnBehind path above := by
  constructor
  · rintro ⟨rest, found, rfl | opens⟩
    · exact .inl (remainder?_eq_empty_iff.mp found).1
    · exact .inr (goesOnBehind_iff_remainder.mpr ⟨rest, found, opens⟩)
  · rintro (rfl | behind)
    · by_cases ends_open : endsOpen path = true
      · -- The separator at the end is left, so a path that ends with one goes on behind itself.
        have behind : GoesOnBehind path path :=
          goesOnBehind_iff.mpr ⟨[], (List.append_nil path.toList).symm, .inl ends_open⟩
        obtain ⟨rest, found, opens⟩ := goesOnBehind_iff_remainder.mp behind
        exact ⟨rest, found, .inr opens⟩
      · exact ⟨"", remainder?_eq_empty_iff.mpr ⟨rfl, Bool.eq_false_iff.mpr ends_open⟩, .inl rfl⟩
    · obtain ⟨rest, found, opens⟩ := goesOnBehind_iff_remainder.mp behind
      exact ⟨rest, found, .inr opens⟩

/-! ### Canonical paths -/

namespace Canonical

variable {path scope above : String}

/-- No canonical path is another one with a separator more. -/
theorem ne_opened (canonical : Canonical path) (canonical_scope : Canonical scope) :
    scope ≠ opened path := by
  rintro rfl
  have at_root := canonical_scope.endsOpen_iff.mp (endsOpen_opened path)
  exact root_ne_opened canonical.ne_empty at_root.symm

/-- The names of a canonical path begin those of another one that is the same or goes on behind
it, and of no others. -/
theorem names_prefix_iff (canonical : Canonical path) (canonical_above : Canonical above) :
    names above <+: names path ↔ path = above ∨ GoesOnBehind path above := by
  rw [canonical.goesOnBehind_iff canonical_above]
  constructor
  · intro begins
    by_cases same : names above = names path
    · exact .inl ((canonical.names_inj canonical_above).mp same.symm)
    · exact .inr (.inl ⟨begins, same⟩)
  · rintro (rfl | ⟨begins, _⟩ | ⟨rfl, rfl⟩)
    · exact List.prefix_rfl
    · exact begins
    · exact List.prefix_rfl

/-- **A canonical path lies under the canonical scopes whose names begin its own.** -/
theorem liesUnder_iff (canonical : Canonical path) (canonical_scope : Canonical scope) :
    liesUnder path (some scope) = true ↔ names scope <+: names path := by
  rw [canonical.names_prefix_iff canonical_scope, liesUnder_iff_goesOnBehind
    canonical_scope.ne_empty (canonical.ne_opened canonical_scope)]

end Canonical

/-- **Both tests on paths ask for names that begin names**, and a separator at the end of a scope
makes no difference to them. -/
theorem prefix_tests_agree :
    (∀ path scope, Canonical path → Canonical scope →
      (liesUnder path (some scope) = true ↔ names scope <+: names path) ∧
      (liesUnder path (some scope) = true ↔
        ∃ rest, remainder? path scope = some rest ∧ (rest = "" ∨ startsAtRoot rest = true))) ∧
    ∀ path scope, scope ≠ "" → endsOpen scope = false →
      liesUnder path (some scope) = liesUnder path (some (opened scope)) := by
  refine ⟨fun path scope canonical canonical_scope => ⟨?names, ?remainder⟩, ?separators⟩
  case names =>
    exact canonical.liesUnder_iff canonical_scope
  case remainder =>
    rw [canonical.liesUnder_iff canonical_scope, canonical.names_prefix_iff canonical_scope,
      remainder_opens_iff]
  case separators =>
    intro path scope filled closed
    exact (liesUnder_opened_eq filled closed path).symm

/-- A directory holds none whose name only goes on behind its own, and holds its entries whether it
is written with a separator or not. -/
theorem prefix_tests_agree_public :
    liesUnder "/public" (some "/pub") = false ∧ remainder? "/public" "/pub" = some "lic" ∧
      liesUnder "/pub//a" (some "/pub") = liesUnder "/pub//a" (some (opened "/pub")) := by
  obtain ⟨canonical, separators⟩ := prefix_tests_agree
  have no_prefix : ¬ names "/pub" <+: names "/public" := by decide
  obtain ⟨by_names, _⟩ := canonical "/public" "/pub" (by decide) (by decide)
  refine ⟨?_, by decide, separators "/pub//a" "/pub" (by decide) (by decide)⟩
  exact Bool.eq_false_iff.mpr (mt by_names.mp no_prefix)

/-! ### Entries of directories -/

/-- The path of an entry of a directory. -/
def child (path name : String) : String :=
  (if path = root then path else opened path) ++ name

/-- The text of several names with a separator between any two neighbours. -/
def joined (names : List String) : String :=
  (String.singleton separator).intercalate names

/-- Joined names behind a path are written as the names of the path and these. -/
theorem Canonical.child_joined {path : String} (canonical : Canonical path) {entries : List String}
    (some_name : entries ≠ []) : child path (joined entries) = ofNames (names path ++ entries) := by
  obtain ⟨first, others, rfl⟩ := List.exists_cons_of_ne_nil some_name
  have letters : separator :: (joined (first :: others)).toList =
      (first :: others).flatMap fun name => separator :: name.toList := by
    rw [joined, String.toList_intercalate, String.toList_singleton, List.map_cons,
      Text.intercalate_cons, List.flatMap_map, List.flatMap_cons, List.cons_append]
  apply String.toList_injective
  rw [toList_ofNames (List.append_ne_nil_of_right_ne_nil _ some_name), List.flatMap_append,
    ← letters, child, String.toList_append]
  by_cases at_root : path = root
  · rw [if_pos at_root, at_root, names_root]
    rfl
  · have some_entry : names path ≠ [] := mt canonical.names_eq_nil_iff.mp at_root
    rw [if_neg at_root, ← toList_ofNames some_entry, canonical.ofNames_names, toList_opened,
      List.append_assoc, List.singleton_append]

theorem Canonical.child_eq {path : String} (canonical : Canonical path) (name : String) :
    child path name = ofNames (names path ++ [name]) :=
  canonical.child_joined (List.cons_ne_nil name [])

section

variable {path name : String} (canonical : Canonical path) (proper : IsName name)
include canonical proper

theorem Canonical.isName_snoc : ∀ each ∈ names path ++ [name], IsName each := by
  rw [List.forall_mem_append, List.forall_mem_singleton]
  exact ⟨canonical.isName, proper⟩

theorem canonical_child : Canonical (child path name) :=
  ⟨_, canonical.isName_snoc proper, canonical.child_eq name⟩

/-- An entry has the names of its directory and its own. -/
theorem Canonical.names_child : names (child path name) = names path ++ [name] := by
  rw [canonical.child_eq, names_ofNames (canonical.isName_snoc proper)]

/-- **An entry of a directory is covered by itself and by what covers the directory.** -/
theorem Canonical.liesUnder_child_iff {scope : String} (canonical_scope : Canonical scope) :
    liesUnder (child path name) (some scope) = true ↔
      scope = child path name ∨ liesUnder path (some scope) = true := by
  have canonical_entry := canonical_child canonical proper
  rw [canonical_entry.liesUnder_iff canonical_scope, canonical.liesUnder_iff canonical_scope,
    canonical.names_child proper, List.prefix_concat_iff, ← canonical.names_child proper,
    canonical_scope.names_inj canonical_entry]

end

/-- At the top of a tree nothing is covered but by the top. -/
theorem Canonical.liesUnder_root_iff {scope : String} (canonical_scope : Canonical scope) :
    liesUnder root (some scope) = true ↔ scope = root := by
  rw [canonical_root.liesUnder_iff canonical_scope, names_root, List.prefix_nil,
    canonical_scope.names_eq_nil_iff]

/-!
## Relative paths

What follows a canonical path in another one, without the separator between them, is the text that
`child` puts back behind the first path (`Canonical.relative?_eq_some_iff`).  No separator opens
such a text (`Canonical.not_absolute_behind`), so resolving it leads back to the second path
(`Canonical.resolve_of_relative?`).

In the other direction, joined names are found again behind every path from which they are resolved
(`Canonical.relative?_resolve_joined`).
-/

/-- What follows `above` in a path that goes on behind it, without the separator between them. -/
def relative? (path above : String) : Option String :=
  ((remainder? path above).filter startsAtRoot).map fun rest => String.ofList (rest.toList.drop 1)

variable {path above rest : String}

/-! ### Putting a relative path back -/

theorem startsAtRoot_cons (letters : List Char) :
    startsAtRoot (String.ofList (separator :: letters)) = true := by
  rw [startsAtRoot, String.toList_ofList, List.head?_cons, beq_self_eq_true]

/-- A separator in front is taken away again. -/
theorem ofList_drop_cons (letters : List Char) :
    String.ofList ((String.ofList (separator :: letters)).toList.drop 1) =
      String.ofList letters := by
  rw [String.toList_ofList, List.drop_one, List.tail_cons]

theorem relative?_eq_some_iff_of_open (ends_open : endsOpen above = true) :
    relative? path above = some rest ↔ path = above ++ rest := by
  rw [← String.toList_inj, String.toList_append, relative?, remainder?]
  simp only [if_pos ends_open, Option.map_eq_some_iff, Option.filter_eq_some_iff]
  constructor
  · rintro ⟨_, ⟨⟨letters, parted, rfl⟩, _⟩, rfl⟩
    rw [ofList_drop_cons, String.toList_ofList]
    exact (List.isPrefixOf?_eq_some_iff_append_eq.mp parted).symm
  · intro whole
    have parted := List.isPrefixOf?_eq_some_iff_append_eq.mpr whole.symm
    refine ⟨_, ⟨⟨rest.toList, parted, rfl⟩, startsAtRoot_cons _⟩, ?_⟩
    rw [ofList_drop_cons, String.ofList_toList]

theorem relative?_eq_some_iff_of_closed (closed : endsOpen above = false) :
    relative? path above = some rest ↔ path = opened above ++ rest := by
  rw [← String.toList_inj, String.toList_append, toList_opened, List.append_assoc,
    List.singleton_append, relative?, remainder?]
  simp only [closed, Bool.false_eq_true, if_false, Option.map_eq_some_iff,
    Option.filter_eq_some_iff]
  constructor
  · rintro ⟨_, ⟨⟨letters, parted, rfl⟩, opens⟩, rfl⟩
    rw [startsAtRoot, String.toList_ofList, beq_iff_eq] at opens
    obtain ⟨further, rfl⟩ := List.head?_eq_some_iff.mp opens
    rw [ofList_drop_cons, String.toList_ofList]
    exact (List.isPrefixOf?_eq_some_iff_append_eq.mp parted).symm
  · intro whole
    have parted := List.isPrefixOf?_eq_some_iff_append_eq.mpr whole.symm
    refine ⟨_, ⟨⟨separator :: rest.toList, parted, rfl⟩, startsAtRoot_cons _⟩, ?_⟩
    rw [ofList_drop_cons, String.ofList_toList]

/-- **A text is the path of one place relative to another exactly if it leads there from the other
when it is written behind it.** -/
theorem Canonical.relative?_eq_some_iff (canonical_above : Canonical above) :
    relative? path above = some rest ↔ path = child above rest := by
  by_cases at_root : above = root
  · rw [child, if_pos at_root]
    exact relative?_eq_some_iff_of_open (canonical_above.endsOpen_iff.mpr at_root)
  · rw [child, if_neg at_root]
    exact relative?_eq_some_iff_of_closed
      (Bool.eq_false_iff.mpr (mt canonical_above.endsOpen_iff.mp at_root))

/-! ### Resolving a relative path -/

theorem segments_ne_nil (path : String) : segments path ≠ [] := by
  simp [segments, Text.splitOn, List.splitOn_ne_nil]

/-- A text that a separator opens starts with an empty segment. -/
theorem segments_of_startsAtRoot (absolute : startsAtRoot path = true) :
    ∃ further, segments path = "" :: segments further := by
  rw [startsAtRoot, beq_iff_eq] at absolute
  obtain ⟨letters, written⟩ := List.head?_eq_some_iff.mp absolute
  have parted : path = opened "" ++ String.ofList letters := by
    apply String.toList_injective
    rw [written, String.toList_append, toList_opened, String.toList_ofList, String.toList_ofList,
      List.nil_append, List.singleton_append]
  refine ⟨String.ofList letters, ?_⟩
  rw [parted, segments_opened_append]
  rfl

/-- No separator opens what stands behind a separator in a canonical path. -/
theorem Canonical.not_absolute_behind (canonical : Canonical (opened above ++ rest)) :
    startsAtRoot rest = false := by
  refine Bool.eq_false_iff.mpr fun absolute => ?_
  obtain ⟨further, parted⟩ := segments_of_startsAtRoot absolute
  obtain ⟨first, firsts, begun⟩ := List.exists_cons_of_ne_nil (segments_ne_nil above)
  have pieces : segments (opened above ++ rest) = first :: (firsts ++ "" :: segments further) := by
    rw [segments_opened_append, parted, begun, List.cons_append]
  by_cases at_root : opened above ++ rest = root
  · -- The root has two segments, and here are three.
    rw [at_root, segments_root] at pieces
    have lengths := congrArg List.length pieces
    have more := List.length_pos_of_ne_nil (segments_ne_nil further)
    simp only [List.length_cons, List.length_append, List.length_nil] at lengths
    omega
  · rw [canonical.segments_eq at_root, List.cons.injEq] at pieces
    have inside : "" ∈ names (opened above ++ rest) := by
      rw [pieces.2]
      exact List.mem_append_right _ List.mem_cons_self
    exact (canonical.isName "" inside).filled rfl

/-- What is written behind a path follows a separator. -/
theorem child_eq_opened (above rest : String) :
    child above rest = opened (if above = root then "" else above) ++ rest := by
  rw [child]
  split
  · next at_root =>
    rw [at_root]
    rfl
  · rfl

/-- A second separator behind the root makes no difference. -/
theorem canonicalize_child (above rest : String) :
    canonicalize (child above rest) = canonicalize (opened above ++ rest) := by
  rw [child_eq_opened]
  split
  · next at_root =>
    rw [at_root, canonicalize_opened_append, canonicalize_opened_append, segments_root]
    rfl
  · rfl

/-- **Resolving the path of one place relative to another leads there from the other.** -/
theorem Canonical.resolve_of_relative? (canonical : Canonical path)
    (canonical_above : Canonical above) (found : relative? path above = some rest) :
    resolve above rest = path := by
  have behind : path = child above rest := canonical_above.relative?_eq_some_iff.mp found
  have not_absolute : startsAtRoot rest = false := by
    apply Canonical.not_absolute_behind
    rwa [← child_eq_opened above rest, ← behind]
  rw [resolve_of_relative not_absolute, ← canonicalize_child, ← behind, canonical.canonicalize_eq]

/-! ### Names that are joined -/

section

variable {entries : List String} (proper : ∀ name ∈ entries, IsName name)
  (some_name : entries ≠ [])
include proper some_name

theorem segments_joined : segments (joined entries) = entries :=
  Text.splitOn_intercalate some_name fun name found => (proper name found).closed

theorem not_absolute_joined : startsAtRoot (joined entries) = false := by
  refine Bool.eq_false_iff.mpr fun absolute => ?_
  obtain ⟨further, parted⟩ := segments_of_startsAtRoot absolute
  rw [segments_joined proper some_name] at parted
  exact (proper "" (parted ▸ List.mem_cons_self)).filled rfl

end

/-- **Joined names are the path of what they lead to, relative to where they are resolved.** -/
theorem Canonical.relative?_resolve_joined (canonical : Canonical path) {entries : List String}
    (proper : ∀ name ∈ entries, IsName name) (some_name : entries ≠ []) :
    relative? (resolve path (joined entries)) path = some (joined entries) := by
  have reached : names (resolve path (joined entries)) = names path ++ entries := by
    rw [canonical.names_resolve (not_absolute_joined proper some_name),
      segments_joined proper some_name, trailFrom_names proper]
  rw [canonical.relative?_eq_some_iff, canonical.child_joined some_name, ← reached,
    (canonical_resolve _ _).ofNames_names]

end Mounts.Path

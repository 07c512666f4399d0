import Mathlib.Data.List.Basic
import Mounts.Path
import Mounts.Proofs.Path.Covering
import Mounts.Proofs.Text.Splitting

/-!
# Canonical paths

Canonical paths and lists of names are the same thing, and walking from a place leads to a canonical
path whatever it goes along.
-/

namespace Mounts.Path

set_option autoImplicit false

/-!
## Paths and names

A canonical path writes names, each after a separator, and is `/` if there are none.  Its names can
be read off it again (`names_ofNames`), so canonical paths and lists of names are the same thing
(`Canonical.ofNames_names`).

Whatever a path is walked through or resolved from, the outcome is canonical: following a segment
puts nothing on the trail but names (`isName_of_follow`).

The root is the only canonical path with a separator at its end.  Hence one canonical path goes on
with a new segment behind another one exactly if it has the names of the other and then some more,
with one exception: the root goes on behind itself (`Canonical.goesOnBehind_iff`).
-/

/-- A segment that names an entry of a directory. -/
structure IsName (segment : String) : Prop where
  filled : segment ≠ ""
  not_here : segment ≠ "."
  not_above : segment ≠ ".."
  closed : separator ∉ segment.toList

instance (segment : String) : Decidable (IsName segment) :=
  decidable_of_iff
    (segment ≠ "" ∧ segment ≠ "." ∧ segment ≠ ".." ∧ separator ∉ segment.toList)
    ⟨fun ⟨filled, not_here, not_above, closed⟩ => ⟨filled, not_here, not_above, closed⟩,
      fun name => ⟨name.filled, name.not_here, name.not_above, name.closed⟩⟩

/-- A path that writes names, each after a separator. -/
def Canonical (path : String) : Prop :=
  ∃ names : List String, (∀ name ∈ names, IsName name) ∧ path = ofNames names

/-- The segments of a path that are not empty. -/
def names (path : String) : List String :=
  (segments path).filter fun segment => decide (segment ≠ "")

/-! ### Walking leaves names -/

/-- Following a segment puts nothing on a trail but names. -/
theorem isName_of_follow {trail : List String} {segment : String}
    (closed : separator ∉ segment.toList) (names : ∀ name ∈ trail, IsName name) :
    ∀ name ∈ follow trail segment, IsName name := by
  intro name found
  rw [follow] at found
  split at found
  · exact names name found
  · next real =>
    rw [not_or] at real
    split at found
    · exact names name (List.mem_of_mem_drop found)
    · next not_above =>
      rcases List.mem_cons.mp found with rfl | earlier
      · exact ⟨real.1, real.2, not_above, closed⟩
      · exact names name earlier

theorem isName_of_trail {segments : List String}
    (closed : ∀ segment ∈ segments, separator ∉ segment.toList) :
    ∀ name ∈ trail segments, IsName name := by
  suffices walked : ∀ start : List String, (∀ name ∈ start, IsName name) →
      ∀ name ∈ segments.foldl follow start, IsName name by
    intro name found
    exact walked [] (List.forall_mem_nil _) name (List.mem_reverse.mp found)
  induction segments with
  | nil => exact fun _ names => names
  | cons segment segments ih =>
    intro start names
    rw [List.forall_mem_cons] at closed
    exact ih closed.2 (follow start segment) (isName_of_follow closed.1 names)

theorem closed_of_mem_segments {path segment : String} (found : segment ∈ segments path) :
    separator ∉ segment.toList :=
  Text.separator_not_mem_of_mem_splitOn found

theorem canonical_canonicalize (path : String) : Canonical (canonicalize path) :=
  ⟨_, isName_of_trail fun _ found => closed_of_mem_segments found, rfl⟩

theorem canonical_root : Canonical root :=
  ⟨[], List.forall_mem_nil _, rfl⟩

theorem canonical_resolve (base relative : String) : Canonical (resolve base relative) := by
  rw [resolve]
  split
  · exact canonical_canonicalize _
  · exact canonical_canonicalize _

theorem canonical_of_parent? {path above : String} (found : parent? path = some above) :
    Canonical above := by
  rw [parent?] at found
  split at found
  · next last first further pieces =>
    split at found
    · cases found
    · cases found
      refine ⟨_, isName_of_trail fun segment inside => ?_, rfl⟩
      have among : segment ∈ (segments path).reverse := by
        rw [pieces]
        exact List.mem_cons_of_mem _ (List.mem_reverse.mp inside)
      exact closed_of_mem_segments (List.mem_reverse.mp among)
  · cases found

/-! ### Names are read back -/

theorem toList_ofNames {names : List String} (some_name : names ≠ []) :
    (ofNames names).toList = names.flatMap fun name => separator :: name.toList := by
  cases names with
  | nil => exact absurd rfl some_name
  | cons name names => rw [ofNames, String.toList_ofList]

/-- A path of names joins them behind an empty segment. -/
theorem ofNames_eq_intercalate {names : List String} (some_name : names ≠ []) :
    ofNames names = (String.singleton separator).intercalate ("" :: names) := by
  apply String.toList_injective
  rw [toList_ofNames some_name, String.toList_intercalate, String.toList_singleton, List.map_cons,
    Text.intercalate_cons, List.flatMap_map]
  rfl

theorem segments_ofNames {names : List String} (proper : ∀ name ∈ names, IsName name)
    (some_name : names ≠ []) : segments (ofNames names) = "" :: names := by
  rw [segments, ofNames_eq_intercalate some_name]
  apply Text.splitOn_intercalate (List.cons_ne_nil _ _)
  rw [List.forall_mem_cons]
  exact ⟨by decide, fun name found => (proper name found).closed⟩

theorem segments_root : segments root = ["", ""] := by
  decide

theorem names_root : names root = [] := by
  decide

/-- **The names that a path was written from are read off it.** -/
theorem names_ofNames {names : List String} (proper : ∀ name ∈ names, IsName name) :
    Path.names (ofNames names) = names := by
  by_cases nothing : names = []
  · rw [nothing, ofNames, names_root]
  · rw [Path.names, segments_ofNames proper nothing, List.filter_cons_of_neg (by simp)]
    refine List.filter_eq_self.mpr fun name found => ?_
    exact decide_eq_true (proper name found).filled

namespace Canonical

variable {path : String}

theorem isName (canonical : Canonical path) : ∀ name ∈ names path, IsName name := by
  obtain ⟨written, proper, rfl⟩ := canonical
  rwa [names_ofNames proper]

theorem ofNames_names (canonical : Canonical path) : ofNames (names path) = path := by
  obtain ⟨written, proper, rfl⟩ := canonical
  rw [names_ofNames proper]

theorem names_inj {above : String} (canonical : Canonical path)
    (canonical_above : Canonical above) : names path = names above ↔ path = above := by
  constructor
  · intro same
    rw [← canonical.ofNames_names, same, canonical_above.ofNames_names]
  · exact congrArg names

theorem names_eq_nil_iff (canonical : Canonical path) : names path = [] ↔ path = root := by
  constructor
  · intro nothing
    rw [← canonical.ofNames_names, nothing, ofNames]
  · rintro rfl
    exact names_root

theorem segments_eq (canonical : Canonical path) (below_root : path ≠ root) :
    segments path = "" :: names path := by
  have some_name : names path ≠ [] := mt canonical.names_eq_nil_iff.mp below_root
  conv_lhs => rw [← canonical.ofNames_names]
  exact segments_ofNames canonical.isName some_name

/-! ### Where a path ends -/

/-- Every canonical path starts with a separator. -/
theorem exists_toList_eq (canonical : Canonical path) :
    ∃ rest, path.toList = separator :: rest := by
  obtain ⟨written, _, rfl⟩ := canonical
  cases written with
  | nil => exact ⟨[], by decide⟩
  | cons name names =>
    rw [toList_ofNames (List.cons_ne_nil _ _), List.flatMap_cons, List.cons_append]
    exact ⟨_, rfl⟩

theorem ne_empty (canonical : Canonical path) : path ≠ "" := by
  obtain ⟨rest, written⟩ := canonical.exists_toList_eq
  rintro rfl
  cases written

/-- The root is the only canonical path with a separator at its end. -/
theorem endsOpen_iff (canonical : Canonical path) : endsOpen path = true ↔ path = root := by
  constructor
  · intro ends_open
    by_contra below_root
    have some_name : names path ≠ [] := mt canonical.names_eq_nil_iff.mp below_root
    obtain ⟨first, last, parted⟩ := (List.eq_nil_or_concat' (names path)).resolve_left some_name
    have proper : IsName last := by
      apply canonical.isName last
      rw [parted]
      exact List.mem_append_right _ List.mem_cons_self
    have letters : last.toList ≠ [] := mt String.toList_eq_nil_iff.mp proper.filled
    rw [endsOpen, beq_iff_eq, ← canonical.ofNames_names, toList_ofNames some_name, parted,
      List.flatMap_append, List.flatMap_singleton,
      List.getLast?_append_of_ne_nil _ (List.cons_ne_nil _ _),
      List.getLast?_cons_of_ne_nil letters] at ends_open
    exact proper.closed (List.mem_of_getLast? ends_open)
  · rintro rfl
    decide

end Canonical

/-! ### Going on behind a path -/

/-- A path starts with another one, and what remains begins a new segment. -/
def GoesOnBehind (path above : String) : Prop :=
  ((remainder? path above).filter startsAtRoot).isSome = true

theorem goesOnBehind_iff {path above : String} : GoesOnBehind path above ↔
    ∃ rest, path.toList = above.toList ++ rest ∧
      (endsOpen above = true ∨ rest.head? = some separator) := by
  rw [GoesOnBehind, Option.isSome_filter, Option.any_eq_true]
  constructor
  · rintro ⟨remainder, found, opens⟩
    obtain ⟨rest, parted, rfl⟩ := Option.map_eq_some_iff.mp found
    refine ⟨rest, (List.isPrefixOf?_eq_some_iff_append_eq.mp parted).symm, ?_⟩
    by_cases ends_open : endsOpen above = true
    · exact .inl ends_open
    · rw [if_neg ends_open, startsAtRoot, String.toList_ofList, beq_iff_eq] at opens
      exact .inr opens
  · rintro ⟨rest, parted, opens⟩
    have found := List.isPrefixOf?_eq_some_iff_append_eq.mpr parted.symm
    refine ⟨_, Option.map_eq_some_iff.mpr ⟨rest, found, rfl⟩, ?_⟩
    rw [startsAtRoot, String.toList_ofList, beq_iff_eq]
    by_cases ends_open : endsOpen above = true
    · rw [if_pos ends_open, List.head?_cons]
    · rw [if_neg ends_open]
      exact opens.resolve_left ends_open

/-- Behind a path that ends within a segment a new one begins with a separator. -/
theorem goesOnBehind_iff_separator {path above : String} (closed : endsOpen above = false) :
    GoesOnBehind path above ↔ ∃ rest, path.toList = above.toList ++ separator :: rest := by
  rw [goesOnBehind_iff, closed]
  constructor
  · rintro ⟨rest, parted, opens⟩
    obtain ⟨further, rfl⟩ := List.head?_eq_some_iff.mp (opens.resolve_left Bool.false_ne_true)
    exact ⟨further, parted⟩
  · rintro ⟨further, parted⟩
    exact ⟨separator :: further, parted, .inr rfl⟩

theorem goesOnBehind_iff_of_closed {path above : String} (closed : endsOpen above = false) :
    GoesOnBehind path above ↔
      segments above <+: segments path ∧ segments above ≠ segments path := by
  rw [goesOnBehind_iff_separator closed, Text.startsPiece_iff]
  rfl

/-- **A canonical path goes on behind another one exactly if it has the names of the other and then
some more, or if both are the root.** -/
theorem Canonical.goesOnBehind_iff {path above : String} (canonical : Canonical path)
    (canonical_above : Canonical above) :
    GoesOnBehind path above ↔
      (names above <+: names path ∧ names above ≠ names path) ∨ (above = root ∧ path = root) := by
  by_cases at_root : above = root
  case pos =>
    -- The root ends with the separator that every canonical path starts with.
    subst at_root
    obtain ⟨rest, written⟩ := canonical.exists_toList_eq
    have behind : GoesOnBehind path root :=
      Path.goesOnBehind_iff.mpr ⟨rest, written, .inl (by decide)⟩
    rw [iff_true_left behind, names_root, ne_comm, Ne, canonical.names_eq_nil_iff]
    by_cases same : path = root
    · exact .inr ⟨rfl, same⟩
    · exact .inl ⟨List.nil_prefix, same⟩
  case neg =>
    have closed : endsOpen above = false :=
      Bool.eq_false_iff.mpr (mt canonical_above.endsOpen_iff.mp at_root)
    rw [goesOnBehind_iff_of_closed closed, canonical_above.segments_eq at_root]
    have some_name : names above ≠ [] := mt canonical_above.names_eq_nil_iff.mp at_root
    by_cases below : path = root
    · subst below
      have nothing : ¬ names above <+: names root := by
        rw [names_root, List.prefix_nil]
        exact some_name
      have not_empty : ¬ names above <+: [""] := by
        rw [List.prefix_cons_iff]
        rintro (none_there | ⟨_, written, _⟩)
        · exact some_name none_there
        · exact (canonical_above.isName "" (written ▸ List.mem_cons_self)).filled rfl
      simp [segments_root, nothing, not_empty, at_root]
    · simp [canonical.segments_eq below, at_root]

/-!
## Walking on from a place

What a walk leaves behind a place depends on the names of the place and not on the way there
(`trailFrom_append`).  Names lead down from any place (`trailFrom_names`), so the walk along a
canonical path ends at its names, and the canonical paths are those that stand for themselves
(`canonicalize_eq_self_iff`).

Hence a path may be brought into canonical form before one goes on behind it or after, with the same
outcome (`canonicalize_behind_canonicalize`), and resolving two texts one after the other comes to
resolving the second behind the first (`resolve_resolve`).
-/

/-- The names left after following segments from a place, the outermost first. -/
def trailFrom (place segments : List String) : List String :=
  (segments.foldl follow place.reverse).reverse

/-! ### Following segments -/

theorem trail_eq_trailFrom (segments : List String) : trail segments = trailFrom [] segments :=
  rfl

/-- A walk goes on where its first part ended. -/
theorem trailFrom_append (place first second : List String) :
    trailFrom place (first ++ second) = trailFrom (trailFrom place first) second := by
  rw [trailFrom, List.foldl_append, trailFrom, trailFrom, List.reverse_reverse]

theorem trail_append (first second : List String) :
    trail (first ++ second) = trailFrom (trail first) second :=
  trailFrom_append [] first second

/-- An empty segment leads nowhere. -/
theorem trail_cons_empty (segments : List String) : trail ("" :: segments) = trail segments :=
  rfl

theorem follow_of_isName {name : String} (proper : IsName name) (trail : List String) :
    follow trail name = name :: trail := by
  rw [follow, if_neg (not_or.mpr ⟨proper.filled, proper.not_here⟩), if_neg proper.not_above]

/-- **Names lead down from any place.** -/
theorem trailFrom_names {names : List String} (proper : ∀ name ∈ names, IsName name)
    (place : List String) : trailFrom place names = place ++ names := by
  induction names generalizing place with
  | nil => rw [trailFrom, List.foldl_nil, List.reverse_reverse, List.append_nil]
  | cons name names ih =>
    rw [List.forall_mem_cons] at proper
    have one_down : trailFrom place [name] = place ++ [name] := by
      rw [trailFrom, List.foldl_cons, List.foldl_nil, follow_of_isName proper.1, List.reverse_cons,
        List.reverse_reverse]
    rw [← List.singleton_append, trailFrom_append, one_down, ih proper.2, List.append_assoc]

/-! ### Paths that stand for themselves -/

/-- A canonical path is the root, or writes one name or more, each after a separator. -/
theorem canonical_iff {path : String} : Canonical path ↔ path = root ∨
    ∃ names : List String, names ≠ [] ∧ (∀ name ∈ names, IsName name) ∧
      path.toList = names.flatMap fun name => separator :: name.toList := by
  constructor
  · rintro ⟨names, proper, rfl⟩
    by_cases nothing : names = []
    · left
      rw [nothing, ofNames]
    · exact .inr ⟨names, nothing, proper, toList_ofNames nothing⟩
  · rintro (rfl | ⟨names, some_name, proper, written⟩)
    · exact ⟨[], List.forall_mem_nil _, rfl⟩
    · refine ⟨names, proper, String.toList_injective ?_⟩
      rw [written, toList_ofNames some_name]

/-- The walk along a canonical path ends at its names. -/
theorem Canonical.trail_segments {path : String} (canonical : Canonical path) :
    trail (segments path) = names path := by
  by_cases at_root : path = root
  · rw [at_root, segments_root, names_root]
    decide
  · rw [canonical.segments_eq at_root, trail_cons_empty, trail_eq_trailFrom,
      trailFrom_names canonical.isName, List.nil_append]

theorem Canonical.canonicalize_eq {path : String} (canonical : Canonical path) :
    canonicalize path = path := by
  rw [canonicalize, canonical.trail_segments, canonical.ofNames_names]

/-- **The canonical paths are those that stand for themselves.** -/
theorem canonicalize_eq_self_iff {path : String} : canonicalize path = path ↔ Canonical path := by
  constructor
  · intro same
    rw [← same]
    exact canonical_canonicalize path
  · exact Canonical.canonicalize_eq

instance (path : String) : Decidable (Canonical path) :=
  decidable_of_iff _ canonicalize_eq_self_iff

theorem names_canonicalize (path : String) : names (canonicalize path) = trail (segments path) :=
  names_ofNames (isName_of_trail fun _ found => closed_of_mem_segments found)

/-! ### Canonical forms behind a path -/

/-- The pieces of two texts around a separator are those of the first and then those of the
second. -/
theorem segments_opened_append (path further : String) :
    segments (opened path ++ further) = segments path ++ segments further := by
  have around : opened path ++ further =
      String.ofList (path.toList ++ separator :: further.toList) := by
    apply String.toList_injective
    rw [String.toList_append, toList_opened, String.toList_ofList, List.append_assoc,
      List.singleton_append]
  rw [around, segments, Text.splitOn_around, String.ofList_toList, String.ofList_toList]
  rfl

/-- The walk behind a path starts at the end of the walk along it. -/
theorem canonicalize_opened_append (path further : String) :
    canonicalize (opened path ++ further) =
      ofNames (trailFrom (trail (segments path)) (segments further)) := by
  rw [canonicalize, segments_opened_append, trail_append]

/-- **A path may be brought into canonical form before one goes on behind it.** -/
theorem canonicalize_behind_canonicalize (path further : String) :
    canonicalize (opened (canonicalize path) ++ further) =
      canonicalize (opened path ++ further) := by
  rw [canonicalize_opened_append, canonicalize_opened_append,
    (canonical_canonicalize path).trail_segments, names_canonicalize]

/-! ### Resolving one text after another -/

theorem resolve_of_relative {relative : String} (not_absolute : startsAtRoot relative = false)
    (base : String) : resolve base relative = canonicalize (opened base ++ relative) := by
  rw [resolve, not_absolute]
  rfl

/-- The names that a text leads to from a canonical path. -/
theorem Canonical.names_resolve {path relative : String} (canonical : Canonical path)
    (not_absolute : startsAtRoot relative = false) :
    names (resolve path relative) = trailFrom (names path) (segments relative) := by
  rw [resolve_of_relative not_absolute, names_canonicalize, segments_opened_append, trail_append,
    canonical.trail_segments]

/-- A text that goes on behind another one is absolute if the first one is. -/
theorem startsAtRoot_opened_append {first : String} (filled : first ≠ "") (second : String) :
    startsAtRoot (opened first ++ second) = startsAtRoot first := by
  obtain ⟨letter, letters, written⟩ :=
    List.exists_cons_of_ne_nil (mt String.toList_eq_nil_iff.mp filled)
  rw [startsAtRoot, startsAtRoot, String.toList_append, toList_opened, written]
  rfl

/-- **Resolving two texts one after the other comes to resolving the second behind the first.** -/
theorem resolve_resolve {first second : String} (filled : first ≠ "")
    (not_absolute : startsAtRoot second = false) (base : String) :
    resolve (resolve base first) second = resolve base (opened first ++ second) := by
  rw [resolve_of_relative not_absolute]
  by_cases absolute : startsAtRoot first = true
  · have whole : startsAtRoot (opened first ++ second) = true := by
      rwa [startsAtRoot_opened_append filled]
    rw [resolve, if_pos absolute, resolve, if_pos whole, canonicalize_behind_canonicalize]
  · rw [Bool.not_eq_true] at absolute
    have whole : startsAtRoot (opened first ++ second) = false := by
      rwa [startsAtRoot_opened_append filled]
    have joined : opened (opened base ++ first) ++ second =
        opened base ++ (opened first ++ second) := by
      apply String.toList_injective
      simp only [String.toList_append, toList_opened, List.append_assoc]
    rw [resolve_of_relative absolute, resolve_of_relative whole, canonicalize_behind_canonicalize,
      joined]

end Mounts.Path

import Mounts.Location
import Mounts.Proofs.Path.Canonical
import Mounts.Proofs.Path.Climbing
import Mounts.Proofs.Spec.Built
import Mounts.Registry

/-!
# Locations

However a location was made or derived, its path is canonical.  So the relations between locations
on one instance come down to the names of their paths: which lies above which (`isAbove_iff`), where
texts lead from one of them (`normal_form_composes`, `text_stays_below`), how one is named relative
to another (`relative_paths_lead_back`), and how it is taken apart (`location_taken_apart`).
-/

namespace Mounts.Location

set_option autoImplicit false

/-!
## Above and below

However a location was made or derived, its path is canonical (`Made.canonical`).  So a location
lies above the locations on the same instance whose paths have its names and then some more, and
above no others but one: the top of a tree lies above itself (`isAbove_iff`).

The exception comes from the separator at the end of the root, which is left at the start of what
follows it, and so is taken for the beginning of a segment even if nothing comes after.
-/

section

/-- Locations that were made or derived, whatever the pools were like at the time. -/
inductive Made (D : Type) [Directory D] : Location → Prop
  /-- The location of a path on a spec. -/
  | ofSpec (pool : Pool D) (spec : Spec) (path : String) : Made D (ofSpec pool spec path).1
  /-- The location of a path on a shared spec. -/
  | ofRef (pool : Pool D) (ref : Ref) (path : String) : Made D (ofRef pool ref path).1
  /-- A location that a text names from another one. -/
  | resolve {location : Location} (made : Made D location) (pool : Pool D) (relative : String) :
      Made D (location.resolve pool relative).1
  /-- The location of the enclosing directory. -/
  | parent {location above : Location} {pool after : Pool D} (made : Made D location)
      (found : location.parent? pool = some (above, after)) : Made D above

/-- A location lies strictly below another one: on the same instance, and with the names of the
other and then some more. -/
def Below (location above : Location) : Prop :=
  above.ref = location.ref ∧ Path.names above.path <+: Path.names location.path ∧
    Path.names above.path ≠ Path.names location.path

instance (location above : Location) : Decidable (Below location above) :=
  inferInstanceAs (Decidable (_ ∧ _ ∧ _))

variable {D : Type} [Directory D]

/-- **The path of every location is canonical.** -/
theorem Made.canonical {location : Location} (made : Made D location) :
    Path.Canonical location.path := by
  cases made with
  | ofSpec pool spec path => exact Path.canonical_canonicalize path
  | ofRef pool ref path => exact Path.canonical_canonicalize path
  | resolve made pool relative => exact Path.canonical_resolve _ relative
  | parent made found =>
    obtain ⟨path, enclosing, same⟩ := Option.map_eq_some_iff.mp found
    cases same
    exact Path.canonical_of_parent? enclosing

/-- A location lies above those on the same instance whose paths go on behind its own. -/
theorem isAbove_iff_goesOnBehind {above below : Location} :
    above.isAbove below = true ↔
      above.ref = below.ref ∧ Path.GoesOnBehind below.path above.path := by
  rw [isAbove, remainder?]
  split
  · next same => exact (and_iff_right same).symm
  · next apart => simp [apart]

/-- **A location lies above those strictly below it, and the top of a tree above itself.** -/
theorem isAbove_iff {above below : Location} (made_above : Made D above)
    (made_below : Made D below) :
    above.isAbove below = true ↔ Below below above ∨ (above = below ∧ above.path = Path.root) := by
  rw [isAbove_iff_goesOnBehind, made_below.canonical.goesOnBehind_iff made_above.canonical, Below,
    and_or_left]
  refine or_congr_right ?_
  constructor
  · rintro ⟨same, top, below_top⟩
    refine ⟨?_, top⟩
    cases above
    cases below
    rw [mk.injEq]
    exact ⟨same, top.trans below_top.symm⟩
  · rintro ⟨rfl, top⟩
    exact ⟨rfl, top, top⟩

/-- The top of the guest tree. -/
def top : Location :=
  (ofSpec (Pool.empty : Pool Buckets) Spec.guest "/").1

/-- The top of a tree lies above what a name leads to from it. -/
theorem isAbove_iff_upload :
    top.isAbove (top.resolve (Pool.empty : Pool Buckets) "upload").1 = true := by
  have made : Made Buckets top := .ofSpec Pool.empty Spec.guest "/"
  have below : Below (top.resolve (Pool.empty : Pool Buckets) "upload").1 top := by decide +kernel
  exact (isAbove_iff made (made.resolve Pool.empty "upload")).mpr (.inl below)

/-- The top of a tree lies above itself, though not strictly below itself. -/
theorem top_isAbove_itself :
    Made Buckets top ∧ top.isAbove top = true ∧ ¬ Below top top := by
  refine ⟨.ofSpec Pool.empty Spec.guest "/", ?_, ?_⟩
  · decide +kernel
  · rintro ⟨_, _, apart⟩
    exact apart rfl

end

/-!
## Resolving texts

A location keeps its path in canonical form.  A text that is brought into this form twice stays what
it became, and so does one that is brought into it before more is written behind.  Hence a location
may be reached in one go or step by step, unless the first text is empty or the second is absolute
(`normal_form_composes`).
-/

section

variable {D : Type}

/-- **The canonical form is a normal form, and walks in canonical form compose.** -/
theorem normal_form_composes :
    (∀ path, Path.Canonical path ↔ path = Path.root ∨
      ∃ names : List String, names ≠ [] ∧ (∀ name ∈ names, Path.IsName name) ∧
        path.toList = names.flatMap fun name => Path.separator :: name.toList) ∧
    (∀ path, Path.Canonical (Path.canonicalize path) ∧
      (Path.canonicalize path = path ↔ Path.Canonical path) ∧
      Path.canonicalize (Path.canonicalize path) = Path.canonicalize path) ∧
    (∀ path further, Path.canonicalize (Path.opened (Path.canonicalize path) ++ further) =
      Path.canonicalize (Path.opened path ++ further)) ∧
    ∀ (location : Location) (first second : String), first ≠ "" →
      Path.startsAtRoot second = false → ∀ before between instead : Pool D,
        ((location.resolve before first).1.resolve between second).1 =
          (location.resolve instead (Path.opened first ++ second)).1 := by
  refine ⟨fun path => Path.canonical_iff, fun path => ?form, ?behind, ?steps⟩
  case form =>
    have canonical := Path.canonical_canonicalize path
    exact ⟨canonical, Path.canonicalize_eq_self_iff, canonical.canonicalize_eq⟩
  case behind =>
    exact Path.canonicalize_behind_canonicalize
  case steps =>
    intro location first second filled not_absolute before between instead
    exact congrArg (mk location.ref) (Path.resolve_resolve filled not_absolute location.path)

/-- A name and its way back do not count, whether they are resolved first or along with what
follows. -/
theorem normal_form_composes_upload :
    ((top.resolve (Pool.empty : Pool Buckets) "pub/..").1.resolve (Pool.empty : Pool Buckets)
      "upload").1 = ⟨top.ref, "/upload"⟩ := by
  obtain ⟨_, _, _, steps⟩ := normal_form_composes (D := Buckets)
  have together := steps top "pub/.." "upload" (by decide) (by decide) .empty .empty .empty
  have reached : (top.resolve (Pool.empty : Pool Buckets) "pub/../upload").1 =
      ⟨top.ref, "/upload"⟩ := by
    decide +kernel
  exact together.trans reached

end

/-!
## Locations in terms of one another

A location can be named relative to another one on its instance.  Resolving the relative path leads
back to the location, and names that were resolved from a location are the relative path of what
they led to (`relative_paths_lead_back`).

A location below the top of a tree is an entry of its enclosing directory, under its own last name.
Going from directory to enclosing directory leads through as many places as there are names, and
ends at the top (`location_taken_apart`).

A text stays below every location from which it is resolved exactly if its ways up never outnumber
the names before them (`text_stays_below`).
-/

variable {D : Type} {location : Location}

/-! ### Relative paths -/

theorem relativePath?_eq_some_iff {above below : Location} {rest : String} :
    above.relativePath? below = some rest ↔
      above.ref = below.ref ∧ Path.relative? below.path above.path = some rest := by
  rw [relativePath?, remainder?]
  split
  · next same => exact (and_iff_right same).symm
  · next apart => simp [apart]

/-- **Relative paths and resolving are inverse to each other**, whatever the pools are. -/
theorem relative_paths_lead_back [Directory D] :
    (∀ above below : Location, Made D above → Made D below → ∀ rest,
      above.relativePath? below = some rest →
        ∀ pool : Pool D, (above.resolve pool rest).1 = below) ∧
    ∀ location : Location, Made D location → ∀ entries : List String, entries ≠ [] →
      (∀ name ∈ entries, Path.IsName name) → ∀ pool : Pool D,
        location.relativePath? (location.resolve pool (Path.joined entries)).1 =
          some (Path.joined entries) := by
  refine ⟨?back, ?forth⟩
  case back =>
    intro above below made_above made_below rest found pool
    obtain ⟨same, relative⟩ := relativePath?_eq_some_iff.mp found
    have led := made_below.canonical.resolve_of_relative? made_above.canonical relative
    cases below
    exact congrArg₂ mk same led
  case forth =>
    intro location made entries some_name proper pool
    exact relativePath?_eq_some_iff.mpr
      ⟨rfl, made.canonical.relative?_resolve_joined proper some_name⟩

/-- Two names lead down from the top of the guest tree, and where they lead has them as its path
relative to the top. -/
theorem relative_paths_lead_back_upload :
    (top.resolve (Pool.empty : Pool Buckets) "upload/new").1 = ⟨top.ref, "/upload/new"⟩ ∧
      top.relativePath? ⟨top.ref, "/upload/new"⟩ = some "upload/new" := by
  obtain ⟨back, forth⟩ := relative_paths_lead_back (D := Buckets)
  have made : Made Buckets top := .ofSpec Pool.empty Spec.guest "/"
  have reached : (top.resolve (Pool.empty : Pool Buckets) "upload/new").1 =
      ⟨top.ref, "/upload/new"⟩ := by decide +kernel
  have made_below := made.resolve Pool.empty "upload/new"
  have found := forth top made ["upload", "new"] (List.cons_ne_nil _ _) (by decide) Pool.empty
  have text : Path.joined ["upload", "new"] = "upload/new" := by decide
  rw [text] at found
  rw [reached] at found made_below
  exact ⟨back top ⟨top.ref, "/upload/new"⟩ made made_below "upload/new" found Pool.empty, found⟩

/-! ### Enclosing directories -/

/-- The location after going to the enclosing directory a number of times, with the pool in which
it holds a handle, if there is one. -/
def ancestor? (pool : Pool D) (location : Location) : Nat → Option (Location × Pool D)
  | 0 => some (location, pool)
  | steps + 1 => (ancestor? pool location steps).bind fun reached => reached.1.parent? reached.2

theorem parent?_eq_some_iff {above : Location} {pool after : Pool D} :
    location.parent? pool = some (above, after) ↔
      Path.parent? location.path = some above.path ∧ above.ref = location.ref ∧
        after = pool.acquire location.ref := by
  rw [parent?, Option.map_eq_some_iff]
  constructor
  · rintro ⟨path, found, same⟩
    cases same
    exact ⟨found, rfl, rfl⟩
  · rintro ⟨found, same, rfl⟩
    refine ⟨above.path, found, ?_⟩
    rw [← same]

theorem parent?_eq_none_iff (canonical : Path.Canonical location.path) (pool : Pool D) :
    location.parent? pool = none ↔ location.path = Path.root := by
  rw [parent?, Option.map_eq_none_iff, canonical.parent?_eq_none_iff]

/-- A location below the top of a tree is an entry of its enclosing directory. -/
theorem exists_parent (canonical : Path.Canonical location.path)
    (below_root : location.path ≠ Path.root) (pool : Pool D) : ∃ above : Location,
      location.parent? pool = some (above, pool.acquire location.ref) ∧
      above.ref = location.ref ∧
      Path.names location.path = Path.names above.path ++ [location.basename] ∧
      (∀ between : Pool D, (above.resolve between location.basename).1 = location) ∧
      above.relativePath? location = some location.basename ∧
      (location.resolve pool "..").1 = above := by
  cases location with
  | mk ref path =>
    obtain ⟨above, name, canonical_above, proper, rfl⟩ := canonical.exists_child below_root
    have last : basename ⟨ref, Path.child above name⟩ = name :=
      Path.basename_child canonical_above proper
    rw [last]
    refine ⟨⟨ref, above⟩, ?parent, rfl, ?names, fun between => ?entry, ?relative, ?up⟩
    case parent =>
      exact parent?_eq_some_iff.mpr ⟨Path.parent?_child canonical_above proper, rfl, rfl⟩
    case names =>
      exact canonical_above.names_child proper
    case entry =>
      exact congrArg (mk ref) (Path.resolve_child canonical_above proper)
    case relative =>
      exact relativePath?_eq_some_iff.mpr ⟨rfl, canonical_above.relative?_eq_some_iff.mpr rfl⟩
    case up =>
      exact congrArg (mk ref) (Path.resolve_up_child canonical_above proper)

/-- Every time one goes to the enclosing directory the last of the names that are left goes. -/
theorem exists_ancestor (canonical : Path.Canonical location.path) (pool : Pool D)
    {above below : List String} (parted : Path.names location.path = above ++ below) :
    ∃ after, location.ancestor? pool below.length =
      some (⟨location.ref, Path.ofNames above⟩, after) := by
  induction below generalizing above with
  | nil =>
    rw [List.append_nil] at parted
    refine ⟨pool, ?_⟩
    rw [← parted, canonical.ofNames_names]
    rfl
  | cons name below ih =>
    rw [← List.singleton_append, ← List.append_assoc] at parted
    obtain ⟨after, reached⟩ := ih parted
    have proper : ∀ each ∈ above ++ [name], Path.IsName each := fun each found =>
      canonical.isName each (parted ▸ List.mem_append_left below found)
    refine ⟨after.acquire location.ref, ?_⟩
    rw [List.length_cons, ancestor?, reached, Option.bind_some, parent?_eq_some_iff]
    exact ⟨Path.parent?_ofNames_concat proper, rfl, rfl⟩

/-- Going to the enclosing directory leads on as many times as there are names, to the top the last
time and not before. -/
theorem exists_ancestor_of_le (canonical : Path.Canonical location.path) (pool : Pool D)
    {steps : Nat} (within : steps ≤ (Path.names location.path).length) : ∃ reached after,
      location.ancestor? pool steps = some (reached, after) ∧
      reached.ref = location.ref ∧
      (reached.path = Path.root ↔ steps = (Path.names location.path).length) ∧
      (reached.parent? after = none ↔ steps = (Path.names location.path).length) := by
  obtain ⟨left, parted⟩ : ∃ left, (Path.names location.path).length = left + steps :=
    ⟨_, (Nat.sub_add_cancel within).symm⟩
  have above_names : ∀ name ∈ (Path.names location.path).take left, Path.IsName name :=
    fun name found => canonical.isName name (List.mem_of_mem_take found)
  have canonical_above : Path.Canonical (Path.ofNames ((Path.names location.path).take left)) :=
    ⟨_, above_names, rfl⟩
  have size : ((Path.names location.path).drop left).length = steps := by
    rw [List.length_drop, parted, Nat.add_sub_cancel_left]
  have top_iff : Path.ofNames ((Path.names location.path).take left) = Path.root ↔
      steps = (Path.names location.path).length := by
    rw [← canonical_above.names_eq_nil_iff, Path.names_ofNames above_names,
      ← List.length_eq_zero_iff, List.length_take, parted]
    omega
  obtain ⟨after, reached⟩ := exists_ancestor canonical pool
    (List.take_append_drop left (Path.names location.path)).symm
  rw [size] at reached
  exact ⟨_, after, reached, rfl, top_iff,
    (parent?_eq_none_iff canonical_above after).trans top_iff⟩

/-- There is no directory above the top of a tree, however often one goes up. -/
theorem ancestor?_eq_none {steps : Nat} (canonical : Path.Canonical location.path)
    (pool : Pool D) (beyond : (Path.names location.path).length < steps) :
    location.ancestor? pool steps = none := by
  induction beyond with
  | refl =>
    obtain ⟨after, reached⟩ := exists_ancestor canonical pool (List.nil_append _).symm
    rw [Nat.succ_eq_add_one, ancestor?, reached, Option.bind_some,
      parent?_eq_none_iff Path.canonical_root]
    rfl
  | step _ ih => rw [Nat.succ_eq_add_one, ancestor?, ih, Option.bind_none]

/-- **A location is an entry of its enclosing directory, and the directories above it end at the
top.** -/
theorem location_taken_apart [Directory D] (made : Made D location) (pool : Pool D) :
    (location.path ≠ Path.root → ∃ above : Location,
      location.parent? pool = some (above, pool.acquire location.ref) ∧
      above.ref = location.ref ∧
      Path.names location.path = Path.names above.path ++ [location.basename] ∧
      (∀ between : Pool D, (above.resolve between location.basename).1 = location) ∧
      above.relativePath? location = some location.basename ∧
      (location.resolve pool "..").1 = above) ∧
    (location.path = Path.root →
      location.parent? pool = none ∧ (location.resolve pool "..").1 = location) ∧
    ∀ steps, (steps ≤ (Path.names location.path).length → ∃ reached after,
        location.ancestor? pool steps = some (reached, after) ∧
        reached.ref = location.ref ∧
        (reached.path = Path.root ↔ steps = (Path.names location.path).length) ∧
        (reached.parent? after = none ↔ steps = (Path.names location.path).length)) ∧
      ((Path.names location.path).length < steps → location.ancestor? pool steps = none) := by
  have canonical := made.canonical
  refine ⟨fun below_root => exists_parent canonical below_root pool, fun at_root => ⟨?none, ?up⟩,
    fun steps => ⟨exists_ancestor_of_le canonical pool, ancestor?_eq_none canonical pool⟩⟩
  case none =>
    exact (parent?_eq_none_iff canonical pool).mpr at_root
  case up =>
    cases location with
    | mk ref path =>
      subst at_root
      exact congrArg (mk ref) Path.resolve_up_root

/-- A location two names deep. -/
def newUpload : Location :=
  (top.resolve (Pool.empty : Pool Buckets) "upload/new").1

/-- The location two names deep is an entry of one that is one name deep, and after going up twice
one is at the top. -/
theorem location_taken_apart_upload :
    newUpload.path ≠ Path.root ∧ (Path.names newUpload.path).length = 2 ∧
      (∃ above after, newUpload.parent? (Pool.empty : Pool Buckets) = some (above, after) ∧
        (above.resolve (Pool.empty : Pool Buckets) "new").1 = newUpload ∧
        above.relativePath? newUpload = some "new" ∧
        (newUpload.resolve (Pool.empty : Pool Buckets) "..").1 = above) ∧
      ∃ reached after, newUpload.ancestor? (Pool.empty : Pool Buckets) 2 = some (reached, after) ∧
        reached.path = Path.root ∧ reached.parent? after = none := by
  have made : Made Buckets newUpload :=
    .resolve (.ofSpec Pool.empty Spec.guest "/") Pool.empty "upload/new"
  have path : newUpload.path = "/upload/new" := by decide +kernel
  have last : newUpload.basename = "new" := by decide +kernel
  have below_root : newUpload.path ≠ Path.root := by
    rw [path]
    decide
  have deep : (Path.names newUpload.path).length = 2 := by
    rw [path]
    decide
  obtain ⟨entry, _, climb⟩ := location_taken_apart made (Pool.empty : Pool Buckets)
  obtain ⟨above, found, _, _, led_back, relative, up⟩ := entry below_root
  rw [last] at led_back relative
  obtain ⟨reached, after, led_up, _, at_top, ends⟩ := (climb 2).1 (Nat.le_of_eq deep.symm)
  exact ⟨below_root, deep, ⟨above, _, found, led_back _, relative, up⟩,
    reached, after, led_up, at_top.mpr deep.symm, ends.mpr deep.symm⟩

/-! ### Texts that stay below -/

/-- **A text stays below every location from which it is resolved exactly if its ways up never
outnumber the names before them.**  What it adds then is the same everywhere. -/
theorem text_stays_below [Directory D] (relative : String)
    (not_absolute : Path.startsAtRoot relative = false) :
    (Path.StaysWithin 0 (Path.segments relative) →
      ∀ location, Made D location → ∀ pool : Pool D,
        Path.liesUnder (location.resolve pool relative).1.path (some location.path) = true ∧
        Path.names (location.resolve pool relative).1.path =
          Path.names location.path ++ Path.names (Path.canonicalize relative)) ∧
    (¬ Path.StaysWithin 0 (Path.segments relative) → ∃ location, Made D location ∧
      ∀ pool : Pool D,
        Path.liesUnder (location.resolve pool relative).1.path (some location.path) = false) := by
  constructor
  · intro stays location made pool
    have added : Path.names (location.resolve pool relative).1.path =
        Path.names location.path ++ Path.names (Path.canonicalize relative) :=
      made.canonical.names_resolve_of_stays not_absolute stays
    have canonical : Path.Canonical (location.resolve pool relative).1.path :=
      Path.canonical_resolve location.path relative
    refine ⟨?_, added⟩
    rw [canonical.liesUnder_iff made.canonical, added]
    exact List.prefix_append _ _
  · intro leaves
    obtain ⟨path, canonical, left⟩ := Path.exists_left not_absolute leaves
    refine ⟨_, .ofSpec (Pool.empty : Pool D) Spec.guest path, fun pool => ?_⟩
    have there : (ofSpec (Pool.empty : Pool D) Spec.guest path).1.path = path :=
      canonical.canonicalize_eq
    change Path.liesUnder (Path.resolve _ relative) _ = false
    rw [there]
    exact left

/-- Names and the ways back from them may be mixed, but one way up too many leaves some location. -/
theorem text_stays_below_mixed :
    (newUpload.resolve (Pool.empty : Pool Buckets) "a/../b/./c").1.path = "/upload/new/b/c" ∧
      Path.liesUnder "/upload/new/b/c" (some "/upload/new") = true ∧
      ∃ location, Made Buckets location ∧ ∀ pool : Pool Buckets,
        Path.liesUnder (location.resolve pool "a/../../b").1.path (some location.path) = false := by
  have made : Made Buckets newUpload :=
    .resolve (.ofSpec Pool.empty Spec.guest "/") Pool.empty "upload/new"
  have path : newUpload.path = "/upload/new" := by decide +kernel
  have reached : (newUpload.resolve (Pool.empty : Pool Buckets) "a/../b/./c").1.path =
      "/upload/new/b/c" := by decide +kernel
  obtain ⟨below, _⟩ := (text_stays_below (D := Buckets) "a/../b/./c" (by decide)).1
    (by decide) newUpload made Pool.empty
  rw [reached, path] at below
  exact ⟨reached, below, (text_stays_below "a/../../b" (by decide)).2 (by decide)⟩

end Mounts.Location

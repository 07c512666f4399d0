import Mounts.Proofs.Path.Nesting
import Mounts.Proofs.Spec.Built
import Mounts.Proofs.Table.Contents
import Mounts.Registry

/-!
# The mount nearest to a path

Routing answers exactly if some mount serves the request, and the answer is the one with the longest
scope.  Since no two scopes of one size cover the same path, which spec that is does not depend on
the order of mounting, on the pool or on what else happened to the table
(`longest_scope_serves`).

With canonical scopes the longest one is the nearest: the mount that serves an entry of a directory
is the one at the entry itself, or else the one that serves the directory, and the mount that serves
the top of a tree is the one at the top (`nearest_ancestor_serves`).
-/

namespace Mounts.Table

set_option autoImplicit false

variable {D : Type} {pool : Pool D} {table : Table} {query : Spec} {path : String}

/-! ## Requests and contents -/

/-- No mount is answered exactly if none of the contents serves the request. -/
theorem lookup_eq_none_iff_contents : table.lookup pool query path = none ↔
    ∀ spec ∈ table.contents pool, ¬ spec.serves query path = true := by
  rw [lookup_eq_none_iff]
  constructor
  · intro nothing spec listed serves
    obtain ⟨mount, serving⟩ := exists_serving_of_mem listed serves
    exact nothing mount spec serving
  · intro nothing mount spec serving
    exact nothing spec serving.mem_contents serving.serves

/-- Requests that the same specs of the contents serve are routed alike. -/
theorem lookup_of_serves_eq {other : String}
    (alike : ∀ spec ∈ table.contents pool, spec.serves query other = spec.serves query path) :
    table.lookup pool query other = table.lookup pool query path := by
  have chosen : (table.entries pool).filter (fun entry => entry.2.serves query other) =
      (table.entries pool).filter fun entry => entry.2.serves query path := by
    refine List.filter_congr fun entry listed => ?_
    exact alike entry.2 (mem_contents.mpr ⟨entry.1, mem_entries.mp listed⟩)
  rw [lookup, lookup, chosen]

/-! ## The longest scope -/

/-- **Routing finds the longest scope, in whatever order the specs were mounted.** -/
theorem longest_scope_serves (pool : Pool D) (table : Table) (query : Spec) (path : String) :
    ((∃ mount, table.lookup pool query path = some mount) ↔
      ∃ spec ∈ table.contents pool, spec.serves query path = true) ∧
    (∀ mount, table.lookup pool query path = some mount →
      mount ∈ table.mounts ∧ ∃ spec, pool.spec? mount = some spec ∧
        spec.serves query path = true ∧
        ∀ other ∈ table.contents pool, other.serves query path = true →
          other.scope.utf8ByteSize ≤ spec.scope.utf8ByteSize) ∧
    (∀ first ∈ table.contents pool, ∀ second ∈ table.contents pool,
      first.serves query path = true → second.serves query path = true →
        first.scope.utf8ByteSize = second.scope.utf8ByteSize → first = second) ∧
    ∀ {E : Type} (elsewhere : Pool E) (rearranged : Table),
      (∀ spec, spec ∈ rearranged.contents elsewhere ↔ spec ∈ table.contents pool) →
        (rearranged.lookup elsewhere query path).bind elsewhere.spec? =
          (table.lookup pool query path).bind pool.spec? := by
  refine ⟨?exists_iff, ?longest, ?told_apart, ?order⟩
  case exists_iff =>
    rw [← Option.ne_none_iff_exists', Ne, lookup_eq_none_iff_contents]
    push Not
    rfl
  case longest =>
    intro mount answer
    obtain ⟨spec, serving, longest⟩ := lookup_spec answer
    refine ⟨serving.listed, spec, serving.content, serving.serves, fun other listed serves => ?_⟩
    obtain ⟨rival, serving_too⟩ := exists_serving_of_mem listed serves
    exact longest rival other serving_too
  case told_apart =>
    intro first _ second _ one other same
    exact Spec.eq_of_serves one other same
  case order =>
    intro E elsewhere rearranged members
    exact served?_of_mem_iff members query path

/-- The table after mounting specs one after another, with its pool. -/
def mountEach : List Spec → Table × Pool Buckets → Table × Pool Buckets
  | [], state => state
  | spec :: specs, (table, pool) =>
    let (ref, pool) := pool.share spec
    let (_, table, pool) := table.mount pool ref
    mountEach specs (table, pool)

/-- The table with the guest spec and one at the top, mounted in that order. -/
def guestFirst : Table × Pool Buckets :=
  mountEach [Spec.guest, Spec.guest.rescope Path.root] (empty, Pool.empty)

/-- The table with the same specs, mounted in the other order. -/
def guestLast : Table × Pool Buckets :=
  mountEach [Spec.guest.rescope Path.root, Spec.guest] (empty, Pool.empty)

/-- The guest spec answers below its scope, whichever of the two was mounted first. -/
theorem longest_scope_serves_guest :
    (∃ mount, guestFirst.1.lookup guestFirst.2 Spec.guest "/pub/upload" = some mount) ∧
      (guestFirst.1.lookup guestFirst.2 Spec.guest "/pub/upload").bind guestFirst.2.spec? =
        (guestLast.1.lookup guestLast.2 Spec.guest "/pub/upload").bind guestLast.2.spec? := by
  have contents : guestFirst.1.contents guestFirst.2 =
      [Spec.guest, Spec.guest.rescope Path.root] := by decide +kernel
  have contents_too : guestLast.1.contents guestLast.2 =
      [Spec.guest.rescope Path.root, Spec.guest] := by decide +kernel
  obtain ⟨found, _, _, order⟩ :=
    longest_scope_serves guestLast.2 guestLast.1 Spec.guest "/pub/upload"
  obtain ⟨found, _⟩ := longest_scope_serves guestFirst.2 guestFirst.1 Spec.guest "/pub/upload"
  refine ⟨found.mpr ⟨Spec.guest, ?_, by decide⟩, order guestFirst.2 guestFirst.1 fun spec => ?_⟩
  · rw [contents]
    exact List.mem_cons_self
  · rw [contents, contents_too]
    exact (List.Perm.swap _ _ []).mem_iff

/-! ## The nearest ancestor -/

/-- Among canonical scopes, a spec at a canonical path answers there. -/
theorem served?_own (canonical : ∀ spec ∈ table.contents pool, Path.Canonical spec.scope)
    (canonical_path : Path.Canonical path)
    (listed : ⟨query.params, path⟩ ∈ table.contents pool) :
    table.served? pool query path = some ⟨query.params, path⟩ :=
  (answers_served? pool table query path).unique
    (.own listed fun spec there => canonical_path.ne_opened (canonical spec there))

/-- **Without a mount at an entry of a directory, the entry is served as the directory is.** -/
theorem lookup_child (canonical : ∀ spec ∈ table.contents pool, Path.Canonical spec.scope)
    (canonical_path : Path.Canonical path) {name : String} (proper : Path.IsName name)
    (absent : ⟨query.params, Path.child path name⟩ ∉ table.contents pool) :
    table.lookup pool query (Path.child path name) = table.lookup pool query path := by
  refine lookup_of_serves_eq fun spec listed => ?_
  rw [Bool.eq_iff_iff, Spec.serves_iff, Spec.serves_iff,
    canonical_path.liesUnder_child_iff proper (canonical spec listed)]
  refine and_congr_right fun params => or_iff_right fun at_child => ?_
  rw [← params, ← at_child] at absent
  exact absent listed

/-- Without a mount at the top of a tree, nothing serves the top. -/
theorem lookup_root (canonical : ∀ spec ∈ table.contents pool, Path.Canonical spec.scope)
    (absent : ⟨query.params, Path.root⟩ ∉ table.contents pool) :
    table.lookup pool query Path.root = none := by
  refine lookup_eq_none_iff_contents.mpr fun spec listed serves => ?_
  obtain ⟨params, covers⟩ := Spec.serves_iff.mp serves
  have at_root := (canonical spec listed).liesUnder_root_iff.mp covers
  rw [← params, ← at_root] at absent
  exact absent listed

/-- **Among canonical scopes, routing finds the nearest mount above.** -/
theorem nearest_ancestor_serves (pool : Pool D) (table : Table)
    (canonical : ∀ spec ∈ table.contents pool, Path.canonicalize spec.scope = spec.scope)
    (query : Spec) :
    (∀ path name, Path.canonicalize path = path → Path.IsName name →
      (⟨query.params, Path.child path name⟩ ∈ table.contents pool →
        (table.lookup pool query (Path.child path name)).bind pool.spec? =
          some ⟨query.params, Path.child path name⟩) ∧
      (⟨query.params, Path.child path name⟩ ∉ table.contents pool →
        table.lookup pool query (Path.child path name) = table.lookup pool query path)) ∧
    (⟨query.params, Path.root⟩ ∈ table.contents pool →
      (table.lookup pool query Path.root).bind pool.spec? = some ⟨query.params, Path.root⟩) ∧
    (⟨query.params, Path.root⟩ ∉ table.contents pool →
      table.lookup pool query Path.root = none) := by
  have scopes : ∀ spec ∈ table.contents pool, Path.Canonical spec.scope := fun spec listed =>
    Path.canonicalize_eq_self_iff.mp (canonical spec listed)
  refine ⟨fun path name stands proper => ?entry, ?top, ?nothing_at_top⟩
  case entry =>
    have canonical_path := Path.canonicalize_eq_self_iff.mp stands
    exact ⟨served?_own scopes (Path.canonical_child canonical_path proper),
      lookup_child scopes canonical_path proper⟩
  case top =>
    exact served?_own scopes Path.canonical_root
  case nothing_at_top =>
    exact lookup_root scopes

/-- A directory at which nothing is mounted is served as the top is, however alike its name is to
that of the mounted one, and what is in the mounted one is served as that is. -/
theorem nearest_ancestor_serves_public :
    guestFirst.1.lookup guestFirst.2 Spec.guest "/public" =
        guestFirst.1.lookup guestFirst.2 Spec.guest "/" ∧
      (guestFirst.1.lookup guestFirst.2 Spec.guest "/").bind guestFirst.2.spec? =
        some ⟨Spec.guest.params, "/"⟩ ∧
      guestFirst.1.lookup guestFirst.2 Spec.guest "/pub/upload" =
        guestFirst.1.lookup guestFirst.2 Spec.guest "/pub" ∧
      (guestFirst.1.lookup guestFirst.2 Spec.guest "/pub").bind guestFirst.2.spec? =
        some ⟨Spec.guest.params, "/pub"⟩ := by
  have contents : guestFirst.1.contents guestFirst.2 =
      [Spec.guest, Spec.guest.rescope Path.root] := by decide +kernel
  have canonical : ∀ spec ∈ guestFirst.1.contents guestFirst.2,
      Path.canonicalize spec.scope = spec.scope := by
    rw [contents]
    decide
  obtain ⟨entry, top, _⟩ :=
    nearest_ancestor_serves guestFirst.2 guestFirst.1 canonical Spec.guest
  rw [contents] at entry top
  have beside := (entry "/" "public" (by decide) (by decide)).2 (by decide)
  have there := (entry "/" "pub" (by decide) (by decide)).1 (by decide)
  have inside := (entry "/pub" "upload" (by decide) (by decide)).2 (by decide)
  exact ⟨beside, top (by decide), inside, there⟩

end Mounts.Table

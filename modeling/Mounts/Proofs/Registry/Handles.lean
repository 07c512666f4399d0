import Mounts.Proofs.Registry.Filing
import Mounts.Registry

/-!
# Handles on a pool

What taking and giving back a handle does to the instances and registries of a pool, told by
look-up.  A handle that is taken on a live instance and given back leaves the pool as it was,
whatever handles were taken in between (`releaseAll_acquireAll`).

Hence the handles that a search takes on its way are no trouble: `canonicalFor_eq` tells what
interning comes to without them, as long as all candidates are live.
-/

namespace Mounts

set_option autoImplicit false

theorem Ref.index_inj {first second : Ref} : first.index = second.index ↔ first = second := by
  cases first
  cases second
  rw [Ref.mk.injEq]

theorem RegistryId.index_inj {first second : RegistryId} :
    first.index = second.index ↔ first = second := by
  cases first
  cases second
  rw [RegistryId.mk.injEq]

namespace Pool

variable {D : Type}

/-- The registry that was made under a number. -/
def registryAt? (pool : Pool D) (registry : RegistryId) : Option (Registry D) :=
  pool.registries[registry.index]?

theorem directory_of_registryAt? [Directory D] {pool : Pool D} {registry : RegistryId}
    {entry : Registry D} (found : pool.registryAt? registry = some entry) :
    pool.directory registry = entry.directory := by
  rw [directory, ← registryAt?, found]
  rfl

/-- A reference is live while a handle refers to its instance. -/
def Live (pool : Pool D) (ref : Ref) : Prop :=
  ∃ held, pool.instance? ref = some held ∧ held.handles ≠ 0

theorem live_iff {pool : Pool D} {ref : Ref} : pool.Live ref ↔ pool.handles ref ≠ 0 := by
  rw [Live, handles]
  cases pool.instance? ref with
  | none => simp
  | some held => simp

/-- A live reference is to an instance with a content. -/
theorem Live.content {pool : Pool D} {ref : Ref} (live : pool.Live ref) :
    ∃ spec, pool.spec? ref = some spec := by
  obtain ⟨held, found, _⟩ := live
  refine ⟨held.spec, ?_⟩
  rw [spec?, found]
  rfl

theorem handles_of_instance? {pool : Pool D} {ref : Ref} {held : Instance}
    (found : pool.instance? ref = some held) : pool.handles ref = held.handles := by
  rw [handles, found]
  rfl

/-! ## Look-up after a change -/

/-- Between two pools only the numbers of handles to instances differ. -/
def Recounts (pool after : Pool D) (count : Ref → Nat → Nat) : Prop :=
  ∀ ref, after.instance? ref =
    (pool.instance? ref).map fun held => { held with handles := count ref held.handles }

theorem recounts_acquire (pool : Pool D) (ref : Ref) :
    pool.Recounts (pool.acquire ref) fun other handles =>
      if ref = other then handles + 1 else handles := by
  intro other
  rw [acquire, instance?, List.getElem?_modify, ← instance?]
  simp only [Ref.index_inj]
  refine congrArg (Option.map · _) (funext fun held => ?_)
  split
  · rfl
  · rfl

theorem registryAt?_updateRegistry (pool : Pool D) (registry other : RegistryId)
    (change : Registry D → Registry D) :
    (pool.updateRegistry registry change).registryAt? other =
      (pool.registryAt? other).map fun entry =>
        if registry = other then change entry else entry := by
  rw [updateRegistry, registryAt?, List.getElem?_modify]
  simp only [RegistryId.index_inj]
  rfl

theorem spec?_acquire (pool : Pool D) (ref other : Ref) :
    (pool.acquire ref).spec? other = pool.spec? other := by
  rw [spec?, recounts_acquire, Option.map_map, spec?]
  rfl

theorem live_acquire {pool : Pool D} {other : Ref} (live : pool.Live other) (ref : Ref) :
    (pool.acquire ref).Live other := by
  obtain ⟨held, found, some_handle⟩ := live
  rw [Live, recounts_acquire, found, Option.map_some]
  refine ⟨_, rfl, ?_⟩
  dsimp only
  split
  · exact Nat.succ_ne_zero _
  · exact some_handle

theorem instance?_make (pool : Pool D) (spec : Spec) (home : Option RegistryId) (ref : Ref) :
    (pool.make spec home).2.instance? ref =
      if ref = ⟨pool.instances.length⟩ then some ⟨spec, home, 1⟩ else pool.instance? ref := by
  rw [make, instance?, instance?]
  dsimp only
  split
  · next last => rw [last, List.getElem?_concat_length]
  · next differs =>
    have apart : ref.index ≠ pool.instances.length := fun same => differs (Ref.index_inj.mp same)
    rcases Nat.lt_or_gt_of_ne apart with before | beyond
    · rw [List.getElem?_append_left before]
    · rw [List.getElem?_eq_none (by simp only [List.length_append, List.length_singleton]; omega),
        List.getElem?_eq_none (Nat.le_of_lt beyond)]

/-! ## Several handles -/

/-- Takes a handle to each of several instances. -/
def acquireAll (pool : Pool D) (refs : List Ref) : Pool D :=
  refs.foldl acquire pool

theorem acquire_comm (pool : Pool D) (first second : Ref) :
    (pool.acquire first).acquire second = (pool.acquire second).acquire first := by
  by_cases same : first = second
  · rw [same]
  · have apart : first.index ≠ second.index := fun equal => same (Ref.index_inj.mp equal)
    simp only [acquire, List.modify_modify_ne _ _ _ apart]

theorem acquireAll_acquire (pool : Pool D) (ref : Ref) (refs : List Ref) :
    (pool.acquire ref).acquireAll refs = (pool.acquireAll refs).acquire ref := by
  induction refs generalizing pool with
  | nil => rfl
  | cons first others ih =>
    rw [acquireAll, List.foldl_cons, ← acquireAll, acquire_comm, ih]
    rfl

theorem live_acquireAll {pool : Pool D} {ref : Ref} (live : pool.Live ref) (refs : List Ref) :
    (pool.acquireAll refs).Live ref := by
  induction refs generalizing pool with
  | nil => exact live
  | cons first others ih => exact ih (live_acquire live first)

/-- What is made does not depend on handles taken before. -/
theorem make_acquire {pool : Pool D} {ref : Ref} (live : pool.Live ref) (spec : Spec)
    (home : Option RegistryId) :
    (pool.acquire ref).make spec home =
      ((pool.make spec home).1, (pool.make spec home).2.acquire ref) := by
  obtain ⟨held, found, _⟩ := live
  obtain ⟨inside, _⟩ := List.getElem?_eq_some_iff.mp found
  have stays : (pool.instances ++ [Instance.mk spec home 1]).modify ref.index
      (fun held => { held with handles := held.handles + 1 }) =
        pool.instances.modify ref.index (fun held => { held with handles := held.handles + 1 }) ++
          [Instance.mk spec home 1] := by
    apply List.ext_getElem?
    intro place
    rw [List.getElem?_modify]
    by_cases before : place < pool.instances.length
    · rw [List.getElem?_append_left before, List.getElem?_append_left (by simpa using before),
        List.getElem?_modify]
    · have apart : ref.index ≠ place := fun same => before (same ▸ inside)
      rw [List.getElem?_append_right (Nat.not_lt.mp before),
        List.getElem?_append_right (by simpa using before), List.length_modify]
      simp only [if_neg apart, id_map']
  simp only [make, acquire, List.length_modify, stays]

theorem make_acquireAll {pool : Pool D} {refs : List Ref} (live : ∀ ref ∈ refs, pool.Live ref)
    (spec : Spec) (home : Option RegistryId) :
    (pool.acquireAll refs).make spec home =
      ((pool.make spec home).1, (pool.make spec home).2.acquireAll refs) := by
  induction refs with
  | nil => rfl
  | cons first others ih =>
    rw [List.forall_mem_cons] at live
    have later := live_acquireAll live.1 others
    rw [acquireAll, List.foldl_cons, ← acquireAll, acquireAll_acquire, make_acquire later,
      ih live.2, ← acquireAll_acquire]
    rfl

/-! ## Searching -/

/-- Whether a reference is to an instance of a content. -/
def hasSpec (pool : Pool D) (spec : Spec) (ref : Ref) : Bool :=
  decide (pool.spec? ref = some spec)

/-- A search among live references finds the first one of the content, with a handle on it and on
those before it. -/
theorem search_eq {pool : Pool D} {refs : List Ref} (live : ∀ ref ∈ refs, pool.Live ref)
    (spec : Spec) :
    pool.search spec refs =
      (refs.find? (pool.hasSpec spec), refs.takeWhile (!pool.hasSpec spec ·),
        (pool.acquireAll (refs.takeWhile (!pool.hasSpec spec ·))).acquireAll
          (refs.find? (pool.hasSpec spec)).toList) := by
  induction refs generalizing pool with
  | nil => rfl
  | cons ref refs ih =>
    rw [List.forall_mem_cons] at live
    have still : ∀ other ∈ refs, (pool.acquire ref).Live other :=
      fun other found => live_acquire (live.2 other found) ref
    have further := ih still
    have unchanged : (pool.acquire ref).hasSpec spec = pool.hasSpec spec := by
      funext other
      rw [hasSpec, spec?_acquire, hasSpec]
    rw [search, if_neg (live_iff.mp live.1), List.find?_cons, List.takeWhile_cons]
    dsimp only
    rw [spec?_acquire]
    by_cases here : pool.spec? ref = some spec
    · have hit : pool.hasSpec spec ref = true := decide_eq_true here
      simp only [if_pos here, hit]
      rfl
    · have miss : pool.hasSpec spec ref = false := decide_eq_false here
      simp only [if_neg here, miss, further, unchanged]
      rfl

/-! ## Giving back -/

variable [Directory D]

/-- A handle taken on a live instance can be given back without a trace. -/
theorem release_acquire {pool : Pool D} {ref : Ref} (live : pool.Live ref) :
    (pool.acquire ref).release ref = pool := by
  obtain ⟨held, found, some_handle⟩ := live
  have raised : (pool.acquire ref).instance? ref =
      some { held with handles := held.handles + 1 } := by
    rw [recounts_acquire, found, Option.map_some]
    dsimp only
    rw [if_pos rfl]
  have lowered : (pool.acquire ref).instances.set ref.index held = pool.instances := by
    apply List.ext_getElem?
    intro place
    rw [acquire, List.getElem?_set, List.getElem?_modify, List.length_modify]
    split
    · next here =>
      subst here
      rw [if_pos (List.getElem?_eq_some_iff.mp found).1]
      exact found.symm
    · exact id_map' _
  have not_last : held.handles + 1 ≠ 1 := fun last => some_handle (Nat.succ.inj last)
  rw [release, raised]
  simp only [Nat.add_sub_cancel, if_neg not_last, lowered]
  cases held.home with
  | none => rfl
  | some registry => rfl

theorem recounts_release (pool : Pool D) (ref : Ref) :
    pool.Recounts (pool.release ref) fun other handles =>
      if ref = other then handles - 1 else handles := by
  intro other
  rw [release]
  cases found : pool.instance? ref with
  | none =>
    dsimp only
    cases there : pool.instance? other with
    | none => rfl
    | some held =>
      have apart : ref ≠ other := by
        rintro rfl
        rw [found] at there
        cases there
      rw [Option.map_some, if_neg apart]
  | some held =>
    have lowered :
        (pool.instances.set ref.index { held with handles := held.handles - 1 })[other.index]? =
          (pool.instance? other).map fun held =>
            { held with handles := if ref = other then held.handles - 1 else held.handles } := by
      rw [List.getElem?_set]
      by_cases same : ref = other
      · subst same
        rw [if_pos rfl, if_pos (List.getElem?_eq_some_iff.mp found).1, found, Option.map_some,
          if_pos rfl]
      · rw [if_neg fun equal => same (Ref.index_inj.mp equal)]
        simp only [if_neg same]
        exact (congrFun Option.map_id _).symm
    dsimp only
    split
    · split
      · exact lowered
      · exact lowered
    · exact lowered

/-- A handle that is given back leaves the registries alone if it is not the last one. -/
theorem registryAt?_release_of_more {pool : Pool D} {ref : Ref} {held : Instance}
    (found : pool.instance? ref = some held) (more : held.handles ≠ 1 ∨ held.home = none)
    (registry : RegistryId) :
    (pool.release ref).registryAt? registry = pool.registryAt? registry := by
  rw [release, found]
  dsimp only
  split
  · next home made =>
    have more : held.handles ≠ 1 := more.resolve_right fun none_made => by
      rw [made] at none_made
      cases none_made
    rw [if_neg more]
    rfl
  · rfl

/-- The last handle to an instance takes it out of its registry. -/
theorem registryAt?_release_of_last {pool : Pool D} {ref : Ref} {held : Instance}
    {home : RegistryId}
    (found : pool.instance? ref = some held) (last : held.handles = 1)
    (made : held.home = some home) (registry : RegistryId) :
    (pool.release ref).registryAt? registry = (pool.registryAt? registry).map fun entry =>
      if home = registry then
        { entry with directory := Directory.sweep entry.directory held.spec fun other =>
            (pool.release ref).handles other != 0 && other != ref }
      else entry := by
  generalize same : pool.release ref = after
  rw [release, found] at same
  dsimp only at same
  rw [made] at same
  dsimp only at same
  rw [if_pos last] at same
  subst same
  exact registryAt?_updateRegistry _ home registry _

/-- **Handles taken on live instances can be given back without a trace.** -/
theorem releaseAll_acquireAll {pool : Pool D} {refs : List Ref}
    (live : ∀ ref ∈ refs, pool.Live ref) : (pool.acquireAll refs).releaseAll refs = pool := by
  induction refs with
  | nil => rfl
  | cons first others ih =>
    rw [List.forall_mem_cons] at live
    rw [acquireAll, List.foldl_cons, ← acquireAll, acquireAll_acquire, releaseAll, List.foldl_cons,
      release_acquire (live_acquireAll live.1 others), ← releaseAll, ih live.2]

/-! ## Interning -/

/-- Strikes the candidates for a content that are not live out of a registry. -/
def sweepDead (pool : Pool D) (registry : RegistryId) (spec : Spec) : Pool D :=
  pool.updateRegistry registry fun entry =>
    { entry with directory := Directory.sweep entry.directory spec fun ref =>
        pool.handles ref != 0 }

/-- Makes an instance for a registry and enters it there. -/
def enter (pool : Pool D) (registry : RegistryId) (spec : Spec) : Ref × Pool D :=
  let (ref, made) := pool.make spec (some registry)
  (ref, made.updateRegistry registry fun entry =>
    { entry with directory := Directory.insert entry.directory spec ref })

theorem enter_acquireAll {pool : Pool D} {refs : List Ref} (live : ∀ ref ∈ refs, pool.Live ref)
    (registry : RegistryId) (spec : Spec) :
    (pool.acquireAll refs).enter registry spec =
      ((pool.enter registry spec).1, (pool.enter registry spec).2.acquireAll refs) := by
  have updated (made : Pool D) (change : Registry D → Registry D) :
      (made.acquireAll refs).updateRegistry registry change =
        (made.updateRegistry registry change).acquireAll refs := by
    induction refs generalizing made with
    | nil => rfl
    | cons first others ih =>
      exact ih (fun ref found => live ref (List.mem_cons_of_mem _ found)) (made.acquire first)
  rw [enter, make_acquireAll live]
  dsimp only
  rw [updated]
  rfl

/-- A new instance takes a number that was not used, and has one handle. -/
theorem instance?_enter (pool : Pool D) (registry : RegistryId) (spec : Spec) :
    pool.instance? (pool.enter registry spec).1 = none ∧
      (pool.enter registry spec).2.instance? (pool.enter registry spec).1 =
        some ⟨spec, some registry, 1⟩ := by
  refine ⟨List.getElem?_eq_none (Nat.le_refl _), ?_⟩
  change (pool.make spec (some registry)).2.instance? ⟨pool.instances.length⟩ = _
  rw [instance?_make, if_pos rfl]

theorem live_enter {pool : Pool D} {ref : Ref} (live : pool.Live ref) (registry : RegistryId)
    (spec : Spec) : (pool.enter registry spec).2.Live ref := by
  obtain ⟨held, found, some_handle⟩ := live
  have old : ref ≠ ⟨pool.instances.length⟩ := by
    rintro rfl
    exact Nat.lt_irrefl _ (List.getElem?_eq_some_iff.mp found).1
  refine ⟨held, ?_, some_handle⟩
  change (pool.make spec (some registry)).2.instance? ref = some held
  rw [instance?_make, if_neg old, found]

/-- Interning after its search: the handle on the reference found is kept, and a new instance is
entered if there is none.  Those on the references passed over are given back. -/
theorem canonicalFor_of_search {pool holding : Pool D} {registry : RegistryId} {spec : Spec}
    {found : Option Ref} {passed : List Ref}
    (searched : (pool.sweepDead registry spec).search spec
      (Directory.candidates ((pool.sweepDead registry spec).directory registry) spec) =
        (found, passed, holding)) :
    pool.canonicalFor registry spec =
      found.elim ((holding.enter registry spec).1,
          (holding.enter registry spec).2.releaseAll passed)
        fun ref => (ref, holding.releaseAll passed) := by
  rw [sweepDead] at searched
  rw [canonicalFor, searched]
  cases found with
  | some ref => rfl
  | none => rfl

/-- **Interning without the handles that it takes on its way**: the first candidate of the content,
or else a new instance. -/
theorem canonicalFor_eq (pool : Pool D) (registry : RegistryId) (spec : Spec)
    (live : ∀ ref ∈ Directory.candidates ((pool.sweepDead registry spec).directory registry) spec,
      (pool.sweepDead registry spec).Live ref) :
    pool.canonicalFor registry spec =
      ((Directory.candidates ((pool.sweepDead registry spec).directory registry) spec).find?
        ((pool.sweepDead registry spec).hasSpec spec)).elim
          ((pool.sweepDead registry spec).enter registry spec)
          fun ref => (ref, (pool.sweepDead registry spec).acquire ref) := by
  rw [canonicalFor_of_search (search_eq live spec)]
  generalize pool.sweepDead registry spec = swept at live ⊢
  generalize Directory.candidates (swept.directory registry) spec = candidates at live ⊢
  have passed_live : ∀ ref ∈ candidates.takeWhile (!swept.hasSpec spec ·), swept.Live ref :=
    fun ref found => live ref (List.takeWhile_subset _ found)
  cases candidates.find? (swept.hasSpec spec) with
  | some ref =>
    refine congrArg (Prod.mk ref) ?_
    rw [Option.toList_some]
    change ((swept.acquireAll _).acquire ref).releaseAll _ = swept.acquire ref
    rw [← acquireAll_acquire]
    exact releaseAll_acquireAll fun other found => live_acquire (passed_live other found) ref
  | none =>
    rw [Option.toList_none]
    change (((swept.acquireAll _).enter registry spec).1,
      ((swept.acquireAll _).enter registry spec).2.releaseAll _) = _
    rw [enter_acquireAll passed_live]
    refine congrArg (Prod.mk _) ?_
    exact releaseAll_acquireAll fun other found =>
      live_enter (passed_live other found) registry spec

end Pool

end Mounts

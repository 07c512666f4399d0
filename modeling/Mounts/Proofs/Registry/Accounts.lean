import Mounts.Proofs.Registry.Sound

/-!
# Pools whose handles are accounted for

`Kept pool held keys` says that a pool is sound and that its handles are the ones listed: to every
instance as many as `held` names it, and to every registry as many as `keys` names it, with one more
to the shared registry, which nobody gives back.

Each operation moves its own handles between a pool and the lists.  So whoever keeps to the rules,
by copying only what it holds and giving back only what it holds, can do nothing that would make a
pool unsound.
-/

namespace Mounts.Pool

set_option autoImplicit false

variable {D : Type}

/-- How many handles refer to a registry. -/
def registryHandles (pool : Pool D) (registry : RegistryId) : Nat :=
  ((pool.registryAt? registry).map (·.handles)).getD 0

/-! ## Counting -/

theorem handles_acquire {pool : Pool D} {ref : Ref} (live : pool.Live ref) (other : Ref) :
    (pool.acquire ref).handles other = pool.handles other + if ref = other then 1 else 0 := by
  rw [handles, recounts_acquire, handles]
  cases found : pool.instance? other with
  | none =>
    have apart : ref ≠ other := by
      rintro rfl
      obtain ⟨held, there, _⟩ := live
      rw [found] at there
      cases there
    rw [if_neg apart]
    rfl
  | some held =>
    simp only [Option.map_some, Option.getD_some]
    split
    · rfl
    · rfl

theorem handles_make (pool : Pool D) (spec : Spec) (home : Option RegistryId) (other : Ref) :
    (pool.make spec home).2.handles other =
      pool.handles other + if (pool.make spec home).1 = other then 1 else 0 := by
  have fresh : pool.instance? ⟨pool.instances.length⟩ = none :=
    List.getElem?_eq_none (Nat.le_refl _)
  rw [handles, instance?_make, handles]
  change _ = _ + if ⟨pool.instances.length⟩ = other then 1 else 0
  by_cases new : other = ⟨pool.instances.length⟩
  · subst new
    rw [if_pos rfl, if_pos rfl, fresh]
    rfl
  · rw [if_neg new, if_neg (Ne.symm new)]
    rfl

theorem registryHandles_updateRegistry {pool : Pool D} {registry : RegistryId}
    {change : Registry D → Registry D} (count : Nat → Nat) (zero : count 0 = 0)
    (counted : ∀ entry, (change entry).handles = count entry.handles) (other : RegistryId) :
    (pool.updateRegistry registry change).registryHandles other =
      if registry = other then count (pool.registryHandles other)
      else pool.registryHandles other := by
  rw [registryHandles, registryAt?_updateRegistry, registryHandles]
  cases pool.registryAt? other with
  | none =>
    split
    · exact zero.symm
    · rfl
  | some entry =>
    rw [Option.map_some]
    split
    · exact counted entry
    · rfl

theorem registryHandles_of_steady {pool : Pool D} {registry : RegistryId}
    {change : Registry D → Registry D} (steady : ∀ entry, (change entry).handles = entry.handles)
    (other : RegistryId) :
    (pool.updateRegistry registry change).registryHandles other = pool.registryHandles other := by
  rw [registryHandles_updateRegistry id rfl steady other, id, ite_self]

variable [Directory D]

theorem handles_release (pool : Pool D) (ref other : Ref) :
    (pool.release ref).handles other = pool.handles other - if ref = other then 1 else 0 := by
  rw [handles, recounts_release, handles]
  cases pool.instance? other with
  | none => exact (Nat.zero_sub _).symm
  | some held =>
    simp only [Option.map_some, Option.getD_some]
    split
    · rfl
    · rfl

theorem registryHandles_release (pool : Pool D) (ref : Ref) (registry : RegistryId) :
    (pool.release ref).registryHandles registry = pool.registryHandles registry := by
  rw [release]
  split
  · rfl
  · dsimp only
    split
    · split
      · refine registryHandles_of_steady ?_ registry
        exact fun _ => rfl
      · rfl
    · rfl

variable [LawfulDirectory D]

/-- A sound pool, all of whose handles are listed. -/
structure Kept (pool : Pool D) (held : List Ref) (keys : List RegistryId) : Prop where
  sound : pool.Sound
  refs : ∀ ref, pool.handles ref = held.count ref
  registries : ∀ registry, pool.registryHandles registry = (global :: keys).count registry

theorem kept_empty : (empty : Pool D).Kept [] [] where
  sound := sound_empty
  refs := fun _ => rfl
  registries := by
    rintro ⟨index⟩
    cases index with
    | zero => rfl
    | succ index => rfl

namespace Kept

variable {pool : Pool D} {held : List Ref} {keys : List RegistryId}

theorem perm (kept : pool.Kept held keys) {others : List Ref} (same : held.Perm others) :
    pool.Kept others keys :=
  ⟨kept.sound, fun ref => (kept.refs ref).trans (same.count_eq ref), kept.registries⟩

theorem perm_keys (kept : pool.Kept held keys) {others : List RegistryId}
    (same : keys.Perm others) :
    pool.Kept held others :=
  ⟨kept.sound, kept.refs, fun registry =>
    (kept.registries registry).trans ((same.cons global).count_eq registry)⟩

/-- What is held is live. -/
theorem live (kept : pool.Kept held keys) {ref : Ref} (holds : ref ∈ held) : pool.Live ref := by
  rw [live_iff, kept.refs]
  exact Nat.ne_of_gt (List.count_pos_iff.mpr holds)

/-- The canonical instances of a registry that stand for their contents are those that are held. -/
theorem stands_iff (kept : pool.Kept held keys) {registry : RegistryId} {ref : Ref} {spec : Spec} :
    pool.Stands registry ref spec ↔ ref ∈ held ∧ ∃ canonical, pool.instance? ref = some canonical ∧
      canonical.home = some registry ∧ canonical.spec = spec := by
  constructor
  · intro stands
    have some_handle := live_iff.mp stands.live
    rw [kept.refs] at some_handle
    obtain ⟨canonical, found, _, home, content⟩ := stands
    exact ⟨List.count_pos_iff.mp (Nat.pos_of_ne_zero some_handle), canonical, found, home, content⟩
  · rintro ⟨holds, canonical, found, home, content⟩
    refine ⟨canonical, found, ?_, home, content⟩
    rw [← handles_of_instance? found]
    exact live_iff.mp (kept.live holds)

/-- A registry with a handle, and the shared one, is alive. -/
theorem alive (kept : pool.Kept held keys) {registry : RegistryId}
    (holds : registry ∈ global :: keys) :
    ∃ entry, pool.registryAt? registry = some entry ∧ entry.handles ≠ 0 := by
  have some_handle := Nat.ne_of_gt (List.count_pos_iff.mpr holds)
  rw [← kept.registries, registryHandles] at some_handle
  cases found : pool.registryAt? registry with
  | none =>
    rw [found] at some_handle
    exact absurd rfl some_handle
  | some entry =>
    rw [found] at some_handle
    exact ⟨entry, rfl, some_handle⟩

/-! ## Handles to instances -/

theorem acquire (kept : pool.Kept held keys) {ref : Ref} (live : pool.Live ref) :
    (pool.acquire ref).Kept (ref :: held) keys where
  sound := sound_acquire kept.sound live
  refs := by
    intro other
    rw [handles_acquire live, kept.refs, List.count_cons]
    simp only [beq_iff_eq]
  registries := kept.registries

theorem release {ref : Ref} (kept : pool.Kept (ref :: held) keys) :
    (pool.release ref).Kept held keys where
  sound := sound_release kept.sound (kept.live List.mem_cons_self)
  refs := by
    intro other
    rw [handles_release, kept.refs, List.count_cons]
    simp only [beq_iff_eq, Nat.add_sub_cancel]
  registries := fun registry => (registryHandles_release pool ref registry).trans
    (kept.registries registry)

theorem releaseAll {refs : List Ref} (kept : pool.Kept (refs ++ held) keys) :
    (pool.releaseAll refs).Kept held keys := by
  induction refs generalizing pool with
  | nil => exact kept
  | cons ref refs ih => exact ih kept.release

theorem share (kept : pool.Kept held keys) (spec : Spec) :
    (pool.share spec).2.Kept ((pool.share spec).1 :: held) keys where
  sound := sound_share kept.sound spec
  refs := by
    intro other
    rw [Pool.share, handles_make, kept.refs, List.count_cons]
    simp only [beq_iff_eq]
  registries := kept.registries

theorem sweepDead (kept : pool.Kept held keys) (registry : RegistryId) (spec : Spec) :
    (pool.sweepDead registry spec).Kept held keys where
  sound := sound_sweepDead kept.sound registry spec
  refs := kept.refs
  registries := by
    intro other
    rw [← kept.registries]
    refine registryHandles_of_steady ?_ other
    exact fun _ => rfl

theorem enter (kept : pool.Kept held keys) {registry : RegistryId} {spec : Spec}
    (known : (pool.registryAt? registry).isSome)
    (missing : ∀ ref, ¬ pool.Stands registry ref spec) :
    (pool.enter registry spec).2.Kept ((pool.enter registry spec).1 :: held) keys where
  sound := sound_enter kept.sound known missing
  refs := by
    intro other
    change (pool.make spec (some registry)).2.handles other = _
    rw [handles_make, kept.refs, List.count_cons]
    simp only [beq_iff_eq]
    rfl
  registries := by
    intro other
    rw [← kept.registries]
    refine registryHandles_of_steady ?_ other
    exact fun _ => rfl

theorem canonicalFor (kept : pool.Kept held keys) {registry : RegistryId}
    (holds : registry ∈ global :: keys) (spec : Spec) :
    (pool.canonicalFor registry spec).2.Kept
      ((pool.canonicalFor registry spec).1 :: held) keys := by
  obtain ⟨entry, found, alive⟩ := kept.alive holds
  have swept := kept.sweepDead registry spec
  rcases canonicalFor_spec kept.sound found alive spec with
    ⟨ref, stands, interned⟩ | ⟨missing, interned⟩
  · rw [interned]
    exact swept.acquire stands.live
  · rw [interned]
    refine swept.enter ?_ missing
    rw [Pool.sweepDead, registryAt?_updateRegistry, found]
    rfl

theorem canonicalize (kept : pool.Kept held keys) {registry : RegistryId}
    (holds : registry ∈ global :: keys) {ref : Ref} (referred : pool.Live ref) :
    (pool.canonicalize registry ref).2.Kept ((pool.canonicalize registry ref).1 :: held) keys := by
  obtain ⟨known, found, some_handle⟩ := referred
  rw [Pool.canonicalize, found]
  dsimp only
  split
  · exact kept.acquire ⟨known, found, some_handle⟩
  · exact kept.canonicalFor holds known.spec

/-! ## Handles to registries -/

theorem count_keys (registry : RegistryId) (keys : List RegistryId) (other : RegistryId) :
    (global :: registry :: keys).count other =
      (global :: keys).count other + if registry = other then 1 else 0 := by
  rw [(List.Perm.swap registry global keys).count_eq, List.count_cons]
  simp only [beq_iff_eq]

theorem newRegistry (kept : pool.Kept held keys) :
    pool.newRegistry.2.Kept held (pool.newRegistry.1 :: keys) where
  sound := sound_newRegistry kept.sound
  refs := kept.refs
  registries := by
    intro other
    rw [count_keys, ← kept.registries]
    change ((pool.registries ++ [_])[other.index]?.map _).getD 0 =
      ((pool.registries[other.index]?).map _).getD 0 +
        if ⟨pool.registries.length⟩ = other then 1 else 0
    split
    · next new =>
      rw [← new, List.getElem?_concat_length, List.getElem?_eq_none (Nat.le_refl _)]
      rfl
    · next old =>
      have apart : other.index ≠ pool.registries.length := fun same =>
        old (RegistryId.index_inj.mp same.symm)
      rcases Nat.lt_or_gt_of_ne apart with before | beyond
      · rw [List.getElem?_append_left before]
        rfl
      · rw [List.getElem?_eq_none (Nat.le_of_lt beyond),
          List.getElem?_eq_none (by simp only [List.length_append, List.length_singleton]; omega)]
        rfl

theorem acquireRegistry (kept : pool.Kept held keys) {registry : RegistryId}
    (holds : registry ∈ global :: keys) :
    (pool.acquireRegistry registry).Kept held (registry :: keys) := by
  obtain ⟨entry, found, alive⟩ := kept.alive holds
  refine ⟨sound_acquireRegistry kept.sound found alive, kept.refs, fun other => ?_⟩
  rw [count_keys, ← kept.registries, registryHandles, Pool.acquireRegistry,
    registryAt?_updateRegistry, registryHandles]
  by_cases same : registry = other
  · subst same
    rw [found, if_pos rfl]
    simp only [Option.map_some, if_pos, Option.getD_some]
  · rw [if_neg same]
    simp only [if_neg same, Option.map_id']
    rfl

theorem releaseRegistry {registry : RegistryId} (kept : pool.Kept held (registry :: keys)) :
    (pool.releaseRegistry registry).Kept held keys where
  sound := sound_releaseRegistry kept.sound registry
  refs := kept.refs
  registries := by
    intro other
    have lowered : (pool.releaseRegistry registry).registryHandles other =
        if registry = other then pool.registryHandles other - 1
        else pool.registryHandles other := by
      refine registryHandles_updateRegistry (· - 1) rfl (fun entry => ?_) other
      split
      · next last => rw [last]
      · rfl
    rw [lowered, kept.registries, count_keys]
    split
    · rfl
    · rfl

end Kept

end Mounts.Pool

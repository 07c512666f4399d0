import Mathlib.Data.List.Nodup
import Mounts.Proofs.Registry.Handles

/-!
# Sound pools

A reference stands for a content in a registry when its instance is live, was made canonical by that
registry and has that content.  A pool is sound when the directory of every registry that is alive
holds exactly the references that stand for something there, each once, and no two of them for the
same content.

Every operation keeps pools sound, as long as handles are taken on live instances and registries
only and given back only if they were taken.  The last handle to an instance needs care: the
instance stops standing for its content in the same moment in which it is struck out of its
directory.

In a sound pool interning finds the one reference that stands for a content, and makes a new
instance exactly when there is none (`canonicalFor_spec`).
-/

namespace Mounts.Pool

set_option autoImplicit false

variable {D : Type}

/-- A reference stands for a content in a registry. -/
def Stands (pool : Pool D) (registry : RegistryId) (ref : Ref) (spec : Spec) : Prop :=
  ∃ held, pool.instance? ref = some held ∧ held.handles ≠ 0 ∧ held.home = some registry ∧
    held.spec = spec

theorem Stands.live {pool : Pool D} {registry : RegistryId} {ref : Ref} {spec : Spec}
    (stands : pool.Stands registry ref spec) : pool.Live ref := by
  obtain ⟨held, found, some_handle, _⟩ := stands
  exact ⟨held, found, some_handle⟩

theorem Stands.spec? {pool : Pool D} {registry : RegistryId} {ref : Ref} {spec : Spec}
    (stands : pool.Stands registry ref spec) : pool.spec? ref = some spec := by
  obtain ⟨held, found, _, _, rfl⟩ := stands
  rw [Pool.spec?, found]
  rfl

/-- What stands for a content after the handles were counted anew. -/
theorem Recounts.stands_iff {pool after : Pool D} {count : Ref → Nat → Nat}
    (recounts : pool.Recounts after count) {registry : RegistryId} {ref : Ref} {spec : Spec} :
    after.Stands registry ref spec ↔ ∃ held, pool.instance? ref = some held ∧
      count ref held.handles ≠ 0 ∧ held.home = some registry ∧ held.spec = spec := by
  rw [Stands, recounts]
  constructor
  · rintro ⟨_, found, some_handle, home, content⟩
    obtain ⟨held, earlier, rfl⟩ := Option.map_eq_some_iff.mp found
    exact ⟨held, earlier, some_handle, home, content⟩
  · rintro ⟨held, found, some_handle, home, content⟩
    rw [found]
    exact ⟨_, rfl, some_handle, home, content⟩

/-- Counting handles anew changes nothing as long as live instances stay live and no others become
live. -/
theorem Recounts.stands_congr {pool after : Pool D} {count : Ref → Nat → Nat}
    (recounts : pool.Recounts after count)
    (steady : ∀ ref held, pool.instance? ref = some held →
      (count ref held.handles ≠ 0 ↔ held.handles ≠ 0))
    (registry : RegistryId) (ref : Ref) (spec : Spec) :
    after.Stands registry ref spec ↔ pool.Stands registry ref spec := by
  rw [recounts.stands_iff, Stands]
  refine exists_congr fun held => and_congr_right fun found => ?_
  rw [steady ref held found]

/-- The reference of the next instance stands for nothing yet. -/
theorem not_stands_next {pool : Pool D} {registry : RegistryId} {spec : Spec} :
    ¬ pool.Stands registry ⟨pool.instances.length⟩ spec := by
  rintro ⟨held, found, _⟩
  exact Nat.lt_irrefl _ (List.getElem?_eq_some_iff.mp found).1

/-- A new instance changes nothing for the old ones. -/
theorem stands_make {pool : Pool D} {made : Spec} {home : Option RegistryId} {registry : RegistryId}
    {ref : Ref} {spec : Spec} :
    (pool.make made home).2.Stands registry ref spec ↔ pool.Stands registry ref spec ∨
      (home = some registry ∧ ref = ⟨pool.instances.length⟩ ∧ spec = made) := by
  rw [Stands, instance?_make]
  by_cases new : ref = ⟨pool.instances.length⟩
  · subst new
    rw [if_pos rfl, or_iff_right not_stands_next]
    constructor
    · rintro ⟨held, found, _, home_of, content⟩
      cases found
      exact ⟨home_of, rfl, content.symm⟩
    · rintro ⟨rfl, _, rfl⟩
      exact ⟨_, rfl, Nat.one_ne_zero, rfl, rfl⟩
  · rw [if_neg new]
    constructor
    · exact .inl
    · rintro (old | ⟨_, same, _⟩)
      · exact old
      · exact absurd same new

/-- Giving back the last handle to an instance ends what it stands for, and nothing else. -/
theorem stands_release_of_last [Directory D] {pool : Pool D} {ref : Ref} {held : Instance}
    (found : pool.instance? ref = some held) (last : held.handles = 1) {registry : RegistryId}
    {other : Ref} {spec : Spec} :
    (pool.release ref).Stands registry other spec ↔
      pool.Stands registry other spec ∧ other ≠ ref := by
  rw [(pool.recounts_release ref).stands_iff, Stands]
  constructor
  · rintro ⟨before, earlier, some_handle, content⟩
    have apart : ref ≠ other := by
      rintro rfl
      rw [found] at earlier
      cases earlier
      rw [if_pos rfl, last] at some_handle
      exact some_handle rfl
    rw [if_neg apart] at some_handle
    exact ⟨⟨before, earlier, some_handle, content⟩, Ne.symm apart⟩
  · rintro ⟨⟨before, earlier, some_handle, content⟩, apart⟩
    refine ⟨before, earlier, ?_, content⟩
    rwa [if_neg (Ne.symm apart)]

/-- A list of the references that stand for something in a registry, with their contents. -/
structure Lists (pool : Pool D) (registry : RegistryId) (filing : List (Ref × Spec)) : Prop where
  stands : ∀ ref spec, (ref, spec) ∈ filing ↔ pool.Stands registry ref spec
  once : (filing.map (·.1)).Nodup
  distinct : (filing.map (·.2)).Nodup

theorem Lists.congr {pool after : Pool D} {registry : RegistryId} {filing : List (Ref × Spec)}
    (lists : pool.Lists registry filing)
    (same : ∀ ref spec, after.Stands registry ref spec ↔ pool.Stands registry ref spec) :
    after.Lists registry filing :=
  ⟨fun ref spec => (lists.stands ref spec).trans (same ref spec).symm, lists.once, lists.distinct⟩

/-- What stops standing for its content is struck out of the list. -/
theorem Lists.strike {pool after : Pool D} {registry : RegistryId} {filing : List (Ref × Spec)}
    (lists : pool.Lists registry filing) {keeps : Ref → Bool}
    (kept : ∀ ref spec, after.Stands registry ref spec ↔
      pool.Stands registry ref spec ∧ keeps ref = true) :
    after.Lists registry (filing.filter fun entry => keeps entry.1) where
  stands := by
    intro ref spec
    rw [List.mem_filter, lists.stands, kept]
  once := lists.once.sublist (List.filter_sublist.map _)
  distinct := lists.distinct.sublist (List.filter_sublist.map _)

/-- A reference that stands for nothing yet is listed with a content that nothing stands for yet. -/
theorem Lists.extend {pool after : Pool D} {registry : RegistryId} {filing : List (Ref × Spec)}
    (lists : pool.Lists registry filing) {new : Ref} {made : Spec}
    (stands : ∀ ref spec, after.Stands registry ref spec ↔
      pool.Stands registry ref spec ∨ (ref = new ∧ spec = made))
    (fresh : ∀ spec, ¬ pool.Stands registry new spec)
    (missing : ∀ ref, ¬ pool.Stands registry ref made) :
    after.Lists registry (filing ++ [(new, made)]) where
  stands := by
    intro ref spec
    rw [stands, List.mem_append, lists.stands, List.mem_singleton, Prod.mk.injEq]
  once := by
    rw [List.map_append, List.map_singleton, ← List.concat_eq_append]
    refine List.Nodup.concat (fun listed => ?_) lists.once
    obtain ⟨⟨ref, spec⟩, entered, rfl⟩ := List.mem_map.mp listed
    exact fresh spec ((lists.stands ref spec).mp entered)
  distinct := by
    rw [List.map_append, List.map_singleton, ← List.concat_eq_append]
    refine List.Nodup.concat (fun listed => ?_) lists.distinct
    obtain ⟨⟨ref, spec⟩, entered, rfl⟩ := List.mem_map.mp listed
    exact missing ref ((lists.stands ref spec).mp entered)

/-- In one registry only one reference stands for a content. -/
theorem Lists.unique {pool : Pool D} {registry : RegistryId} {filing : List (Ref × Spec)}
    (lists : pool.Lists registry filing) {first second : Ref} {spec : Spec}
    (one : pool.Stands registry first spec) (other : pool.Stands registry second spec) :
    first = second :=
  congrArg Prod.fst (List.inj_on_of_nodup_map lists.distinct ((lists.stands first spec).mpr one)
    ((lists.stands second spec).mpr other) rfl)

variable [Directory D] [LawfulDirectory D]

open LawfulDirectory (Files)

/-- The directories of the registries that are alive hold what stands for something there, and
nothing else. -/
structure Sound (pool : Pool D) : Prop where
  listed : ∀ registry entry, pool.registryAt? registry = some entry → entry.handles ≠ 0 →
    ∃ filing, Files entry.directory filing ∧ pool.Lists registry filing
  homes : ∀ ref held registry, pool.instance? ref = some held → held.home = some registry →
    (pool.registryAt? registry).isSome

theorem sound_empty : (empty : Pool D).Sound where
  listed := by
    intro registry entry found _
    have shared : registry.index = 0 ∧ entry = ⟨1, Directory.empty⟩ := by
      obtain ⟨inside, same⟩ := List.getElem?_eq_some_iff.mp found
      have first : registry.index = 0 := Nat.lt_one_iff.mp inside
      simp only [empty, first, List.getElem_cons_zero] at same
      exact ⟨first, same.symm⟩
    rw [shared.2]
    have nothing (ref : Ref) (spec : Spec) : ¬ empty.Stands (D := D) registry ref spec :=
      fun ⟨_, found, _⟩ => nomatch found
    exact ⟨[], LawfulDirectory.files_empty, fun ref spec =>
      iff_of_false List.not_mem_nil (nothing ref spec), List.nodup_nil, List.nodup_nil⟩
  homes := fun _ _ _ found _ => nomatch found

/-- What changes neither contents and liveness of instances nor the directories of living registries
keeps a pool sound. -/
theorem Sound.congr {pool after : Pool D} (sound : pool.Sound)
    (same : ∀ registry ref spec,
      after.Stands registry ref spec ↔ pool.Stands registry ref spec)
    (directories : ∀ registry entry, after.registryAt? registry = some entry → entry.handles ≠ 0 →
      ∃ before, pool.registryAt? registry = some before ∧ before.handles ≠ 0 ∧
        before.directory = entry.directory)
    (homes : ∀ ref held registry, after.instance? ref = some held → held.home = some registry →
      (after.registryAt? registry).isSome) : after.Sound where
  listed := by
    intro registry entry found alive
    obtain ⟨before, earlier, was_alive, unchanged⟩ := directories registry entry found alive
    obtain ⟨filing, files, lists⟩ := sound.listed registry before earlier was_alive
    exact ⟨filing, unchanged ▸ files, lists.congr (same registry)⟩
  homes := homes

theorem Recounts.homes {pool after : Pool D} {count : Ref → Nat → Nat}
    (recounts : pool.Recounts after count) (sound : pool.Sound)
    (kept : ∀ registry, (pool.registryAt? registry).isSome → (after.registryAt? registry).isSome)
    (ref : Ref) (held : Instance) (registry : RegistryId) (found : after.instance? ref = some held)
    (home : held.home = some registry) : (after.registryAt? registry).isSome := by
  rw [recounts] at found
  obtain ⟨before, earlier, rfl⟩ := Option.map_eq_some_iff.mp found
  exact kept registry (sound.homes ref before registry earlier home)

/-- A pool whose registries stay as they are stays sound if what stands for something does. -/
theorem Sound.congr_of_registries {pool after : Pool D} {count : Ref → Nat → Nat}
    (sound : pool.Sound)
    (same : ∀ registry ref spec,
      after.Stands registry ref spec ↔ pool.Stands registry ref spec)
    (registries : ∀ registry, after.registryAt? registry = pool.registryAt? registry)
    (recounts : pool.Recounts after count) : after.Sound := by
  refine sound.congr same ?directories (recounts.homes sound ?known)
  case directories =>
    intro registry entry here alive
    rw [registries] at here
    exact ⟨entry, here, alive, rfl⟩
  case known =>
    intro registry kept
    rwa [registries]

/-! ## Handles to instances -/

theorem sound_acquire {pool : Pool D} (sound : pool.Sound) {ref : Ref} (live : pool.Live ref) :
    (pool.acquire ref).Sound := by
  have recounts := pool.recounts_acquire ref
  refine sound.congr_of_registries (recounts.stands_congr ?_) (fun _ => rfl) recounts
  intro other held found
  split
  · next same =>
    obtain ⟨known, again, some_handle⟩ := live
    rw [same, found] at again
    cases again
    exact iff_of_true (Nat.succ_ne_zero _) some_handle
  · exact Iff.rfl

/-- The last handle to an instance of a registry takes one entry out of one directory. -/
theorem sound_release_of_last {pool : Pool D} (sound : pool.Sound) {ref : Ref} {held : Instance}
    {home : RegistryId} (found : pool.instance? ref = some held) (last : held.handles = 1)
    (made : held.home = some home) : (pool.release ref).Sound := by
  have registries := registryAt?_release_of_last found last made
  constructor
  case listed =>
    intro registry entry here alive
    rw [registries] at here
    obtain ⟨before, earlier, rfl⟩ := Option.map_eq_some_iff.mp here
    by_cases same : home = registry
    · subst same
      rw [if_pos rfl] at alive ⊢
      obtain ⟨filing, files, lists⟩ := sound.listed home before earlier alive
      -- The sweep keeps the references that still stand for something, all but the one.
      have kept (other : Ref) (spec : Spec) : (pool.release ref).Stands home other spec ↔
          pool.Stands home other spec ∧
            ((pool.release ref).handles other != 0 && other != ref) = true := by
        rw [Bool.and_eq_true, bne_iff_ne, bne_iff_ne, stands_release_of_last found last]
        refine and_congr_right fun stands => ⟨fun apart => ⟨?_, apart⟩, And.right⟩
        exact live_iff.mp ((stands_release_of_last found last).mpr ⟨stands, apart⟩).live
      have confined : ∀ entry ∈ filing,
          ((pool.release ref).handles entry.1 != 0 && entry.1 != ref) = false →
            entry.2 = held.spec := by
        rintro ⟨other, spec⟩ entered struck
        have stands := (lists.stands other spec).mp entered
        have gone : ¬ (pool.release ref).Stands home other spec := fun still =>
          absurd ((kept other spec).mp still).2 (Bool.not_eq_true _ ▸ struck)
        rw [stands_release_of_last found last, and_iff_right stands, Decidable.not_not] at gone
        obtain ⟨known, again, _, _, rfl⟩ := stands
        rw [gone, found] at again
        cases again
        rfl
      exact ⟨_, LawfulDirectory.files_sweep files confined, lists.strike kept⟩
    · rw [if_neg same] at alive ⊢
      obtain ⟨filing, files, lists⟩ := sound.listed registry before earlier alive
      refine ⟨filing, files, lists.congr fun other spec => ?_⟩
      rw [stands_release_of_last found last, and_iff_left_iff_imp]
      rintro ⟨known, again, _, elsewhere, _⟩ rfl
      rw [found] at again
      cases again
      rw [made] at elsewhere
      exact same (Option.some.inj elsewhere)
  case homes =>
    refine (pool.recounts_release ref).homes sound ?_
    intro registry kept
    rwa [registries, Option.isSome_map]

theorem sound_release {pool : Pool D} (sound : pool.Sound) {ref : Ref} (live : pool.Live ref) :
    (pool.release ref).Sound := by
  obtain ⟨held, found, some_handle⟩ := live
  have recounts := pool.recounts_release ref
  by_cases last : held.handles = 1
  · cases made : held.home with
    | some home => exact sound_release_of_last sound found last made
    | none =>
      have registries := registryAt?_release_of_more found (.inr made)
      refine sound.congr_of_registries ?_ registries recounts
      intro registry other spec
      rw [recounts.stands_iff, Stands]
      refine exists_congr fun before => and_congr_right fun earlier => ?_
      by_cases same : ref = other
      · rw [← same, found] at earlier
        cases earlier
        rw [made]
        exact iff_of_false (fun stands => nomatch stands.2.1) (fun stands => nomatch stands.2.1)
      · rw [if_neg same]
  · have registries := registryAt?_release_of_more found (.inl last)
    refine sound.congr_of_registries (recounts.stands_congr ?_) registries recounts
    intro other before earlier
    split
    · next same =>
      rw [← same, found] at earlier
      cases earlier
      omega
    · exact Iff.rfl

/-! ## Making instances -/

theorem sound_share {pool : Pool D} (sound : pool.Sound) (spec : Spec) :
    (pool.share spec).2.Sound := by
  refine sound.congr ?same ?directories ?homes
  case same =>
    intro registry ref content
    rw [share, stands_make, or_iff_left]
    rintro ⟨none_made, _⟩
    cases none_made
  case directories =>
    intro registry entry found alive
    exact ⟨entry, found, alive, rfl⟩
  case homes =>
    intro ref held registry found home
    rw [share, instance?_make] at found
    split at found
    · cases found
      cases home
    · exact sound.homes ref held registry found home

/-- Striking out dead candidates strikes out nothing where all entries are live. -/
theorem sound_sweepDead {pool : Pool D} (sound : pool.Sound) (registry : RegistryId) (spec : Spec) :
    (pool.sweepDead registry spec).Sound := by
  constructor
  case listed =>
    intro other entry found alive
    rw [sweepDead, registryAt?_updateRegistry] at found
    obtain ⟨before, earlier, rfl⟩ := Option.map_eq_some_iff.mp found
    split at alive
    · obtain ⟨filing, files, lists⟩ := sound.listed other before earlier alive
      have kept : ∀ entry ∈ filing, (pool.handles entry.1 != 0) = true := fun entry entered =>
        bne_iff_ne.mpr (live_iff.mp ((lists.stands entry.1 entry.2).mp entered).live)
      have confined : ∀ entry ∈ filing, (pool.handles entry.1 != 0) = false → entry.2 = spec := by
        intro entry entered struck
        rw [kept entry entered] at struck
        cases struck
      have swept : Files
          (Directory.sweep before.directory spec fun ref => pool.handles ref != 0)
          (filing.filter fun entry => pool.handles entry.1 != 0) :=
        LawfulDirectory.files_sweep files confined
      rw [List.filter_eq_self.mpr kept] at swept
      next same =>
        rw [if_pos same]
        exact ⟨filing, swept, lists.congr fun _ _ => Iff.rfl⟩
    · next differs =>
      rw [if_neg differs]
      obtain ⟨filing, files, lists⟩ := sound.listed other before earlier alive
      exact ⟨filing, files, lists.congr fun _ _ => Iff.rfl⟩
  case homes =>
    intro ref held other found home
    rw [sweepDead, registryAt?_updateRegistry, Option.isSome_map]
    exact sound.homes ref held other found home

/-- A new instance may be entered for a content that nothing stands for. -/
theorem sound_enter {pool : Pool D} (sound : pool.Sound) {registry : RegistryId} {spec : Spec}
    (known : (pool.registryAt? registry).isSome)
    (missing : ∀ ref, ¬ pool.Stands registry ref spec) :
    (pool.enter registry spec).2.Sound := by
  have registries (other : RegistryId) :
      (pool.enter registry spec).2.registryAt? other = (pool.registryAt? other).map fun entry =>
        if registry = other then
          { entry with directory := Directory.insert entry.directory spec ⟨pool.instances.length⟩ }
        else entry :=
    registryAt?_updateRegistry (pool.make spec (some registry)).2 registry other _
  have stands {other : RegistryId} {ref : Ref} {content : Spec} :
      (pool.enter registry spec).2.Stands other ref content ↔ pool.Stands other ref content ∨
        (some registry = some other ∧ ref = ⟨pool.instances.length⟩ ∧ content = spec) :=
    stands_make
  constructor
  case listed =>
    intro other entry found alive
    rw [registries] at found
    obtain ⟨before, earlier, rfl⟩ := Option.map_eq_some_iff.mp found
    by_cases same : registry = other
    · subst same
      rw [if_pos rfl] at alive ⊢
      obtain ⟨filing, files, lists⟩ := sound.listed registry before earlier alive
      refine ⟨_, LawfulDirectory.files_insert files spec _,
        lists.extend (fun ref content => ?_) (fun _ => not_stands_next) missing⟩
      rw [stands, and_iff_right rfl]
    · rw [if_neg same] at alive ⊢
      obtain ⟨filing, files, lists⟩ := sound.listed other before earlier alive
      refine ⟨filing, files, lists.congr fun ref content => ?_⟩
      rw [stands, or_iff_left]
      rintro ⟨here, _⟩
      exact same (Option.some.inj here)
  case homes =>
    intro ref held other found home
    rw [registries, Option.isSome_map]
    change (pool.make spec (some registry)).2.instance? ref = some held at found
    rw [instance?_make] at found
    split at found
    · cases found
      rwa [← Option.some.inj home]
    · exact sound.homes ref held other found home

/-! ## Interning -/

/-- **In a sound pool interning finds the reference that stands for the content, and makes a new
instance exactly when there is none.** -/
theorem canonicalFor_spec {pool : Pool D} (sound : pool.Sound) {registry : RegistryId}
    {entry : Registry D} (found : pool.registryAt? registry = some entry)
    (alive : entry.handles ≠ 0) (spec : Spec) :
    (∃ ref, pool.Stands registry ref spec ∧
      pool.canonicalFor registry spec = (ref, (pool.sweepDead registry spec).acquire ref)) ∨
    ((∀ ref, ¬ pool.Stands registry ref spec) ∧
      pool.canonicalFor registry spec = (pool.sweepDead registry spec).enter registry spec) := by
  have swept := sound_sweepDead sound registry spec
  have entry_swept : ∃ after, (pool.sweepDead registry spec).registryAt? registry = some after ∧
      after.handles ≠ 0 := by
    rw [sweepDead, registryAt?_updateRegistry, found, Option.map_some, if_pos rfl]
    exact ⟨_, rfl, alive⟩
  obtain ⟨after, there, still_alive⟩ := entry_swept
  obtain ⟨filing, files, lists⟩ := swept.listed registry after there still_alive
  -- Sweeping leaves the instances alone, so what stands for something does so before and after.
  have candidates : ∀ ref ∈ Directory.candidates after.directory spec,
      ∃ content, pool.Stands registry ref content := by
    intro ref candidate
    have filed := LawfulDirectory.candidates_subset files spec candidate
    obtain ⟨⟨ref, content⟩, entered, rfl⟩ := List.mem_map.mp filed
    exact ⟨content, (lists.stands ref content).mp entered⟩
  have interned := canonicalFor_eq pool registry spec
  rw [directory_of_registryAt? there] at interned
  replace interned := interned fun ref candidate => (candidates ref candidate).choose_spec.live
  cases search : (Directory.candidates after.directory spec).find?
      ((pool.sweepDead registry spec).hasSpec spec) with
  | some ref =>
    rw [search] at interned
    obtain ⟨content, stands⟩ := candidates ref (List.mem_of_find?_eq_some search)
    have hit : (pool.sweepDead registry spec).hasSpec spec ref = true := List.find?_some search
    have same : pool.spec? ref = some spec := of_decide_eq_true hit
    rw [stands.spec?] at same
    cases same
    exact .inl ⟨ref, stands, interned⟩
  | none =>
    rw [search] at interned
    refine .inr ⟨fun ref stands => ?_, interned⟩
    have candidate := LawfulDirectory.mem_candidates files ((lists.stands ref spec).mpr stands)
    exact List.find?_eq_none.mp search ref candidate (decide_eq_true stands.spec?)

/-! ## Handles to registries -/

theorem sound_newRegistry {pool : Pool D} (sound : pool.Sound) : pool.newRegistry.2.Sound := by
  have unknown : ∀ ref spec, ¬ pool.Stands ⟨pool.registries.length⟩ ref spec := by
    rintro ref spec ⟨held, found, _, home, _⟩
    have inside := sound.homes ref held _ found home
    rw [registryAt?, List.getElem?_eq_none (Nat.le_refl _)] at inside
    cases inside
  constructor
  case listed =>
    intro registry entry found alive
    by_cases old : registry.index < pool.registries.length
    · rw [newRegistry, registryAt?, List.getElem?_append_left old] at found
      obtain ⟨filing, files, lists⟩ := sound.listed registry entry found alive
      exact ⟨filing, files, lists.congr fun _ _ => Iff.rfl⟩
    · have new : registry = ⟨pool.registries.length⟩ := by
        obtain ⟨inside, _⟩ := List.getElem?_eq_some_iff.mp found
        rw [newRegistry, List.length_append, List.length_singleton] at inside
        exact RegistryId.index_inj.mp (by dsimp only; omega)
      subst new
      rw [newRegistry, registryAt?, List.getElem?_concat_length] at found
      cases found
      exact ⟨[], LawfulDirectory.files_empty, fun ref spec =>
        iff_of_false List.not_mem_nil (unknown ref spec), List.nodup_nil, List.nodup_nil⟩
  case homes =>
    intro ref held registry found home
    have inside := sound.homes ref held registry found home
    rw [registryAt?, isSome_getElem?] at inside ⊢
    rw [newRegistry, List.length_append]
    omega

theorem sound_acquireRegistry {pool : Pool D} (sound : pool.Sound) {registry : RegistryId}
    {entry : Registry D} (found : pool.registryAt? registry = some entry)
    (alive : entry.handles ≠ 0) :
    (pool.acquireRegistry registry).Sound := by
  refine sound.congr (fun _ _ _ => Iff.rfl) ?directories ?homes
  case directories =>
    intro other after here still
    rw [acquireRegistry, registryAt?_updateRegistry] at here
    obtain ⟨before, earlier, rfl⟩ := Option.map_eq_some_iff.mp here
    by_cases same : registry = other
    · subst same
      rw [found] at earlier
      cases earlier
      rw [if_pos rfl]
      exact ⟨entry, found, alive, rfl⟩
    · rw [if_neg same] at still ⊢
      exact ⟨before, earlier, still, rfl⟩
  case homes =>
    intro ref held other earlier home
    rw [acquireRegistry, registryAt?_updateRegistry, Option.isSome_map]
    exact sound.homes ref held other earlier home

/-- The last handle to a registry takes the registry away, and the others leave it as it is. -/
theorem sound_releaseRegistry {pool : Pool D} (sound : pool.Sound) (registry : RegistryId) :
    (pool.releaseRegistry registry).Sound := by
  refine sound.congr (fun _ _ _ => Iff.rfl) ?directories ?homes
  case directories =>
    intro other after here alive
    rw [releaseRegistry, registryAt?_updateRegistry] at here
    obtain ⟨before, earlier, rfl⟩ := Option.map_eq_some_iff.mp here
    split at alive
    · split at alive
      · exact absurd rfl alive
      · next same more =>
        rw [if_pos same, if_neg more]
        exact ⟨before, earlier, fun none_left => alive (by rw [none_left]), rfl⟩
    · next differs =>
      rw [if_neg differs]
      exact ⟨before, earlier, alive, rfl⟩
  case homes =>
    intro ref held other earlier home
    rw [releaseRegistry, registryAt?_updateRegistry, Option.isSome_map]
    exact sound.homes ref held other earlier home

end Mounts.Pool

import Mathlib.Data.List.Nodup
import Mathlib.Data.List.Perm.Basic
import Mounts.Proofs.Registry.Accounts

/-!
# Pools over different directories

A directory may arrange its references in any way, as long as it can say whom it has filed.  Pools
over different directories then agree in all that can be seen of them.
-/

namespace Mounts

set_option autoImplicit false

/-!
## Directories that list their members

A directory that can be listed gives out every reference of its filing exactly once, in whatever
order.  Plain lists and buckets both do.

So the size of a living registry does not depend on how its directory is arranged: in a sound pool
it is the number of instances that the registry made canonical and that still have handles
(`Sound.size_eq`).
-/

open LawfulDirectory (Files)

/-- A lawful directory that gives out what it holds. -/
class ListedDirectory (D : Type) [Directory D] extends LawfulDirectory D where
  members_perm {directory : D} {filing : List (Ref × Spec)} (files : Files directory filing) :
    (Directory.members directory).Perm (filing.map (·.1))

instance : ListedDirectory Roster where
  members_perm {roster filing} files := by
    change roster.refs.Perm _
    rw [show roster.refs = filing.map (·.1) from files]

namespace Buckets

/-- The buckets behind the first one hold what was entered for other digests. -/
theorem Files.behind {first : UInt32 × List Ref} {rest : List (UInt32 × List Ref)}
    {filing : List (Ref × Spec)} (files : Files ⟨first :: rest⟩ filing) :
    Files ⟨rest⟩ (filing.filter fun entry => !decide (entry.2.digest = first.1)) := by
  obtain ⟨absent, further⟩ := List.nodup_cons.mp files.distinct
  refine ⟨further, (List.forall_mem_cons.mp files.filled).2, fun digest => ?_⟩
  rw [withDigest, List.filter_filter]
  by_cases here : digest = first.1
  · rw [here, bucket_of_absent absent, List.filter_eq_nil_iff.mpr, List.map_nil]
    simp
  · have found := files.found digest
    rw [bucket_cons, if_neg (Ne.symm here), withDigest] at found
    rw [found]
    refine congrArg _ (List.filter_congr fun entry _ => ?_)
    rw [Bool.eq_iff_iff, Bool.and_eq_true, Bool.not_eq_true', decide_eq_true_iff,
      decide_eq_false_iff_not, iff_self_and]
    rintro rfl
    exact here

/-- Buckets that hold a filing give out all of it. -/
theorem Files.members_perm {directory : Buckets} {filing : List (Ref × Spec)}
    (files : Files directory filing) :
    (directory.buckets.flatMap (·.2)).Perm (filing.map (·.1)) := by
  obtain ⟨buckets⟩ := directory
  induction buckets generalizing filing with
  | nil =>
    have nothing : filing = [] := by
      refine List.eq_nil_iff_forall_not_mem.mpr fun entry entered => ?_
      have listed : entry.1 ∈ withDigest entry.2.digest filing :=
        mem_withDigest.mpr ⟨entry.2, entered, rfl⟩
      rw [← files.found] at listed
      cases listed
    rw [nothing]
    rfl
  | cons first rest ih =>
    have here : first.2 = withDigest first.1 filing := by
      rw [← files.found, bucket_cons, if_pos rfl]
    rw [List.flatMap_cons, here, withDigest]
    refine ((ih files.behind).append_left _).trans ?_
    rw [← List.map_append]
    exact (List.filter_append_perm _ filing).map _

/-- Buckets that hold nothing are not there. -/
theorem Files.buckets_eq_nil {directory : Buckets} (files : Files directory []) :
    directory.buckets = [] := by
  refine List.eq_nil_iff_forall_not_mem.mpr fun bucket inside => files.filled bucket inside ?_
  rw [← bucket_of_mem files.distinct inside, files.found]
  rfl

instance : ListedDirectory Buckets where
  members_perm files := Files.members_perm files

end Buckets

namespace Pool

variable {D : Type} {pool : Pool D}

/-- Whether an instance has handles and was made canonical by a registry. -/
def livesIn (registry : RegistryId) (held : Instance) : Bool :=
  held.handles != 0 && held.home == some registry

theorem exists_stands_iff {registry : RegistryId} {ref : Ref} :
    (∃ spec, pool.Stands registry ref spec) ↔
      ∃ held, pool.instance? ref = some held ∧ livesIn registry held = true := by
  simp only [Stands, livesIn, Bool.and_eq_true, bne_iff_ne, beq_iff_eq]
  constructor
  · rintro ⟨_, held, found, some_handle, home, _⟩
    exact ⟨held, found, some_handle, home⟩
  · rintro ⟨held, found, some_handle, home⟩
    exact ⟨held.spec, held, found, some_handle, home, rfl⟩

variable [Directory D] [ListedDirectory D]

/-- What a living registry gives out are the references that stand for something there, each
once. -/
theorem Sound.members (sound : pool.Sound) {registry : RegistryId} {entry : Registry D}
    (found : pool.registryAt? registry = some entry) (alive : entry.handles ≠ 0) :
    (Directory.members entry.directory).Nodup ∧ ∀ ref,
      ref ∈ Directory.members entry.directory ↔ ∃ spec, pool.Stands registry ref spec := by
  obtain ⟨filing, files, lists⟩ := sound.listed registry entry found alive
  have perm := ListedDirectory.members_perm files
  refine ⟨perm.nodup_iff.mpr lists.once, fun ref => ?_⟩
  rw [perm.mem_iff, List.mem_map]
  constructor
  · rintro ⟨⟨ref, spec⟩, entered, rfl⟩
    exact ⟨spec, (lists.stands ref spec).mp entered⟩
  · rintro ⟨spec, stands⟩
    exact ⟨(ref, spec), (lists.stands ref spec).mpr stands, rfl⟩

/-- The size of a living registry is the length of what it gives out. -/
theorem Sound.size_eq_length (sound : pool.Sound) {registry : RegistryId} {entry : Registry D}
    (found : pool.registryAt? registry = some entry) (alive : entry.handles ≠ 0) :
    pool.size registry = (Directory.members entry.directory).length := by
  obtain ⟨_, members⟩ := sound.members found alive
  rw [size, directory_of_registryAt? found, List.filter_eq_self.mpr]
  intro ref listed
  obtain ⟨spec, stands⟩ := (members ref).mp listed
  exact bne_iff_ne.mpr (live_iff.mp stands.live)

/-- **The size of a living registry is the number of its instances that have handles.** -/
theorem Sound.size_eq (sound : pool.Sound) {registry : RegistryId} {entry : Registry D}
    (found : pool.registryAt? registry = some entry) (alive : entry.handles ≠ 0) :
    pool.size registry = pool.instances.countP (livesIn registry) := by
  obtain ⟨once, members⟩ := sound.members found alive
  have numbers : ((Directory.members entry.directory).map Ref.index).Perm
      (pool.instances.findIdxs (livesIn registry)) := by
    have injective : Function.Injective Ref.index := fun _ _ same => Ref.index_inj.mp same
    refine (List.perm_ext_iff_of_nodup (once.map injective) List.nodup_findIdxs).mpr fun index => ?_
    rw [List.mem_findIdxs_iff_exists_getElem_pos, List.mem_map]
    constructor
    · rintro ⟨ref, listed, rfl⟩
      obtain ⟨held, there, lives⟩ := exists_stands_iff.mp ((members ref).mp listed)
      obtain ⟨inside, rfl⟩ := List.getElem?_eq_some_iff.mp there
      exact ⟨inside, lives⟩
    · rintro ⟨inside, lives⟩
      refine ⟨⟨index⟩, (members ⟨index⟩).mpr (exists_stands_iff.mpr ?_), rfl⟩
      exact ⟨_, List.getElem?_eq_getElem inside, lives⟩
  rw [sound.size_eq_length found alive, ← List.length_map, numbers.length_eq,
    List.length_findIdxs]

/-- **Interning is a search among all that a living registry lists**, in whatever order: for the one
reference of the content, or else for the number of the next instance. -/
theorem Sound.canonicalFor_eq_find? (sound : pool.Sound) {registry : RegistryId}
    {entry : Registry D} (found : pool.registryAt? registry = some entry)
    (alive : entry.handles ≠ 0) (spec : Spec) :
    (pool.canonicalFor registry spec).1 =
      ((Directory.members entry.directory).find? (pool.hasSpec spec)).getD
        ⟨pool.instances.length⟩ := by
  obtain ⟨filing, _, lists⟩ := sound.listed registry entry found alive
  obtain ⟨_, members⟩ := sound.members found alive
  have stands {ref : Ref} (listed : ref ∈ Directory.members entry.directory)
      (same : pool.hasSpec spec ref = true) : pool.Stands registry ref spec := by
    obtain ⟨content, stands⟩ := (members ref).mp listed
    have asked : pool.spec? ref = some spec := of_decide_eq_true same
    rw [stands.spec?] at asked
    cases asked
    exact stands
  rcases canonicalFor_spec sound found alive spec with
    ⟨ref, standing, interned⟩ | ⟨missing, interned⟩
  · rw [interned]
    cases search : (Directory.members entry.directory).find? (pool.hasSpec spec) with
    | none =>
      have listed := (members ref).mpr ⟨spec, standing⟩
      exact absurd (decide_eq_true standing.spec?) (List.find?_eq_none.mp search ref listed)
    | some other =>
      exact lists.unique standing
        (stands (List.mem_of_find?_eq_some search) (List.find?_some search))
  · rw [interned]
    cases search : (Directory.members entry.directory).find? (pool.hasSpec spec) with
    | none => rfl
    | some other =>
      exact absurd (stands (List.mem_of_find?_eq_some search) (List.find?_some search))
        (missing other)

end Pool

/-!
## Pools that agree

Two pools agree when they hold the same instances and the same numbers of handles to registries.
How the directories are arranged, which may even differ in kind, is left out.

Agreeing pools cannot be told apart.  Every operation gives the same answer on both and keeps them
in agreement.  For most of them that is so because they never ask a directory.  Interning does, but
in sound pools the answer depends on what stands for the content only, and that is a matter of the
instances (`Agrees.canonicalFor`).
-/

namespace Pool

variable {D E : Type}

/-- Changing a registry changes one of the numbers of handles to registries. -/
theorem registryCounts_updateRegistry {pool : Pool D} {registry : RegistryId}
    {change : Registry D → Registry D} (count : Nat → Nat)
    (counted : ∀ entry, (change entry).handles = count entry.handles) :
    (pool.updateRegistry registry change).registries.map (·.handles) =
      (pool.registries.map (·.handles)).modify registry.index count := by
  apply List.ext_getElem?
  intro place
  rw [updateRegistry, List.getElem?_map, List.getElem?_modify, List.getElem?_modify,
    List.getElem?_map]
  cases pool.registries[place]? with
  | none => rfl
  | some entry =>
    simp only [Option.map_eq_map, Option.map_some]
    split
    · rw [counted]
    · rfl

/-- Pools with the same instances and with the same numbers of handles to registries. -/
structure Agrees (pool : Pool D) (other : Pool E) : Prop where
  instances : other.instances = pool.instances
  registries : other.registries.map (·.handles) = pool.registries.map (·.handles)

namespace Agrees

variable {pool : Pool D} {other : Pool E}

theorem instance? (agrees : pool.Agrees other) (ref : Ref) :
    other.instance? ref = pool.instance? ref := by
  rw [Pool.instance?, agrees.instances, Pool.instance?]

theorem spec? (agrees : pool.Agrees other) (ref : Ref) : other.spec? ref = pool.spec? ref := by
  rw [Pool.spec?, agrees.instance?, Pool.spec?]

theorem handles (agrees : pool.Agrees other) (ref : Ref) :
    other.handles ref = pool.handles ref := by
  rw [Pool.handles, agrees.instance?, Pool.handles]

theorem isCanonical (agrees : pool.Agrees other) (ref : Ref) :
    other.isCanonical ref = pool.isCanonical ref := by
  rw [Pool.isCanonical, agrees.instance?, Pool.isCanonical]

theorem sameContent (agrees : pool.Agrees other) (first second : Ref) :
    other.sameContent first second = pool.sameContent first second := by
  rw [Pool.sameContent, agrees.spec?, agrees.spec?, Pool.sameContent]

theorem stands_iff (agrees : pool.Agrees other) {registry : RegistryId} {ref : Ref} {spec : Spec} :
    other.Stands registry ref spec ↔ pool.Stands registry ref spec := by
  rw [Stands, agrees.instance?, Stands]

/-! ### Handles -/

/-- What happens to the registries may differ, as long as handles are counted in one way. -/
theorem updateRegistry (agrees : pool.Agrees other) (registry : RegistryId)
    {change : Registry D → Registry D} {changeOther : Registry E → Registry E} (count : Nat → Nat)
    (counted : ∀ entry, (change entry).handles = count entry.handles)
    (countedOther : ∀ entry, (changeOther entry).handles = count entry.handles) :
    (pool.updateRegistry registry change).Agrees (other.updateRegistry registry changeOther) where
  instances := agrees.instances
  registries := by
    rw [registryCounts_updateRegistry count counted,
      registryCounts_updateRegistry count countedOther, agrees.registries]

theorem acquire (agrees : pool.Agrees other) (ref : Ref) :
    (pool.acquire ref).Agrees (other.acquire ref) :=
  ⟨by rw [Pool.acquire, agrees.instances, Pool.acquire], agrees.registries⟩

theorem make (agrees : pool.Agrees other) (spec : Spec) (home : Option RegistryId) :
    (other.make spec home).1 = (pool.make spec home).1 ∧
      (pool.make spec home).2.Agrees (other.make spec home).2 := by
  refine ⟨?_, ?_, agrees.registries⟩
  · rw [Pool.make, agrees.instances, Pool.make]
  · rw [Pool.make, agrees.instances, Pool.make]

theorem acquireRegistry (agrees : pool.Agrees other) (registry : RegistryId) :
    (pool.acquireRegistry registry).Agrees (other.acquireRegistry registry) :=
  agrees.updateRegistry registry (· + 1) (fun _ => rfl) (fun _ => rfl)

variable [Directory D] [Directory E]

theorem empty : (Pool.empty : Pool D).Agrees (Pool.empty : Pool E) :=
  ⟨rfl, rfl⟩

theorem release (agrees : pool.Agrees other) (ref : Ref) :
    (pool.release ref).Agrees (other.release ref) := by
  rw [Pool.release, Pool.release, agrees.instance?]
  cases pool.instance? ref with
  | none => exact agrees
  | some held =>
    obtain ⟨spec, home, handles⟩ := held
    have lowered : Agrees
        { pool with instances := pool.instances.set ref.index ⟨spec, home, handles - 1⟩ }
        { other with instances := other.instances.set ref.index ⟨spec, home, handles - 1⟩ } :=
      ⟨by rw [agrees.instances], agrees.registries⟩
    cases home with
    | none => exact lowered
    | some registry =>
      dsimp only
      split
      · exact lowered.updateRegistry registry id (fun _ => rfl) (fun _ => rfl)
      · exact lowered

theorem releaseAll (agrees : pool.Agrees other) (refs : List Ref) :
    (pool.releaseAll refs).Agrees (other.releaseAll refs) := by
  induction refs generalizing pool other with
  | nil => exact agrees
  | cons ref refs ih => exact ih (agrees.release ref)

theorem newRegistry (agrees : pool.Agrees other) :
    other.newRegistry.1 = pool.newRegistry.1 ∧ pool.newRegistry.2.Agrees other.newRegistry.2 := by
  have lengths := congrArg List.length agrees.registries
  rw [List.length_map, List.length_map] at lengths
  refine ⟨?_, agrees.instances, ?_⟩
  · rw [Pool.newRegistry, lengths, Pool.newRegistry]
  · rw [Pool.newRegistry, List.map_append, agrees.registries, Pool.newRegistry, List.map_append]
    rfl

theorem releaseRegistry (agrees : pool.Agrees other) (registry : RegistryId) :
    (pool.releaseRegistry registry).Agrees (other.releaseRegistry registry) := by
  refine agrees.updateRegistry registry (· - 1) (fun entry => ?_) (fun entry => ?_)
  · split
    · next last => rw [last]
    · rfl
  · split
    · next last => rw [last]
    · rfl

/-! ### Interning -/

theorem sweepDead (agrees : pool.Agrees other) (registry : RegistryId) (spec : Spec) :
    (pool.sweepDead registry spec).Agrees (other.sweepDead registry spec) :=
  agrees.updateRegistry registry id (fun _ => rfl) (fun _ => rfl)

theorem enter (agrees : pool.Agrees other) (registry : RegistryId) (spec : Spec) :
    (other.enter registry spec).1 = (pool.enter registry spec).1 ∧
      (pool.enter registry spec).2.Agrees (other.enter registry spec).2 := by
  obtain ⟨ref, made⟩ := agrees.make spec (some registry)
  exact ⟨ref, made.updateRegistry registry id (fun _ => rfl) (fun _ => rfl)⟩

variable [LawfulDirectory D] [LawfulDirectory E] {held : List Ref} {keys : List RegistryId}

/-- **Interning gives the same answer on pools that agree.** -/
theorem canonicalFor (agrees : pool.Agrees other) (kept : pool.Kept held keys)
    (keptOther : other.Kept held keys) {registry : RegistryId} (holds : registry ∈ global :: keys)
    (spec : Spec) :
    (other.canonicalFor registry spec).1 = (pool.canonicalFor registry spec).1 ∧
      (pool.canonicalFor registry spec).2.Agrees (other.canonicalFor registry spec).2 := by
  obtain ⟨entry, found, alive⟩ := kept.alive holds
  obtain ⟨entryOther, foundOther, aliveOther⟩ := keptOther.alive holds
  have swept := agrees.sweepDead registry spec
  -- What stands for the content on one pool does so on the other, so both find it or neither does.
  rcases canonicalFor_spec kept.sound found alive spec with
    ⟨ref, stands, interned⟩ | ⟨missing, interned⟩
  · rcases canonicalFor_spec keptOther.sound foundOther aliveOther spec with
      ⟨refOther, standsOther, internedOther⟩ | ⟨missingOther, _⟩
    · obtain ⟨filing, _, lists⟩ := kept.sound.listed registry entry found alive
      obtain rfl := lists.unique (agrees.stands_iff.mp standsOther) stands
      rw [interned, internedOther]
      exact ⟨rfl, swept.acquire refOther⟩
    · exact absurd (agrees.stands_iff.mpr stands) (missingOther ref)
  · rcases canonicalFor_spec keptOther.sound foundOther aliveOther spec with
      ⟨refOther, standsOther, _⟩ | ⟨_, internedOther⟩
    · exact absurd (agrees.stands_iff.mp standsOther) (missing refOther)
    · rw [interned, internedOther]
      exact swept.enter registry spec

theorem canonicalize (agrees : pool.Agrees other) (kept : pool.Kept held keys)
    (keptOther : other.Kept held keys) {registry : RegistryId} (holds : registry ∈ global :: keys)
    (ref : Ref) :
    (other.canonicalize registry ref).1 = (pool.canonicalize registry ref).1 ∧
      (pool.canonicalize registry ref).2.Agrees (other.canonicalize registry ref).2 := by
  rw [Pool.canonicalize, Pool.canonicalize, agrees.instance?]
  cases pool.instance? ref with
  | none => exact ⟨rfl, agrees⟩
  | some shared =>
    dsimp only
    split
    · exact ⟨rfl, agrees.acquire ref⟩
    · exact agrees.canonicalFor kept keptOther holds shared.spec

end Agrees

end Pool

end Mounts

import Mounts.Proofs.Registry.Agreeing
import Mounts.Proofs.Session.Kept
import Mounts.Proofs.Spec.Built

/-!
# Instances in sessions

After any run of a session, each registry has one instance of a content at a time
(`interning_after`), and all handles are accounted for (`handles_accounted`).
-/

namespace Mounts

set_option autoImplicit false

/-!
## One instance for each content

Whatever a session did, in every registry that is still alive contents and canonical instances
belong together one to one, the buckets hold exactly those instances, and asking for a content gives
the instance that there is or else a new one (`interning_after`).  Contents with one digest share a
bucket and do not get in each other's way.
-/

namespace Session

/-- **After any run, contents and canonical instances belong together one to one in every living
registry.**  The first part says that the session accounts for all handles there are. -/
theorem interning_after (steps : List SessionStep) (session : Session Buckets)
    (run : session = (start : Session Buckets).after steps) (registry : RegistryId)
    (alive : registry ∈ Pool.global :: session.keys) :
    (∀ ref, session.pool.handles ref = session.held.count ref) ∧
    (∀ first ∈ session.held, ∀ second ∈ session.held, ∀ one other : Instance,
      session.pool.instance? first = some one → one.home = some registry →
      session.pool.instance? second = some other → other.home = some registry →
        (first = second ↔ one.spec = other.spec)) ∧
    (∀ ref ∈ session.held, ∀ canonical : Instance,
      session.pool.instance? ref = some canonical → canonical.home = some registry →
        ((session.pool.directory registry).bucket canonical.spec.digest).count ref = 1) ∧
    ((session.pool.directory registry).buckets.map (·.1)).Nodup ∧
    (∀ bucket ∈ (session.pool.directory registry).buckets, bucket.2 ≠ [] ∧
      ∀ ref ∈ bucket.2, ref ∈ session.held ∧ ∃ canonical : Instance,
        session.pool.instance? ref = some canonical ∧ canonical.home = some registry ∧
          canonical.spec.digest = bucket.1) ∧
    (∀ spec : Spec,
      (∀ ref ∈ session.held, ∀ canonical : Instance,
        session.pool.instance? ref = some canonical → canonical.home = some registry →
          canonical.spec = spec → (session.pool.canonicalFor registry spec).1 = ref) ∧
      ((∀ ref ∈ session.held, ∀ canonical : Instance,
        session.pool.instance? ref = some canonical → canonical.home = some registry →
          canonical.spec ≠ spec) →
        session.pool.instance? (session.pool.canonicalFor registry spec).1 = none ∧
          (session.pool.canonicalFor registry spec).2.instance?
            (session.pool.canonicalFor registry spec).1 = some ⟨spec, some registry, 1⟩)) := by
  have kept : session.pool.Kept session.held session.keys := run ▸ (kept_after steps).pool
  obtain ⟨entry, found, some_handle⟩ := kept.alive alive
  obtain ⟨filing, files, lists⟩ := kept.sound.listed registry entry found some_handle
  -- What is held and what is live is the same, so a canonical instance that is held stands for
  -- its content.
  have stands {ref : Ref} (holds : ref ∈ session.held) {canonical : Instance}
      (there : session.pool.instance? ref = some canonical)
      (home : canonical.home = some registry) :
      session.pool.Stands registry ref canonical.spec :=
    kept.stands_iff.mpr ⟨holds, canonical, there, home, rfl⟩
  rw [Pool.directory_of_registryAt? found]
  refine ⟨kept.refs, ?identity, ?once, files.distinct, ?buckets, ?answers⟩
  case identity =>
    intro first holdsFirst second holdsSecond one other thereFirst homeFirst thereSecond homeSecond
    constructor
    · rintro rfl
      rw [thereFirst] at thereSecond
      cases thereSecond
      rfl
    · intro same
      have standsFirst := stands holdsFirst thereFirst homeFirst
      rw [same] at standsFirst
      exact lists.unique standsFirst (stands holdsSecond thereSecond homeSecond)
  case once =>
    intro ref holdsRef canonical there home
    have entered := (lists.stands ref canonical.spec).mpr (stands holdsRef there home)
    rw [files.found]
    refine List.count_eq_one_of_mem ?_ (Buckets.mem_withDigest.mpr ⟨_, entered, rfl⟩)
    exact lists.once.sublist (List.filter_sublist.map _)
  case buckets =>
    intro bucket inside
    refine ⟨files.filled bucket inside, fun ref listed => ?_⟩
    rw [← Buckets.bucket_of_mem files.distinct inside, files.found] at listed
    obtain ⟨spec, entered, digest⟩ := Buckets.mem_withDigest.mp listed
    obtain ⟨holdsRef, canonical, there, home, rfl⟩ :=
      kept.stands_iff.mp ((lists.stands ref spec).mp entered)
    exact ⟨holdsRef, canonical, there, home, digest⟩
  case answers =>
    intro spec
    rcases Pool.canonicalFor_spec kept.sound found some_handle spec with
      ⟨ref, standing, interned⟩ | ⟨missing, interned⟩
    · rw [interned]
      constructor
      · intro other holdsOther canonical there home same
        exact lists.unique standing (same ▸ stands holdsOther there home)
      · intro nobody
        obtain ⟨holdsRef, canonical, there, home, content⟩ := kept.stands_iff.mp standing
        exact absurd content (nobody ref holdsRef canonical there home)
    · rw [interned]
      constructor
      · intro ref holdsRef canonical there home same
        exact absurd (same ▸ stands holdsRef there home) (missing ref)
      · intro _
        exact Pool.instance?_enter (session.pool.sweepDead registry spec) registry spec

/-- The guest spec with a key renamed, which has the same digest. -/
def twin : Spec := ⟨⟨[("home", "h"), ("type", "ftp")], by decide +kernel⟩, "/pub"⟩

/-- Makes a registry, interns two specs of one digest in it and drops the first. -/
def crowding : List SessionStep :=
  [.registry (.make "r"), .registry (.canonicalFor "a" "r" Spec.guest),
    .registry (.canonicalFor "b" "r" twin), .registry (.dropRef "a")]

/-- The spec that was kept is found in the bucket that both were in, and the one that was dropped is
made anew. -/
theorem interning_after_crowding :
    Spec.guest.digest = twin.digest ∧
    ⟨1⟩ ∈ Pool.global :: ((start : Session Buckets).after crowding).keys ∧
    (((start : Session Buckets).after crowding).pool.canonicalFor ⟨1⟩ twin).1 = ⟨1⟩ ∧
    ((start : Session Buckets).after crowding).pool.instance?
      (((start : Session Buckets).after crowding).pool.canonicalFor ⟨1⟩ Spec.guest).1 = none := by
  have alive : ⟨1⟩ ∈ Pool.global :: ((start : Session Buckets).after crowding).keys := by
    decide +kernel
  obtain ⟨_, _, _, _, _, answers⟩ := interning_after crowding _ rfl ⟨1⟩ alive
  have holds : (⟨1⟩ : Ref) ∈ ((start : Session Buckets).after crowding).held := by decide +kernel
  have there : ((start : Session Buckets).after crowding).pool.instance? ⟨1⟩ =
      some ⟨twin, some ⟨1⟩, 1⟩ := by decide +kernel
  have others : ((start : Session Buckets).after crowding).held = [⟨1⟩] := by decide +kernel
  refine ⟨by decide +kernel, alive, ?_, ?_⟩
  · exact (answers twin).1 ⟨1⟩ holds _ there rfl rfl
  · refine ((answers Spec.guest).2 fun ref holdsRef canonical found _ => ?_).1
    rw [others, List.mem_singleton] at holdsRef
    rw [holdsRef, there] at found
    cases found
    decide +kernel

end Session

/-!
## Every handle has a holder

The handles to an instance are the named references, the locations and the table entries to it, and
nothing else: whatever takes handles on its way gives them back.  Interning, canonicalizing and
mounting change the number for the instance that they answer and for no other: by one, and by
another one if a table lists the instance from then on.

A living registry counts the instances that it made canonical and that still have handles.  With the
last of them the last bucket goes (`handles_accounted`).
-/

namespace Pool

variable {D : Type} [Directory D] [LawfulDirectory D] {pool : Pool D} {held : List Ref}
  {keys : List RegistryId}

/-- One more reference that is held is one more handle to its instance. -/
theorem Kept.handles_of_cons (kept : pool.Kept held keys) {after : Pool D} {ref : Ref}
    (later : after.Kept (ref :: held) keys) (other : Ref) :
    after.handles other = pool.handles other + if ref = other then 1 else 0 := by
  rw [later.refs, kept.refs, List.count_cons]
  simp only [beq_iff_eq]

theorem Kept.handles_canonicalFor (kept : pool.Kept held keys) {registry : RegistryId}
    (holds : registry ∈ global :: keys) (spec : Spec) (other : Ref) :
    (pool.canonicalFor registry spec).2.handles other =
      pool.handles other + if (pool.canonicalFor registry spec).1 = other then 1 else 0 :=
  kept.handles_of_cons (kept.canonicalFor holds spec) other

theorem Kept.handles_canonicalize (kept : pool.Kept held keys) {registry : RegistryId}
    (holds : registry ∈ global :: keys) {ref : Ref} (live : pool.Live ref) (other : Ref) :
    (pool.canonicalize registry ref).2.handles other =
      pool.handles other + if (pool.canonicalize registry ref).1 = other then 1 else 0 :=
  kept.handles_of_cons (kept.canonicalize holds live) other

/-- Mounting takes the handle that it answers and, if the mount is new, one for the table. -/
theorem Kept.handles_mount (kept : pool.Kept held keys) (table : Table) {ref : Ref}
    (live : pool.Live ref) (other : Ref) :
    (table.mount pool ref).2.2.handles other = pool.handles other +
      if (table.mount pool ref).1 = other then
        if other ∈ table.mounts then 1 else 2
      else 0 := by
  have counted := kept.handles_canonicalize List.mem_cons_self live other
  have later := kept.canonicalize List.mem_cons_self live
  rw [Table.mount]
  generalize pool.canonicalize global ref = answer at counted later ⊢
  obtain ⟨mounted, after⟩ := answer
  dsimp only at counted later ⊢
  split
  · next listed =>
    rw [counted]
    split
    · next same => rw [if_pos (same ▸ listed)]
    · rfl
  · next unlisted =>
    rw [handles_acquire (later.live List.mem_cons_self), counted]
    dsimp only
    split
    · next same => rw [if_neg (same ▸ unlisted)]
    · rfl

end Pool

namespace Session

/-- **After any run every handle has a holder, and registries count the instances held.** -/
theorem handles_accounted (steps : List SessionStep) (session : Session Buckets)
    (run : session = (start : Session Buckets).after steps) :
    (∀ ref, session.pool.handles ref = session.refs.values.count ref +
      (session.locations.values.map (·.ref)).count ref +
        (session.tables.values.flatMap (·.mounts)).count ref) ∧
    (∀ registry ∈ Pool.global :: session.keys, ∀ (spec : Spec) (other : Ref),
      (session.pool.canonicalFor registry spec).2.handles other = session.pool.handles other +
        if (session.pool.canonicalFor registry spec).1 = other then 1 else 0) ∧
    (∀ registry ∈ Pool.global :: session.keys, ∀ ref ∈ session.held, ∀ other : Ref,
      (session.pool.canonicalize registry ref).2.handles other = session.pool.handles other +
        if (session.pool.canonicalize registry ref).1 = other then 1 else 0) ∧
    (∀ (table : Table), ∀ ref ∈ session.held, ∀ other : Ref,
      (table.mount session.pool ref).2.2.handles other = session.pool.handles other +
        if (table.mount session.pool ref).1 = other then
          if other ∈ table.mounts then 1 else 2
        else 0) ∧
    (∀ registry ∈ Pool.global :: session.keys,
      session.pool.size registry = session.pool.instances.countP fun held =>
        held.handles != 0 && held.home == some registry) ∧
    (∀ registry ∈ Pool.global :: session.keys,
      (∀ ref ∈ session.held, ∀ canonical : Instance,
        session.pool.instance? ref = some canonical → canonical.home ≠ some registry) →
      session.pool.size registry = 0 ∧ (session.pool.directory registry).buckets = []) := by
  have kept : session.pool.Kept session.held session.keys := run ▸ (kept_after steps).pool
  refine ⟨?accounts, ?interning, ?canonicalizing, ?mounting, ?counting, ?emptied⟩
  case accounts =>
    intro ref
    rw [kept.refs, held, List.count_append, List.count_append]
  case interning =>
    intro registry holds spec other
    exact kept.handles_canonicalFor holds spec other
  case canonicalizing =>
    intro registry holds ref holdsRef other
    exact kept.handles_canonicalize holds (kept.live holdsRef) other
  case mounting =>
    intro table ref holdsRef other
    exact kept.handles_mount table (kept.live holdsRef) other
  case counting =>
    intro registry holds
    obtain ⟨entry, found, alive⟩ := kept.alive holds
    exact kept.sound.size_eq found alive
  case emptied =>
    intro registry holds nobody
    obtain ⟨entry, found, alive⟩ := kept.alive holds
    obtain ⟨filing, files, lists⟩ := kept.sound.listed registry entry found alive
    have nothing : filing = [] := by
      refine List.eq_nil_iff_forall_not_mem.mpr fun entry entered => ?_
      obtain ⟨holdsRef, canonical, there, home, _⟩ :=
        kept.stands_iff.mp ((lists.stands entry.1 entry.2).mp entered)
      exact nobody entry.1 holdsRef canonical there home
    subst nothing
    have emptied : entry.directory.buckets = [] := Buckets.Files.buckets_eq_nil files
    rw [kept.sound.size_eq_length found alive, Pool.directory_of_registryAt? found]
    refine ⟨?_, emptied⟩
    rw [(ListedDirectory.members_perm files).length_eq]
    rfl

/-- Interns a spec in a registry, and goes to a location on it and mounts it. -/
def settling : List SessionStep :=
  [.registry (.make "r"), .registry (.canonicalFor "a" "r" Spec.guest),
    .location (.ofRef "l" "a" "/x"), .table (.make "t"), .table (.mount "t" "a" none)]

/-- Gives everything that `settling` holds on the spec back. -/
def leaving : List SessionStep :=
  [.registry (.dropRef "a"), .location (.drop "l"), .table (.drop "t")]

/-- Three handles are held on the spec, none of which interning another one touches, and without
them the registry is empty. -/
theorem handles_accounted_settling :
    ⟨1⟩ ∈ Pool.global :: ((start : Session Buckets).after settling).keys ∧
    ((start : Session Buckets).after settling).pool.handles ⟨0⟩ = 3 ∧
    (((start : Session Buckets).after settling).pool.canonicalFor ⟨1⟩ twin).2.handles ⟨0⟩ = 3 ∧
    ((start : Session Buckets).after settling).pool.size ⟨1⟩ = 1 ∧
    ((start : Session Buckets).after (settling ++ leaving)).pool.size ⟨1⟩ = 0 ∧
    (((start : Session Buckets).after (settling ++ leaving)).pool.directory ⟨1⟩).buckets = [] := by
  have alive : ⟨1⟩ ∈ Pool.global :: ((start : Session Buckets).after settling).keys := by
    decide +kernel
  have alive_later :
      ⟨1⟩ ∈ Pool.global :: ((start : Session Buckets).after (settling ++ leaving)).keys := by
    decide +kernel
  have nobody : ((start : Session Buckets).after (settling ++ leaving)).held = [] := by
    decide +kernel
  obtain ⟨accounts, interning, _, _, counting, _⟩ := handles_accounted settling _ rfl
  obtain ⟨_, _, _, _, _, emptied⟩ := handles_accounted (settling ++ leaving) _ rfl
  refine ⟨alive, ?_, ?_, ?_, emptied ⟨1⟩ alive_later ?_⟩
  · rw [accounts]
    decide +kernel
  · rw [interning ⟨1⟩ alive]
    decide +kernel
  · rw [counting ⟨1⟩ alive]
    decide +kernel
  · intro ref holdsRef
    rw [nobody] at holdsRef
    cases holdsRef

end Session

end Mounts

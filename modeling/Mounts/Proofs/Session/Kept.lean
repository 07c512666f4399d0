import Mounts.Proofs.Registry.Accounts
import Mounts.Proofs.Session.Actions

/-!
# Sessions keep their pools

What a session holds is told by what is filed in it: a named reference and a location hold one
handle each, and a table one for each of its mounts; a named registry holds one handle to the
registry.  A session is kept when these are all the handles there are on its pool.

Filing and dropping is the same for all three collections, but for the references that an entry
names: what comes in was taken before, what goes out is given back, and everything else is held as
it was (`kept_exchange`).

Every action keeps a session (`Kept.execute`), so every step does (`Kept.apply`), and so does every
run from the start (`kept_after`).  In particular the pool is sound after any run whatsoever.
-/

namespace Mounts.Session

set_option autoImplicit false

variable {D : Type}

/-! ## What is held after entries were exchanged -/

section

variable {α : Type} {refsOf : α → List Ref} {collection changed : Keyed α} {old new : List α}
  {held after others : List Ref}

/-- If entries go out of a collection and others come in, so do the references that they name. -/
theorem held_exchange (moved : (old ++ changed.values).Perm (new ++ collection.values))
    (before : held.Perm (collection.values.flatMap refsOf ++ others))
    (later : after.Perm (changed.values.flatMap refsOf ++ others)) :
    (old.flatMap refsOf ++ after).Perm (new.flatMap refsOf ++ held) := by
  have named := (moved.flatMap_right refsOf).append_right others
  rw [List.flatMap_append, List.flatMap_append, List.append_assoc, List.append_assoc] at named
  exact (later.append_left _).trans (named.trans (before.symm.append_left _))

/-- **Handles stay accounted for when entries are exchanged**, if those of the new entries were
taken and those of the old ones are given back. -/
theorem kept_exchange [Directory D] [LawfulDirectory D] {pool : Pool D} {keys : List RegistryId}
    (kept : pool.Kept (new.flatMap refsOf ++ held) keys)
    (moved : (old ++ changed.values).Perm (new ++ collection.values))
    (before : held.Perm (collection.values.flatMap refsOf ++ others))
    (later : after.Perm (changed.values.flatMap refsOf ++ others)) :
    (pool.releaseAll (old.flatMap refsOf)).Kept after keys :=
  (kept.perm (held_exchange moved before later).symm).releaseAll

end

theorem held_perm_refs (session : Session D) :
    session.held.Perm (session.refs.values.flatMap ([·]) ++
      (session.locations.values.map (·.ref) ++ session.tables.values.flatMap (·.mounts))) := by
  rw [held, List.append_assoc, List.flatMap_singleton']

theorem held_perm_locations (session : Session D) :
    session.held.Perm (session.locations.values.flatMap ([·.ref]) ++
      (session.refs.values ++ session.tables.values.flatMap (·.mounts))) := by
  rw [held, List.append_assoc, List.map_eq_flatMap]
  exact List.perm_append_comm_assoc _ _ _

theorem held_perm_tables (session : Session D) :
    session.held.Perm (session.tables.values.flatMap (·.mounts) ++
      (session.refs.values ++ session.locations.values.map (·.ref))) :=
  List.perm_append_comm

/-- What is held after the table of a name was exchanged. -/
theorem held_of_table (session : Session D) {name : String} {table : Table}
    (found : session.tables.get? name = some table) (changed : Table) :
    (table.mounts ++ { session with tables := session.tables.insert name changed }.held).Perm
      (changed.mounts ++ session.held) := by
  have moved := Keyed.values_insert_perm session.tables name changed
  rw [found] at moved
  have exchanged : ([table].flatMap (·.mounts) ++ _).Perm ([changed].flatMap (·.mounts) ++ _) :=
    held_exchange moved session.held_perm_tables
      (held_perm_tables { session with tables := session.tables.insert name changed })
  rwa [List.flatMap_singleton, List.flatMap_singleton] at exchanged

variable [Directory D]

/-! ## Giving handles back -/

theorem letGoRef_eq (pool : Pool D) (old : Option Ref) :
    letGoRef pool old = pool.releaseAll (old.toList.flatMap ([·])) := by
  cases old with
  | none => rfl
  | some ref => rfl

theorem letGoRef_map_eq (pool : Pool D) (old : Option Location) :
    letGoRef pool (old.map (·.ref)) = pool.releaseAll (old.toList.flatMap ([·.ref])) := by
  cases old with
  | none => rfl
  | some location => rfl

theorem letGoTable_eq (pool : Pool D) (old : Option Table) :
    letGoTable pool old = pool.releaseAll (old.toList.flatMap (·.mounts)) := by
  cases old with
  | none => rfl
  | some table =>
    rw [Option.toList_some, List.flatMap_singleton]
    rfl

variable [LawfulDirectory D]

/-- A session that holds all the handles there are. -/
structure Kept (session : Session D) : Prop where
  pool : session.pool.Kept session.held session.keys

theorem kept_start : (start : Session D).Kept :=
  ⟨Pool.kept_empty⟩

/-! ## Filing and dropping -/

variable {session : Session D} {pool : Pool D}

theorem kept_registries (new : List RegistryId) {registries : Keyed RegistryId}
    {old : Option RegistryId} (kept : pool.Kept session.held (new ++ session.keys))
    (moved : (old.toList ++ registries.values).Perm (new ++ session.registries.values)) :
    Kept { session with pool := letGoRegistry pool old, registries := registries } := by
  have settled := kept.perm_keys moved.symm
  refine ⟨?_⟩
  cases old with
  | none => exact settled
  | some registry => exact settled.releaseRegistry

theorem kept_refs (new : List Ref) {refs : Keyed Ref} {old : Option Ref}
    (kept : pool.Kept (new.flatMap ([·]) ++ session.held) session.keys)
    (moved : (old.toList ++ refs.values).Perm (new ++ session.refs.values)) :
    Kept { session with pool := letGoRef pool old, refs := refs } := by
  refine ⟨?_⟩
  rw [letGoRef_eq]
  exact kept_exchange kept moved session.held_perm_refs (held_perm_refs _)

theorem kept_locations (new : List Location) {locations : Keyed Location} {old : Option Location}
    (kept : pool.Kept (new.flatMap ([·.ref]) ++ session.held) session.keys)
    (moved : (old.toList ++ locations.values).Perm (new ++ session.locations.values)) :
    Kept { session with pool := letGoRef pool (old.map (·.ref)), locations := locations } := by
  refine ⟨?_⟩
  rw [letGoRef_map_eq]
  exact kept_exchange kept moved session.held_perm_locations (held_perm_locations _)

theorem kept_tables (new : List Table) {tables : Keyed Table} {old : Option Table}
    (kept : pool.Kept (new.flatMap (·.mounts) ++ session.held) session.keys)
    (moved : (old.toList ++ tables.values).Perm (new ++ session.tables.values)) :
    Kept { session with pool := letGoTable pool old, tables := tables } := by
  refine ⟨?_⟩
  rw [letGoTable_eq]
  exact kept_exchange kept moved session.held_perm_tables (held_perm_tables _)

/-! ## Mounting and unmounting -/

/-- A table that a spec was mounted in holds a handle more if the spec was not there. -/
theorem kept_mount (kept : session.Kept) {name : String} {table : Table}
    (found : session.tables.get? name = some table) {ref : Ref} (live : session.pool.Live ref) :
    (table.mount session.pool ref).2.2.Kept ((table.mount session.pool ref).1 ::
      { session with
        tables := session.tables.insert name (table.mount session.pool ref).2.1 }.held)
      session.keys := by
  have canonical := kept.pool.canonicalize List.mem_cons_self live
  rw [Table.mount]
  generalize session.pool.canonicalize Pool.global ref = answer at canonical ⊢
  obtain ⟨mounted, pool⟩ := answer
  dsimp only at canonical ⊢
  split
  · have same := (List.perm_append_left_iff _).mp (session.held_of_table found table)
    exact canonical.perm (same.symm.cons mounted)
  · have doubled := canonical.acquire (canonical.live List.mem_cons_self)
    have moved := session.held_of_table found ⟨table.mounts ++ [mounted]⟩
    rw [List.append_assoc] at moved
    have longer := (List.perm_append_left_iff _).mp moved
    exact doubled.perm (longer.symm.cons mounted)

theorem kept_unmount (kept : session.Kept) {name : String} {table : Table}
    (found : session.tables.get? name = some table) (spec : Spec) :
    Kept { session with
      pool := (table.unmount session.pool spec).2.2
      tables := session.tables.insert name (table.unmount session.pool spec).2.1 } := by
  refine ⟨?_⟩
  rw [Table.unmount, List.partition_eq_filter_filter]
  generalize (fun ref => session.pool.spec? ref == some spec) = wanted
  have parted := List.filter_append_perm wanted table.mounts
  have moved := session.held_of_table found ⟨table.mounts.filter (!wanted ·)⟩
  refine (kept.pool.perm ?_).releaseAll
  change session.held.Perm (table.mounts.filter wanted ++ { session with
    tables := session.tables.insert name ⟨table.mounts.filter (!wanted ·)⟩ }.held)
  rw [List.perm_iff_count]
  intro other
  have split_up := parted.count_eq other
  have counted := moved.count_eq other
  simp only [List.count_append] at split_up counted ⊢
  omega

/-! ## Actions -/

theorem Kept.take (kept : session.Kept) {source : Source} (grounded : source.Grounded session) :
    (source.take session.pool).2.Kept ((source.take session.pool).1 :: session.held)
      session.keys := by
  cases source with
  | share spec => exact kept.pool.share spec
  | canonicalFor registry spec => exact kept.pool.canonicalFor grounded spec
  | canonicalize registry ref =>
    exact kept.pool.canonicalize grounded.1 (kept.pool.live grounded.2)
  | again ref => exact kept.pool.acquire (kept.pool.live grounded)

/-- **Every action keeps a session.** -/
theorem Kept.execute (kept : session.Kept) {action : Action} (grounded : action.Grounded session) :
    (session.execute action).2.Kept := by
  cases action with
  | tell reply => exact kept
  | makeRegistry name =>
    exact kept_registries [_] kept.pool.newRegistry (Keyed.values_insert_perm _ name _)
  | copyRegistry name registry =>
    exact kept_registries [registry] (kept.pool.acquireRegistry grounded)
      (Keyed.values_insert_perm _ name _)
  | dropRegistry name => exact kept_registries [] kept.pool (Keyed.values_perm _ name)
  | fileRef name source =>
    exact kept_refs [_] (kept.take grounded) (Keyed.values_insert_perm _ name _)
  | dropRef name => exact kept_refs [] kept.pool (Keyed.values_perm _ name)
  | fileLocation reply name source path =>
    exact kept_locations [⟨_, path⟩] (kept.take grounded) (Keyed.values_insert_perm _ name _)
  | dropLocation name => exact kept_locations [] kept.pool (Keyed.values_perm _ name)
  | makeTable name =>
    exact kept_tables [Table.empty] kept.pool (Keyed.values_insert_perm _ name _)
  | dropTable name => exact kept_tables [] kept.pool (Keyed.values_perm _ name)
  | mount name table ref target =>
    obtain ⟨found, holds⟩ := grounded
    have accounted := kept_mount kept found (kept.pool.live holds)
    rw [Session.execute]
    generalize table.mount session.pool ref = answer at accounted ⊢
    obtain ⟨mounted, longer, pool⟩ := answer
    cases target with
    | some target => exact kept_refs [mounted] accounted (Keyed.values_insert_perm _ target mounted)
    | none => exact ⟨accounted.release⟩
  | unmount name table spec => exact kept_unmount kept grounded spec

/-! ## Steps and runs -/

/-- Every step keeps a session. -/
theorem Kept.apply (kept : session.Kept) (step : SessionStep) : (session.apply step).2.Kept := by
  rcases session.apply_cases step with same | ⟨action, plans, same⟩
  · rw [same]
    exact kept
  · rw [same]
    exact kept.execute plans.grounded

/-- **Every run from the start keeps its session.** -/
theorem kept_after (steps : List SessionStep) : ((start : Session D).after steps).Kept := by
  suffices from_here : ∀ session : Session D, session.Kept → (session.after steps).Kept from
    from_here start kept_start
  induction steps with
  | nil => exact fun _ kept => kept
  | cons step steps ih => exact fun session kept => ih (session.apply step).2 (kept.apply step)

end Mounts.Session

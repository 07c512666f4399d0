import Mounts.Proofs.Registry.Lasting
import Mounts.Proofs.Session.Kept
import Mounts.Proofs.Spec.Built
import Mounts.Proofs.Table.Contents

/-!
# Tables in sessions

What a step adds to the contents of a session comes from what it was given, and tables keep their
order: what the steps do to tables can be followed through any run.
-/

namespace Mounts

set_option autoImplicit false

/-!
## What steps add

A step gives a spec to a session if it shares the spec, interns it or makes a location on it
(`SessionStep.given`).  The specs of other steps are asked for and not kept.

Every action takes the pool of a session through a course of operations, with the specs that are
given for it (`Kept.moves_execute`).  So what lasts through operations lasts through steps and runs
(`Kept.leads_after`), and every content in the pool of a session was given to it by one of its steps
(`given_of_has_after`).
-/

namespace Session

variable {D : Type} [Directory D] [LawfulDirectory D]

/-! ### Giving back and taking -/

theorem moves_letGoRef (pool : Pool D) (old : Option Ref) (given : List Spec) :
    pool.Moves given (letGoRef pool old) := by
  rw [letGoRef_eq]
  exact .releaseAll pool _ given

theorem moves_letGoTable (pool : Pool D) (old : Option Table) (given : List Spec) :
    pool.Moves given (letGoTable pool old) := by
  rw [letGoTable_eq]
  exact .releaseAll pool _ given

theorem moves_letGoRegistry (pool : Pool D) (old : Option RegistryId) (given : List Spec) :
    pool.Moves given (letGoRegistry pool old) := by
  cases old with
  | none => exact .refl pool given
  | some registry => exact .registries given rfl

variable {session : Session D}

theorem Kept.moves_take (kept : session.Kept) {source : Source}
    (grounded : source.Grounded session) :
    session.pool.Moves source.given (source.take session.pool).2 := by
  cases source with
  | share spec => exact .share session.pool spec
  | canonicalFor registry spec => exact .canonicalFor spec kept.pool grounded
  | canonicalize registry ref =>
    exact .canonicalize [] kept.pool grounded.1 (kept.pool.live grounded.2)
  | again ref => exact .acquire [] (kept.pool.live grounded)

/-! ### Actions and steps -/

/-- **Every action takes the pool through a course of operations with the specs it is given.** -/
theorem Kept.moves_execute (kept : session.Kept) {action : Action}
    (grounded : action.Grounded session) :
    session.pool.Moves action.given (session.execute action).2.pool := by
  cases action with
  | tell reply => exact .refl session.pool []
  | makeRegistry name =>
    have made : session.pool.Moves [] session.pool.newRegistry.2 := .registries [] rfl
    exact made.trans (moves_letGoRegistry _ _ _)
  | copyRegistry name registry =>
    have taken : session.pool.Moves [] (session.pool.acquireRegistry registry) :=
      .registries [] rfl
    exact taken.trans (moves_letGoRegistry _ _ _)
  | dropRegistry name => exact moves_letGoRegistry _ _ _
  | fileRef name source => exact (kept.moves_take grounded).trans (moves_letGoRef _ _ _)
  | dropRef name => exact moves_letGoRef _ _ _
  | fileLocation reply name source path =>
    exact (kept.moves_take grounded).trans (moves_letGoRef _ _ _)
  | dropLocation name => exact moves_letGoRef _ _ _
  | makeTable name => exact moves_letGoTable _ _ _
  | dropTable name => exact moves_letGoTable _ _ _
  | mount name table ref target =>
    have mounted := table.moves_mount kept.pool (kept.pool.live grounded.2)
    cases target with
    | some target => exact mounted.trans (moves_letGoRef _ _ _)
    | none => exact mounted.trans (.releaseAll _ [_] [])
  | unmount name table spec => exact .releaseAll session.pool _ []

/-- Every step takes the pool through a course of operations with the specs that it gives. -/
theorem Kept.moves_apply (kept : session.Kept) (step : SessionStep) :
    session.pool.Moves step.given (session.apply step).2.pool := by
  rcases session.apply_cases step with same | ⟨action, plans, same⟩
  · rw [same]
    exact .refl session.pool _
  · rw [same, ← plans.given]
    exact kept.moves_execute plans.grounded

/-! ### Runs -/

/-- **A run leads the pool on.** -/
theorem Kept.leads_after (kept : session.Kept) (steps : List SessionStep) :
    session.pool.Leads (session.after steps).pool := by
  induction steps generalizing session with
  | nil => exact .refl session.pool
  | cons step steps ih => exact (kept.moves_apply step).leads.trans (ih (kept.apply step))

/-- **Every content after a run was given by one of its steps.** -/
theorem given_of_has_after (steps : List SessionStep) :
    ∀ spec, ((start : Session D).after steps).pool.Has spec →
      ∃ step ∈ steps, spec ∈ step.given := by
  suffices from_here : ∀ session : Session D, session.Kept → ∀ spec,
      (session.after steps).pool.Has spec →
        session.pool.Has spec ∨ ∃ step ∈ steps, spec ∈ step.given from
    fun spec has => (from_here start kept_start spec has).resolve_left (Pool.not_has_empty spec)
  induction steps with
  | nil => exact fun _ _ _ => .inl
  | cons step steps ih =>
    intro session kept spec has
    rcases ih (session.apply step).2 (kept.apply step) spec has with
      earlier | ⟨later, among, given⟩
    · rcases (kept.moves_apply step).gains spec earlier with before | given
      · exact .inl before
      · exact .inr ⟨step, List.mem_cons_self, given⟩
    · exact .inr ⟨later, List.mem_cons_of_mem _ among, given⟩

end Session

/-!
## Single mounts

A mount table is orderly if it lists canonical instances and none of them twice.  Every step of a
session leads its pool on and keeps its tables orderly, whatever is mounted and unmounted, and
whatever becomes of the registries in the meantime (`orderly_after`).

So a table has one mount for each content and registry, and mounting the content again gives this
mount back if it is of the registry that the shared spec has, or of the shared registry if it has
none (`single_mount_after`).  Of one content there may be several mounts, though, one for each
registry that made it canonical: an instance that is canonical already is mounted as it is, and is
not looked for in the shared registry.
-/

variable {D : Type}

namespace Table

/-- A table that lists canonical instances, none of them twice. -/
structure Orderly (pool : Pool D) (table : Table) : Prop where
  once : table.mounts.Nodup
  canonical : ∀ ref ∈ table.mounts, pool.isCanonical ref = true

theorem orderly_empty (pool : Pool D) : empty.Orderly pool :=
  ⟨List.nodup_nil, List.forall_mem_nil _⟩

theorem Orderly.of_leads {pool after : Pool D} {table : Table} (orderly : table.Orderly pool)
    (leads : pool.Leads after) : table.Orderly after :=
  ⟨orderly.once, fun ref listed => leads.isCanonical (orderly.canonical ref listed)⟩

variable [Directory D]

/-- Unmounting takes mounts out and leaves the others as they are. -/
theorem Orderly.unmount {pool : Pool D} {table : Table} (orderly : table.Orderly pool)
    (spec : Spec) : (table.unmount pool spec).2.1.Orderly (table.unmount pool spec).2.2 where
  once := by
    rw [mounts_unmount]
    exact orderly.once.sublist List.filter_sublist
  canonical := by
    intro ref listed
    rw [mounts_unmount] at listed
    have canonical := orderly.canonical ref (List.mem_filter.mp listed).1
    exact (leads_unmount pool table spec).isCanonical canonical

variable [LawfulDirectory D]

/-- Mounting lists a canonical instance if it is not listed yet. -/
theorem Orderly.mount {pool : Pool D} {table : Table} (orderly : table.Orderly pool)
    {held : List Ref} {keys : List RegistryId} (kept : pool.Kept held keys) {ref : Ref}
    (live : pool.Live ref) :
    (table.mount pool ref).2.1.Orderly (table.mount pool ref).2.2 := by
  have earlier := orderly.of_leads (leads_mount table kept live)
  refine ⟨?once, ?canonical⟩
  case once =>
    rw [mounts_mount]
    split
    · exact orderly.once
    · next new =>
      rw [← List.concat_eq_append]
      exact List.Nodup.concat new orderly.once
  case canonical =>
    intro other listed
    rw [mounts_mount] at listed
    split at listed
    · exact earlier.canonical other listed
    · rcases List.mem_append.mp listed with before | last
      · exact earlier.canonical other before
      · rw [List.mem_singleton.mp last]
        exact isCanonical_mount table kept live

end Table

namespace Session

/-! ### Orderly sessions -/

/-- A session whose canonical instances are distinct and whose tables are orderly. -/
structure Orderly (session : Session D) : Prop where
  distinct : session.pool.Distinct
  tables : ∀ name table, session.tables.get? name = some table → table.Orderly session.pool

/-- What leads the pool on and leaves the tables as they were keeps a session orderly. -/
theorem Orderly.of_leads {session after : Session D} (orderly : session.Orderly)
    (leads : session.pool.Leads after.pool) (same : after.tables = session.tables) :
    after.Orderly where
  distinct := leads.distinct orderly.distinct
  tables := by
    intro name table found
    rw [same] at found
    exact (orderly.tables name table found).of_leads leads

/-- An orderly table may be filed in the place of another one. -/
theorem Orderly.of_insert {session after : Session D} (orderly : session.Orderly)
    (leads : session.pool.Leads after.pool) {name : String} {table : Table}
    (filed : after.tables = session.tables.insert name table)
    (new : table.Orderly after.pool) : after.Orderly where
  distinct := leads.distinct orderly.distinct
  tables := by
    intro asked other found
    rw [filed, Keyed.get?_insert] at found
    split at found
    · cases found
      exact new
    · exact (orderly.tables asked other found).of_leads leads

/-- A table may be dropped. -/
theorem Orderly.of_erase {session after : Session D} (orderly : session.Orderly)
    (leads : session.pool.Leads after.pool) {name : String}
    (dropped : after.tables = session.tables.erase name) : after.Orderly where
  distinct := leads.distinct orderly.distinct
  tables := by
    intro asked other found
    rw [dropped, Keyed.get?_erase] at found
    split at found
    · cases found
    · exact (orderly.tables asked other found).of_leads leads

variable [Directory D]

theorem orderly_start : (start : Session D).Orderly where
  distinct := Pool.distinct_empty
  tables := by
    intro name table found
    cases found

/-! ### Every step keeps tables orderly -/

variable [LawfulDirectory D]

/-- **Every action keeps the tables of a session orderly.** -/
theorem Orderly.execute {session : Session D} (orderly : session.Orderly) (kept : session.Kept)
    {action : Action} (grounded : action.Grounded session) :
    (session.execute action).2.Orderly := by
  have leads := (kept.moves_execute grounded).leads
  cases action with
  | tell | makeRegistry | copyRegistry | dropRegistry | fileRef | dropRef | fileLocation
  | dropLocation => exact orderly.of_leads leads rfl
  | makeTable name => exact orderly.of_insert leads rfl (Table.orderly_empty _)
  | dropTable name => exact orderly.of_erase leads rfl
  | mount name table ref target =>
    obtain ⟨found, holds⟩ := grounded
    have mounted := (orderly.tables name table found).mount kept.pool (kept.pool.live holds)
    cases target with
    | some target =>
      have later := (moves_letGoRef (table.mount session.pool ref).2.2
        (session.refs.get? target) []).leads
      exact orderly.of_insert leads rfl (mounted.of_leads later)
    | none =>
      have later := (table.mount session.pool ref).2.2.leads_release
        (table.mount session.pool ref).1
      exact orderly.of_insert leads rfl (mounted.of_leads later)
  | unmount name table spec =>
    exact orderly.of_insert leads rfl ((orderly.tables name table grounded).unmount spec)

/-- Every step keeps the tables of a session orderly. -/
theorem Orderly.apply {session : Session D} (orderly : session.Orderly) (kept : session.Kept)
    (step : SessionStep) : (session.apply step).2.Orderly := by
  rcases session.apply_cases step with same | ⟨action, plans, same⟩
  · rw [same]
    exact orderly
  · rw [same]
    exact orderly.execute kept plans.grounded

/-- **Every run from the start has orderly tables.** -/
theorem orderly_after (steps : List SessionStep) : ((start : Session D).after steps).Orderly := by
  suffices from_here : ∀ session : Session D, session.Orderly → session.Kept →
      (session.after steps).Orderly from from_here start orderly_start kept_start
  induction steps with
  | nil => exact fun _ orderly _ => orderly
  | cons step steps ih =>
    intro session orderly kept
    exact ih (session.apply step).2 (orderly.apply kept step) (kept.apply step)

/-! ### One mount for each content and registry -/

/-- **After any run a table has one mount for each content and registry.** -/
theorem single_mount_after (steps : List SessionStep) (session : Session D)
    (run : session = (start : Session D).after steps) (name : String) (table : Table)
    (filed : session.tables.get? name = some table) :
    table.mounts.Nodup ∧
    (∀ first ∈ table.mounts, ∀ second ∈ table.mounts, ∀ one other : Instance,
      session.pool.instance? first = some one → session.pool.instance? second = some other →
        one.spec = other.spec → (first = second ↔ one.home = other.home)) ∧
    (∀ ref ∈ session.held, ∀ shared : Instance, session.pool.instance? ref = some shared →
      ∀ mount ∈ table.mounts, ∀ mounted : Instance, session.pool.instance? mount = some mounted →
        mounted.spec = shared.spec →
          ((table.mount session.pool ref).1 = mount ∧ (table.mount session.pool ref).2.1 = table ↔
            mounted.home = some (shared.home.getD Pool.global))) := by
  have kept : session.Kept := run ▸ kept_after steps
  have orderly : session.Orderly := run ▸ orderly_after steps
  have listed := orderly.tables name table filed
  have live {ref : Ref} (mounted : ref ∈ table.mounts) : session.pool.Live ref :=
    kept.pool.live (mem_held_of_table filed mounted)
  refine ⟨listed.once, ?same, ?again⟩
  case same =>
    intro first mounted second mounted_too one other there there_too content
    have canonical : one.home.isSome := by
      have registered := listed.canonical first mounted
      rwa [Pool.isCanonical, there] at registered
    exact orderly.distinct.eq_iff_same_home there (live mounted) canonical there_too
      (live mounted_too) content
  case again =>
    intro ref holds shared found mount inside mounted there content
    rw [← kept.pool.canonicalize_eq_iff orderly.distinct List.mem_cons_self (kept.pool.live holds)
      found (live inside) there content, Table.mount]
    dsimp only
    constructor
    · intro answer
      split at answer
      · exact answer.1
      · exact answer.1
    · intro same
      rw [if_pos (same ▸ inside)]
      exact ⟨same, rfl⟩

/-- Shares a content twice and mounts it once. -/
def remounting : List SessionStep :=
  [.registry (.share "a" Spec.guest), .registry (.share "b" Spec.guest), .table (.make "t"),
    .table (.mount "t" "a" none)]

/-- Mounting the content again gives the mount back that there is. -/
theorem single_mount_after_remounting :
    ((start : Session Buckets).after remounting).tables.get? "t" = some ⟨[⟨2⟩]⟩ ∧
    (Table.mount ((start : Session Buckets).after remounting).pool ⟨[⟨2⟩]⟩ ⟨1⟩).1 = ⟨2⟩ ∧
    (Table.mount ((start : Session Buckets).after remounting).pool ⟨[⟨2⟩]⟩ ⟨1⟩).2.1 = ⟨[⟨2⟩]⟩ := by
  have filed : ((start : Session Buckets).after remounting).tables.get? "t" = some ⟨[⟨2⟩]⟩ := by
    decide +kernel
  have holds : (⟨1⟩ : Ref) ∈ ((start : Session Buckets).after remounting).held := by
    decide +kernel
  have shared : ((start : Session Buckets).after remounting).pool.instance? ⟨1⟩ =
      some ⟨Spec.guest, none, 1⟩ := by decide +kernel
  have mounted : ((start : Session Buckets).after remounting).pool.instance? ⟨2⟩ =
      some ⟨Spec.guest, some Pool.global, 1⟩ := by decide +kernel
  obtain ⟨_, _, again⟩ := single_mount_after remounting _ rfl "t" ⟨[⟨2⟩]⟩ filed
  exact ⟨filed, (again ⟨1⟩ holds _ shared ⟨2⟩ List.mem_cons_self _ mounted rfl).mpr rfl⟩

/-- Makes one content canonical in a registry and in the shared one, and mounts both instances. -/
def doubling : List SessionStep :=
  [.registry (.make "r"), .registry (.canonicalFor "a" "r" Spec.guest),
    .registry (.canonicalFor "b" globalName Spec.guest), .table (.make "t"),
    .table (.mount "t" "a" none), .table (.mount "t" "b" none)]

/-- A table may hold two mounts of one content. -/
theorem doubled_mount :
    ((start : Session Buckets).after doubling).tables.get? "t" = some ⟨[⟨0⟩, ⟨1⟩]⟩ ∧
    ((start : Session Buckets).after doubling).pool.spec? ⟨0⟩ = some Spec.guest ∧
    ((start : Session Buckets).after doubling).pool.spec? ⟨1⟩ = some Spec.guest := by
  decide +kernel

end Session

end Mounts

import Mathlib.Data.Option.Basic
import Mounts.Proofs.Registry.Agreeing
import Mounts.Proofs.Session.Interning

/-!
# Sessions that agree

Two sessions agree when their pools do and the same things are filed under the same names.  Every
step is possible on both or on neither, gets the same reply from both and keeps them in agreement;
and what can be seen of them is the same (`Agrees.run`).

The sessions may work over different kinds of directories.  So a session over buckets by digest can
never be told from one over plain lists (`hashed_refines_plain`), which searches all references that
there are by their contents.  Digests, the order of buckets and collisions have no influence on any
answer.
-/

namespace Mounts.Session

set_option autoImplicit false

variable {D E : Type}

/-- Sessions with pools that agree and with the same things filed under the same names. -/
structure Agrees (session : Session D) (other : Session E) : Prop where
  pool : session.pool.Agrees other.pool
  registries : other.registries = session.registries
  refs : other.refs = session.refs
  locations : other.locations = session.locations
  tables : other.tables = session.tables

/-- The same reply from sessions that agree afterwards. -/
def Alike (one : SessionReply × Session D) (other : SessionReply × Session E) : Prop :=
  other.1 = one.1 ∧ one.2.Agrees other.2

namespace Agrees

variable {session : Session D} {other : Session E}

theorem held (agrees : session.Agrees other) : other.held = session.held := by
  rw [Session.held, agrees.refs, agrees.locations, agrees.tables, Session.held]

theorem keys (agrees : session.Agrees other) : other.keys = session.keys := by
  rw [Session.keys, agrees.registries, Session.keys]

theorem registryNamed (agrees : session.Agrees other) (name : String) :
    other.registryNamed name = session.registryNamed name := by
  rw [Session.registryNamed, agrees.registries, Session.registryNamed]

theorem namesOf (agrees : session.Agrees other) (ref : Ref) :
    other.namesOf ref = session.namesOf ref := by
  rw [Session.namesOf, agrees.refs, Session.namesOf]

theorem describeMount? (agrees : session.Agrees other) (ref : Ref) :
    other.describeMount? ref = session.describeMount? ref := by
  simp only [Session.describeMount?, agrees.pool.spec?, agrees.pool.handles, agrees.namesOf]

theorem lookup (agrees : session.Agrees other) (table : Table) (query : Spec) (path : String) :
    table.lookup other.pool query path = table.lookup session.pool query path := by
  simp only [Table.lookup, Table.entries, agrees.pool.spec?]

theorem kept [Directory E] [LawfulDirectory E] (agrees : session.Agrees other)
    (kept : other.Kept) : other.pool.Kept session.held session.keys := by
  rw [← agrees.held, ← agrees.keys]
  exact kept.pool

/-- Every step comes to the same action. -/
theorem plan? (agrees : session.Agrees other) (step : SessionStep) :
    other.plan? step = session.plan? step := by
  have served : other.describeMount? = session.describeMount? := funext agrees.describeMount?
  cases step with
  | registry step =>
    cases step <;> simp only [Session.plan?, planRegistries?, agrees.registryNamed, agrees.refs,
      agrees.pool.sameContent, agrees.pool.spec?]
  | location step =>
    cases step <;> simp only [Session.plan?, planLocations?, agrees.refs, agrees.locations,
      agrees.pool.spec?]
  | table step =>
    cases step <;> simp only [Session.plan?, planTables?, agrees.refs, agrees.tables,
      agrees.lookup, Table.lookupSpec, served]

variable [Directory D] [Directory E]

/-! ## Giving up, filing and dropping -/

theorem letGoRef {pool : Pool D} {poolOther : Pool E} (pools : pool.Agrees poolOther)
    (old : Option Ref) : (letGoRef pool old).Agrees (letGoRef poolOther old) := by
  rw [letGoRef_eq, letGoRef_eq]
  exact pools.releaseAll _

theorem letGoTable {pool : Pool D} {poolOther : Pool E} (pools : pool.Agrees poolOther)
    (old : Option Table) : (letGoTable pool old).Agrees (letGoTable poolOther old) := by
  rw [letGoTable_eq, letGoTable_eq]
  exact pools.releaseAll _

theorem letGoRegistry {pool : Pool D} {poolOther : Pool E} (pools : pool.Agrees poolOther)
    (old : Option RegistryId) : (letGoRegistry pool old).Agrees (letGoRegistry poolOther old) := by
  cases old with
  | none => exact pools
  | some registry => exact pools.releaseRegistry registry

theorem fileRegistry (agrees : session.Agrees other) {pool : Pool D} {poolOther : Pool E}
    (pools : pool.Agrees poolOther) {registry registryOther : RegistryId}
    (same : registryOther = registry) (name : String) :
    (session.fileRegistry name registry pool).Agrees
      (other.fileRegistry name registryOther poolOther) := by
  subst same
  refine { agrees with pool := ?_, registries := ?_ }
  · rw [Session.fileRegistry, Session.fileRegistry, agrees.registries]
    exact letGoRegistry pools _
  · rw [Session.fileRegistry, Session.fileRegistry, agrees.registries]

theorem fileRef (agrees : session.Agrees other) {pool : Pool D} {poolOther : Pool E}
    (pools : pool.Agrees poolOther) {ref refOther : Ref} (same : refOther = ref) (name : String) :
    (session.fileRef name ref pool).Agrees (other.fileRef name refOther poolOther) := by
  subst same
  refine { agrees with pool := ?_, refs := ?_ }
  · rw [Session.fileRef, Session.fileRef, agrees.refs]
    exact letGoRef pools _
  · rw [Session.fileRef, Session.fileRef, agrees.refs]

theorem fileLocation (agrees : session.Agrees other) {pool : Pool D} {poolOther : Pool E}
    (pools : pool.Agrees poolOther) {location locationOther : Location}
    (same : locationOther = location) (name : String) :
    (session.fileLocation name location pool).Agrees
      (other.fileLocation name locationOther poolOther) := by
  subst same
  refine { agrees with pool := ?_, locations := ?_ }
  · rw [Session.fileLocation, Session.fileLocation, agrees.locations]
    exact letGoRef pools _
  · rw [Session.fileLocation, Session.fileLocation, agrees.locations]

theorem fileTable (agrees : session.Agrees other) (name : String) (table : Table) :
    (session.fileTable name table).Agrees (other.fileTable name table) := by
  refine { agrees with pool := ?_, tables := ?_ }
  · rw [Session.fileTable, Session.fileTable, agrees.tables]
    exact letGoTable agrees.pool _
  · rw [Session.fileTable, Session.fileTable, agrees.tables]

theorem unmount (agrees : session.Agrees other) (table : Table) (spec : Spec) :
    (table.unmount other.pool spec).1 = (table.unmount session.pool spec).1 ∧
      (table.unmount other.pool spec).2.1 = (table.unmount session.pool spec).2.1 ∧
      (table.unmount session.pool spec).2.2.Agrees (table.unmount other.pool spec).2.2 := by
  simp only [Table.unmount, agrees.pool.spec?, true_and]
  exact agrees.pool.releaseAll _

/-! ## Actions -/

variable [LawfulDirectory D] [LawfulDirectory E]

/-- What is done by handles of one session is done by handles of the other. -/
theorem take (agrees : session.Agrees other) (kept : session.Kept) (keptOther : other.Kept)
    {source : Source} (grounded : source.Grounded session) :
    (source.take other.pool).1 = (source.take session.pool).1 ∧
      (source.take session.pool).2.Agrees (source.take other.pool).2 := by
  have both := agrees.kept keptOther
  cases source with
  | share spec => exact agrees.pool.make spec none
  | canonicalFor registry spec => exact agrees.pool.canonicalFor kept.pool both grounded spec
  | canonicalize registry ref =>
    exact agrees.pool.canonicalize kept.pool both grounded.1 ref
  | again ref => exact ⟨rfl, agrees.pool.acquire ref⟩

theorem mount (agrees : session.Agrees other) (kept : session.Kept) (keptOther : other.Kept)
    (table : Table) (ref : Ref) :
    (table.mount other.pool ref).1 = (table.mount session.pool ref).1 ∧
      (table.mount other.pool ref).2.1 = (table.mount session.pool ref).2.1 ∧
      (table.mount session.pool ref).2.2.Agrees (table.mount other.pool ref).2.2 := by
  obtain ⟨same, pools⟩ :=
    agrees.pool.canonicalize kept.pool (agrees.kept keptOther) List.mem_cons_self ref
  rw [Table.mount, Table.mount]
  dsimp only
  rw [same]
  split
  · exact ⟨rfl, rfl, pools⟩
  · exact ⟨rfl, rfl, pools.acquire _⟩

/-- **Every action gets the same reply from sessions that agree, and they agree afterwards.** -/
theorem execute (agrees : session.Agrees other) (kept : session.Kept) (keptOther : other.Kept)
    {action : Action} (grounded : action.Grounded session) :
    Alike (session.execute action) (other.execute action) := by
  cases action with
  | tell reply => exact ⟨rfl, agrees⟩
  | makeRegistry name =>
    obtain ⟨same, pools⟩ := agrees.pool.newRegistry
    exact ⟨rfl, agrees.fileRegistry pools same name⟩
  | copyRegistry name registry =>
    exact ⟨rfl, agrees.fileRegistry (agrees.pool.acquireRegistry registry) rfl name⟩
  | dropRegistry name =>
    rw [Session.execute, Session.execute, agrees.registries]
    exact ⟨rfl, { agrees with pool := letGoRegistry agrees.pool _, registries := rfl }⟩
  | fileRef name source =>
    obtain ⟨same, pools⟩ := agrees.take kept keptOther grounded
    exact ⟨rfl, agrees.fileRef pools same name⟩
  | dropRef name =>
    rw [Session.execute, Session.execute, agrees.refs]
    exact ⟨rfl, { agrees with pool := letGoRef agrees.pool _, refs := rfl }⟩
  | fileLocation reply name source path =>
    obtain ⟨same, pools⟩ := agrees.take kept keptOther grounded
    exact ⟨rfl, agrees.fileLocation pools (congrArg (Location.mk · path) same) name⟩
  | dropLocation name =>
    rw [Session.execute, Session.execute, agrees.locations]
    exact ⟨rfl, { agrees with pool := letGoRef agrees.pool _, locations := rfl }⟩
  | makeTable name => exact ⟨rfl, agrees.fileTable name _⟩
  | dropTable name =>
    rw [Session.execute, Session.execute, agrees.tables]
    exact ⟨rfl, { agrees with pool := letGoTable agrees.pool _, tables := rfl }⟩
  | mount name table ref target =>
    obtain ⟨same, longer, pools⟩ := agrees.mount kept keptOther table ref
    rw [Session.execute, Session.execute]
    -- From here on it does not matter how the answers came about, only that they are the same.
    generalize table.mount session.pool ref = answer at same longer pools ⊢
    generalize table.mount other.pool ref = answerOther at same longer pools ⊢
    obtain ⟨mounted, table, pool⟩ := answer
    obtain ⟨mountedOther, tableOther, poolOther⟩ := answerOther
    obtain rfl : mountedOther = mounted := same
    obtain rfl : tableOther = table := longer
    have filed : Agrees { session with pool, tables := session.tables.insert name tableOther }
        { other with pool := poolOther, tables := other.tables.insert name tableOther } :=
      { agrees with pool := pools, tables := by rw [agrees.tables] }
    cases target with
    | some target => exact ⟨rfl, filed.fileRef pools rfl target⟩
    | none => exact ⟨rfl, { filed with pool := pools.release mountedOther }⟩
  | unmount name table spec =>
    obtain ⟨removed, left, pools⟩ := agrees.unmount table spec
    have filed : other.tables.insert name (table.unmount other.pool spec).2.1 =
        session.tables.insert name (table.unmount session.pool spec).2.1 := by
      rw [agrees.tables, left]
    exact ⟨congrArg SessionReply.flag removed, { agrees with pool := pools, tables := filed }⟩

/-! ## Steps -/

/-- **Every step gets the same reply from sessions that agree, and they agree afterwards.** -/
theorem apply (agrees : session.Agrees other) (kept : session.Kept) (keptOther : other.Kept)
    (step : SessionStep) : Alike (session.apply step) (other.apply step) := by
  rw [Session.apply, Session.apply, perform?_eq, perform?_eq, agrees.plan?]
  cases planned : session.plan? step with
  | none => exact ⟨rfl, agrees⟩
  | some action => exact agrees.execute kept keptOther (plans_of_plan? planned).grounded

/-- Sessions that agree after some steps of a run. -/
theorem after (agrees : session.Agrees other) (kept : session.Kept) (keptOther : other.Kept)
    (steps : List SessionStep) : (session.after steps).Agrees (other.after steps) := by
  induction steps generalizing session other with
  | nil => exact agrees
  | cons step steps ih =>
    exact ih (agrees.apply kept keptOther step).2 (kept.apply step) (keptOther.apply step)

end Agrees

/-! ## What can be seen -/

namespace Agrees

variable {session : Session D} {other : Session E}
variable [Directory D] [Directory E] [ListedDirectory D] [ListedDirectory E]

/-- A living registry has the same size in both sessions. -/
theorem size_eq (agrees : session.Agrees other) (kept : session.Kept) (keptOther : other.Kept)
    {registry : RegistryId} (holds : registry ∈ Pool.global :: session.keys) :
    other.pool.size registry = session.pool.size registry := by
  obtain ⟨entry, found, alive⟩ := kept.pool.alive holds
  obtain ⟨entryOther, foundOther, aliveOther⟩ := (agrees.kept keptOther).alive holds
  rw [kept.pool.sound.size_eq found alive, keptOther.pool.sound.size_eq foundOther aliveOther,
    agrees.pool.instances]

theorem view (agrees : session.Agrees other) (kept : session.Kept) (keptOther : other.Kept) :
    other.view = session.view := by
  -- Sizes are the only thing that is seen of a directory, and only those of living registries.
  have sizes : ∀ named ∈ session.registries.entries ++ [(globalName, Pool.global)],
      other.pool.size named.2 = session.pool.size named.2 := by
    intro named listed
    refine agrees.size_eq kept keptOther ?_
    rcases List.mem_append.mp listed with held | shared
    · exact List.mem_cons_of_mem _ (List.mem_map_of_mem held)
    · rw [List.mem_singleton.mp shared]
      exact List.mem_cons_self
  simp only [Session.view, viewInstance, Table.entries, agrees.registries, agrees.refs,
    agrees.locations, agrees.tables, agrees.namesOf, agrees.pool.handles, agrees.pool.isCanonical,
    agrees.pool.spec?, SessionView.mk.injEq, and_true]
  exact List.map_congr_left fun named listed => congrArg (Prod.mk named.1) (sizes named listed)

/-- **A run gets the same replies and shows the same in sessions that agree.** -/
theorem run (agrees : session.Agrees other) (kept : session.Kept) (keptOther : other.Kept)
    (steps : List SessionStep) : other.run steps = session.run steps := by
  induction steps generalizing session other with
  | nil => rfl
  | cons step steps ih =>
    obtain ⟨reply, further⟩ := agrees.apply kept keptOther step
    have kept := kept.apply step
    have keptOther := keptOther.apply step
    rw [Session.run, Session.run]
    dsimp only
    rw [reply, further.view kept keptOther, ih further kept keptOther]

end Agrees

/-! ## Buckets and plain lists -/

theorem agrees_start [Directory D] [Directory E] :
    (start : Session D).Agrees (start : Session E) where
  pool := .empty
  registries := rfl
  refs := rfl
  locations := rfl
  tables := rfl

/-- **A session over buckets by digest cannot be told from one over plain lists**, in which each
registry lists the instances that are held. -/
theorem hashed_refines_plain (steps : List SessionStep) (hashed : Session Buckets)
    (plain : Session Roster) (run : hashed = (start : Session Buckets).after steps)
    (same_run : plain = (start : Session Roster).after steps) :
    (start : Session Buckets).run steps = (start : Session Roster).run steps ∧
    hashed.pool.instances = plain.pool.instances ∧
    hashed.registries = plain.registries ∧ hashed.refs = plain.refs ∧
    hashed.locations = plain.locations ∧ hashed.tables = plain.tables ∧
    ∀ registry ∈ Pool.global :: plain.keys,
      (plain.pool.directory registry).refs.Nodup ∧
      (∀ ref, ref ∈ (plain.pool.directory registry).refs ↔ ref ∈ plain.held ∧
        ∃ canonical : Instance, plain.pool.instance? ref = some canonical ∧
          canonical.home = some registry) ∧
      hashed.pool.size registry = (plain.pool.directory registry).refs.length ∧
      ∀ spec, (hashed.pool.canonicalFor registry spec).1 =
        ((plain.pool.directory registry).refs.find? fun ref =>
          decide (plain.pool.spec? ref = some spec)).getD ⟨plain.pool.instances.length⟩ := by
  have kept : hashed.Kept := run ▸ kept_after steps
  have keptPlain : plain.Kept := same_run ▸ kept_after steps
  have agrees : hashed.Agrees plain := by
    rw [run, same_run]
    exact agrees_start.after kept_start kept_start steps
  refine ⟨(agrees_start.run kept_start kept_start steps).symm, agrees.pool.instances.symm,
    agrees.registries.symm, agrees.refs.symm, agrees.locations.symm, agrees.tables.symm, ?_⟩
  intro registry holds
  obtain ⟨entry, found, alive⟩ := keptPlain.pool.alive holds
  obtain ⟨once, members⟩ := keptPlain.pool.sound.members found alive
  have holdsHashed : registry ∈ Pool.global :: hashed.keys := agrees.keys ▸ holds
  rw [Pool.directory_of_registryAt? found]
  refine ⟨once, fun ref => ?listed, ?size, fun spec => ?interned⟩
  case listed =>
    rw [show ref ∈ entry.directory.refs ↔ _ from members ref]
    constructor
    · rintro ⟨spec, stands⟩
      obtain ⟨holdsRef, canonical, there, home, _⟩ := keptPlain.pool.stands_iff.mp stands
      exact ⟨holdsRef, canonical, there, home⟩
    · rintro ⟨holdsRef, canonical, there, home⟩
      exact ⟨canonical.spec, keptPlain.pool.stands_iff.mpr ⟨holdsRef, canonical, there, home, rfl⟩⟩
  case size =>
    rw [← agrees.size_eq kept keptPlain holdsHashed]
    exact keptPlain.pool.sound.size_eq_length found alive
  case interned =>
    rw [← (agrees.pool.canonicalFor kept.pool (agrees.kept keptPlain) holdsHashed spec).1]
    exact keptPlain.pool.sound.canonicalFor_eq_find? found alive spec

/-- Interns two specs of one digest in a registry and drops the first: the other one is found behind
it in the bucket that they shared, as it is in the plain list. -/
theorem hashed_refines_plain_crowding :
    ⟨1⟩ ∈ Pool.global :: ((start : Session Roster).after crowding).keys ∧
    (start : Session Buckets).run crowding = (start : Session Roster).run crowding ∧
    ((start : Session Buckets).after crowding).pool.size ⟨1⟩ = 1 ∧
    (((start : Session Buckets).after crowding).pool.canonicalFor ⟨1⟩ twin).1 = ⟨1⟩ := by
  have alive : ⟨1⟩ ∈ Pool.global :: ((start : Session Roster).after crowding).keys := by
    decide +kernel
  have listed : (((start : Session Roster).after crowding).pool.directory ⟨1⟩).refs = [⟨1⟩] := by
    decide +kernel
  have there : ((start : Session Roster).after crowding).pool.spec? ⟨1⟩ = some twin := by
    decide +kernel
  obtain ⟨same, _, _, _, _, _, registries⟩ := hashed_refines_plain crowding _ _ rfl rfl
  obtain ⟨_, _, size, interned⟩ := registries ⟨1⟩ alive
  refine ⟨alive, same, ?_, ?_⟩
  · rw [size, listed]
    rfl
  · rw [interned, listed, List.find?_cons, there]
    simp only [decide_true, Option.getD_some]

end Mounts.Session

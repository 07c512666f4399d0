import Mounts.Proofs.Keyed
import Mounts.Session

/-!
# What steps come to

A step looks up what it names and then does one of a few things: it tells something, it files or
drops something under a name, or it changes a table.  `plan?` gives the action that a step comes to,
if all that it names is there, and `execute` carries an action out.  That is all that steps do
(`perform?_eq`).

Steps have to be told apart only here.  What every action keeps is kept by every step, provided it
follows from what is common to the actions of steps: they go by handles that the session holds,
they are given the specs of the step, and only those of steps on locations change locations
(`Plans`).
-/

namespace Mounts

set_option autoImplicit false

/-! ## Specs given to a session -/

/-- The specs that a step on registries gives to a session. -/
def RegistryStep.given : RegistryStep → List Spec
  | .share _ spec => [spec]
  | .canonicalFor _ _ spec => [spec]
  | _ => []

/-- The specs that a step on locations gives to a session. -/
def LocationStep.given : LocationStep → List Spec
  | .ofSpec _ spec _ => [spec]
  | _ => []

/-- The specs that a step gives to a session.  Tables are given none. -/
def SessionStep.given : SessionStep → List Spec
  | .registry step => step.given
  | .location step => step.given
  | .table _ => []

/-- The name under which a step files or drops a location. -/
def LocationStep.subject? : LocationStep → Option String
  | .ofSpec target _ _ => some target
  | .ofRef target _ _ => some target
  | .resolve target _ _ => some target
  | .parent target _ => some target
  | .drop name => some name
  | .ref _ _ => none
  | .describe _ => none
  | .compare _ _ => none

namespace Session

variable {D : Type}

/-! ## What is held -/

/-- The references on which a session holds handles, as often as it holds one. -/
def held (session : Session D) : List Ref :=
  session.refs.values ++ session.locations.values.map (·.ref) ++
    session.tables.values.flatMap (·.mounts)

/-- The registries to which a session holds handles, as often as it holds one. -/
def keys (session : Session D) : List RegistryId :=
  session.registries.values

theorem mem_held_of_ref {session : Session D} {name : String} {ref : Ref}
    (found : session.refs.get? name = some ref) : ref ∈ session.held :=
  List.mem_append_left _ (List.mem_append_left _ (Keyed.mem_values_of_get? found))

theorem mem_held_of_location {session : Session D} {name : String} {location : Location}
    (found : session.locations.get? name = some location) : location.ref ∈ session.held :=
  List.mem_append_left _ (List.mem_append_right _
    (List.mem_map_of_mem (Keyed.mem_values_of_get? found)))

theorem mem_held_of_table {session : Session D} {name : String} {table : Table}
    (found : session.tables.get? name = some table) {ref : Ref} (listed : ref ∈ table.mounts) :
    ref ∈ session.held :=
  List.mem_append_right _
    (List.mem_flatMap.mpr ⟨table, Keyed.mem_values_of_get? found, listed⟩)

theorem mem_keys_of_registryNamed {session : Session D} {name : String} {registry : RegistryId}
    (found : session.registryNamed name = some registry) :
    registry ∈ Pool.global :: session.keys := by
  rw [registryNamed] at found
  split at found
  · cases found
    exact List.mem_cons_self
  · exact List.mem_cons_of_mem _ (Keyed.mem_values_of_get? found)

/-! ## Actions -/

/-- Where a handle to an instance comes from. -/
inductive Source
  /-- A new instance that belongs to no registry. -/
  | share (spec : Spec)
  /-- The canonical instance of a content. -/
  | canonicalFor (registry : RegistryId) (spec : Spec)
  /-- The canonical instance for another one. -/
  | canonicalize (registry : RegistryId) (ref : Ref)
  /-- An instance that there is a handle to. -/
  | again (ref : Ref)

/-- What is done by a step that found all that it names. -/
inductive Action
  /-- An answer. -/
  | tell (reply : SessionReply)
  /-- A registry is made. -/
  | makeRegistry (name : String)
  /-- Another handle to a registry is filed. -/
  | copyRegistry (name : String) (registry : RegistryId)
  /-- A handle to a registry is dropped. -/
  | dropRegistry (name : String)
  /-- A handle to an instance is filed. -/
  | fileRef (name : String) (source : Source)
  /-- A handle to an instance is dropped. -/
  | dropRef (name : String)
  /-- A location with a handle to an instance is filed. -/
  | fileLocation (reply : SessionReply) (name : String) (source : Source) (path : String)
  /-- A location is dropped. -/
  | dropLocation (name : String)
  /-- A table is made. -/
  | makeTable (name : String)
  /-- A table is dropped. -/
  | dropTable (name : String)
  /-- An instance is mounted in the table of a name. -/
  | mount (name : String) (table : Table) (ref : Ref) (target : Option String)
  /-- A content is taken out of the table of a name. -/
  | unmount (name : String) (table : Table) (spec : Spec)

/-- The specs that are given for a handle. -/
def Source.given : Source → List Spec
  | .share spec => [spec]
  | .canonicalFor _ spec => [spec]
  | .canonicalize _ _ => []
  | .again _ => []

/-- The specs that are given for an action. -/
def Action.given : Action → List Spec
  | .fileRef _ source => source.given
  | .fileLocation _ _ source _ => source.given
  | _ => []

/-- Whether an action files or drops a location. -/
def Action.relocates : Action → Bool
  | .fileLocation _ _ _ _ => true
  | .dropLocation _ => true
  | _ => false

/-- A session holds the handles that a source goes by. -/
def Source.Grounded (session : Session D) : Source → Prop
  | .share _ => True
  | .canonicalFor registry _ => registry ∈ Pool.global :: session.keys
  | .canonicalize registry ref => registry ∈ Pool.global :: session.keys ∧ ref ∈ session.held
  | .again ref => ref ∈ session.held

/-- A session holds the handles that an action goes by. -/
def Action.Grounded (session : Session D) : Action → Prop
  | .copyRegistry _ registry => registry ∈ Pool.global :: session.keys
  | .fileRef _ source => source.Grounded session
  | .fileLocation _ _ source _ => source.Grounded session
  | .mount name table ref _ => session.tables.get? name = some table ∧ ref ∈ session.held
  | .unmount name table _ => session.tables.get? name = some table
  | _ => True

/-- How a step makes a location: the source of its handle, and its path. -/
inductive Makes (session : Session D) : LocationStep → Source → String → Prop
  /-- On a spec. -/
  | ofSpec (target : String) (spec : Spec) (path : String) :
      Makes session (.ofSpec target spec path) (.canonicalFor Pool.global spec)
        (Path.canonicalize path)
  /-- On a shared spec. -/
  | ofRef {ref : String} {shared : Ref} (target path : String) :
      session.refs.get? ref = some shared →
        Makes session (.ofRef target ref path) (.canonicalize Pool.global shared)
          (Path.canonicalize path)
  /-- From another location. -/
  | resolve {name : String} {source : Location} (target relative : String) :
      session.locations.get? name = some source →
        Makes session (.resolve target name relative) (.again source.ref)
          (Path.resolve source.path relative)
  /-- Above another location. -/
  | parent {name : String} {source : Location} {path : String} (target : String) :
      session.locations.get? name = some source → Path.parent? source.path = some path →
        Makes session (.parent target name) (.again source.ref) path

/-- What the action of a step does to locations. -/
inductive Locates (session : Session D) : SessionStep → Action → Prop
  /-- It leaves them as they are. -/
  | elsewhere {step : SessionStep} {action : Action} :
      action.relocates = false → Locates session step action
  /-- It drops one. -/
  | drop (name : String) : Locates session (.location (.drop name)) (.dropLocation name)
  /-- It files one that the step makes. -/
  | file {step : LocationStep} {target : String} {source : Source} {path : String}
      {reply : SessionReply} : step.subject? = some target → session.Makes step source path →
        reply = .nothing ∨ reply = .flag true →
          Locates session (.location step) (.fileLocation reply target source path)

/-- What is common to all actions that steps come to. -/
structure Plans (session : Session D) (step : SessionStep) (action : Action) : Prop where
  /-- It goes by handles that the session holds. -/
  grounded : action.Grounded session
  /-- It is given the specs that the step gives. -/
  given : action.given = step.given
  /-- It changes locations as the step says. -/
  locates : session.Locates step action

/-! ## Plans -/

/-- The action that a step on registries and shared specs comes to. -/
def planRegistries? (session : Session D) : RegistryStep → Option Action
  | .make target => some (.makeRegistry target)
  | .copy source target => do return .copyRegistry target (← session.registryNamed source)
  | .drop name => some (.dropRegistry name)
  | .share target spec => some (.fileRef target (.share spec))
  | .canonicalFor target registry spec => do
    return .fileRef target (.canonicalFor (← session.registryNamed registry) spec)
  | .canonicalize target registry source => do
    return .fileRef target
      (.canonicalize (← session.registryNamed registry) (← session.refs.get? source))
  | .copyRef source target => do return .fileRef target (.again (← session.refs.get? source))
  | .dropRef name => some (.dropRef name)
  | .compare first second => do
    let first ← session.refs.get? first
    let second ← session.refs.get? second
    return .tell (.refsCompared (first == second) (session.pool.sameContent first second))
  | .describe name => do
    return .tell (.spec (← session.pool.spec? (← session.refs.get? name)))

/-- The action that a step on locations comes to. -/
def planLocations? (session : Session D) : LocationStep → Option Action
  | .ofSpec target spec path =>
    some (.fileLocation .nothing target (.canonicalFor Pool.global spec) (Path.canonicalize path))
  | .ofRef target ref path => do
    return .fileLocation .nothing target
      (.canonicalize Pool.global (← session.refs.get? ref)) (Path.canonicalize path)
  | .resolve target source relative => do
    let source ← session.locations.get? source
    return .fileLocation .nothing target (.again source.ref) (Path.resolve source.path relative)
  | .parent target source => do
    let source ← session.locations.get? source
    match Path.parent? source.path with
    | some path => return .fileLocation (.flag true) target (.again source.ref) path
    | none => return .tell (.flag false)
  | .drop name => some (.dropLocation name)
  | .ref target name => do return .fileRef target (.again (← session.locations.get? name).ref)
  | .describe name => do
    let location ← session.locations.get? name
    let spec ← session.pool.spec? location.ref
    return .tell (.location location spec (location.requestSpec spec) (location.toWire spec))
  | .compare first second => do
    let first ← session.locations.get? first
    let second ← session.locations.get? second
    return .tell
      (.locationsCompared (first == second) (first.isAbove second) (first.relativePath? second))

/-- The action that a step on mount tables comes to. -/
def planTables? (session : Session D) : TableStep → Option Action
  | .make target => some (.makeTable target)
  | .drop name => some (.dropTable name)
  | .mount name ref target => do
    return .mount name (← session.tables.get? name) (← session.refs.get? ref) target
  | .unmount name spec => do return .unmount name (← session.tables.get? name) spec
  | .lookup name query path => do
    let table ← session.tables.get? name
    let found := match path with
      | some path => table.lookup session.pool query path
      | none => table.lookupSpec session.pool query
    return .tell (.served (found.bind session.describeMount?))

/-- The action that a step comes to, if all that it names is there. -/
def plan? (session : Session D) : SessionStep → Option Action
  | .registry step => session.planRegistries? step
  | .location step => session.planLocations? step
  | .table step => session.planTables? step

variable {session : Session D}

theorem plans_of_planRegistries? {step : RegistryStep} {action : Action}
    (planned : session.planRegistries? step = some action) :
    session.Plans (.registry step) action := by
  cases step with
  | make target =>
    cases planned
    exact ⟨trivial, rfl, .elsewhere rfl⟩
  | copy source target =>
    obtain ⟨registry, named, planned⟩ := Option.bind_eq_some_iff.mp planned
    cases planned
    exact ⟨mem_keys_of_registryNamed named, rfl, .elsewhere rfl⟩
  | drop name =>
    cases planned
    exact ⟨trivial, rfl, .elsewhere rfl⟩
  | share target spec =>
    cases planned
    exact ⟨trivial, rfl, .elsewhere rfl⟩
  | canonicalFor target registry spec =>
    obtain ⟨registry, named, planned⟩ := Option.bind_eq_some_iff.mp planned
    cases planned
    exact ⟨mem_keys_of_registryNamed named, rfl, .elsewhere rfl⟩
  | canonicalize target registry source =>
    obtain ⟨registry, named, planned⟩ := Option.bind_eq_some_iff.mp planned
    obtain ⟨shared, found, planned⟩ := Option.bind_eq_some_iff.mp planned
    cases planned
    exact ⟨⟨mem_keys_of_registryNamed named, mem_held_of_ref found⟩, rfl, .elsewhere rfl⟩
  | copyRef source target =>
    obtain ⟨ref, found, planned⟩ := Option.bind_eq_some_iff.mp planned
    cases planned
    exact ⟨mem_held_of_ref found, rfl, .elsewhere rfl⟩
  | dropRef name =>
    cases planned
    exact ⟨trivial, rfl, .elsewhere rfl⟩
  | compare first second =>
    obtain ⟨one, _, planned⟩ := Option.bind_eq_some_iff.mp planned
    obtain ⟨other, _, planned⟩ := Option.bind_eq_some_iff.mp planned
    cases planned
    exact ⟨trivial, rfl, .elsewhere rfl⟩
  | describe name =>
    obtain ⟨ref, _, planned⟩ := Option.bind_eq_some_iff.mp planned
    obtain ⟨spec, _, planned⟩ := Option.bind_eq_some_iff.mp planned
    cases planned
    exact ⟨trivial, rfl, .elsewhere rfl⟩

theorem plans_of_planLocations? {step : LocationStep} {action : Action}
    (planned : session.planLocations? step = some action) :
    session.Plans (.location step) action := by
  cases step with
  | ofSpec target spec path =>
    cases planned
    exact ⟨List.mem_cons_self, rfl, .file rfl (.ofSpec target spec path) (.inl rfl)⟩
  | ofRef target ref path =>
    obtain ⟨shared, found, planned⟩ := Option.bind_eq_some_iff.mp planned
    cases planned
    exact ⟨⟨List.mem_cons_self, mem_held_of_ref found⟩, rfl,
      .file rfl (.ofRef target path found) (.inl rfl)⟩
  | resolve target source relative =>
    obtain ⟨location, found, planned⟩ := Option.bind_eq_some_iff.mp planned
    cases planned
    exact ⟨mem_held_of_location found, rfl,
      .file rfl (.resolve target relative found) (.inl rfl)⟩
  | parent target source =>
    obtain ⟨location, found, planned⟩ := Option.bind_eq_some_iff.mp planned
    split at planned
    · next path enclosing =>
      cases planned
      exact ⟨mem_held_of_location found, rfl,
        .file rfl (.parent target found enclosing) (.inr rfl)⟩
    · cases planned
      exact ⟨trivial, rfl, .elsewhere rfl⟩
  | drop name =>
    cases planned
    exact ⟨trivial, rfl, .drop name⟩
  | ref target name =>
    obtain ⟨location, found, planned⟩ := Option.bind_eq_some_iff.mp planned
    cases planned
    exact ⟨mem_held_of_location found, rfl, .elsewhere rfl⟩
  | describe name =>
    obtain ⟨location, _, planned⟩ := Option.bind_eq_some_iff.mp planned
    obtain ⟨spec, _, planned⟩ := Option.bind_eq_some_iff.mp planned
    cases planned
    exact ⟨trivial, rfl, .elsewhere rfl⟩
  | compare first second =>
    obtain ⟨one, _, planned⟩ := Option.bind_eq_some_iff.mp planned
    obtain ⟨other, _, planned⟩ := Option.bind_eq_some_iff.mp planned
    cases planned
    exact ⟨trivial, rfl, .elsewhere rfl⟩

theorem plans_of_planTables? {step : TableStep} {action : Action}
    (planned : session.planTables? step = some action) : session.Plans (.table step) action := by
  cases step with
  | make target =>
    cases planned
    exact ⟨trivial, rfl, .elsewhere rfl⟩
  | drop name =>
    cases planned
    exact ⟨trivial, rfl, .elsewhere rfl⟩
  | mount name ref target =>
    obtain ⟨table, found, planned⟩ := Option.bind_eq_some_iff.mp planned
    obtain ⟨shared, named, planned⟩ := Option.bind_eq_some_iff.mp planned
    cases planned
    exact ⟨⟨found, mem_held_of_ref named⟩, rfl, .elsewhere rfl⟩
  | unmount name spec =>
    obtain ⟨table, found, planned⟩ := Option.bind_eq_some_iff.mp planned
    cases planned
    exact ⟨found, rfl, .elsewhere rfl⟩
  | lookup name query path =>
    obtain ⟨table, _, planned⟩ := Option.bind_eq_some_iff.mp planned
    cases planned
    exact ⟨trivial, rfl, .elsewhere rfl⟩

theorem plans_of_plan? {step : SessionStep} {action : Action}
    (planned : session.plan? step = some action) : session.Plans step action := by
  cases step with
  | registry step => exact plans_of_planRegistries? planned
  | location step => exact plans_of_planLocations? planned
  | table step => exact plans_of_planTables? planned

/-! ## Carrying out -/

variable [Directory D]

/-- The handle from a source, with the pool in which it is taken. -/
def Source.take (pool : Pool D) : Source → Ref × Pool D
  | .share spec => pool.share spec
  | .canonicalFor registry spec => pool.canonicalFor registry spec
  | .canonicalize registry ref => pool.canonicalize registry ref
  | .again ref => (ref, pool.acquire ref)

/-- Carries out an action. -/
def execute (session : Session D) : Action → SessionReply × Session D
  | .tell reply => session.tell reply
  | .makeRegistry name =>
    let (registry, pool) := session.pool.newRegistry
    (.nothing, session.fileRegistry name registry pool)
  | .copyRegistry name registry =>
    (.nothing, session.fileRegistry name registry (session.pool.acquireRegistry registry))
  | .dropRegistry name =>
    (.flag (session.registries.get? name).isSome, { session with
      pool := letGoRegistry session.pool (session.registries.get? name)
      registries := session.registries.erase name })
  | .fileRef name source =>
    let (ref, pool) := source.take session.pool
    (.nothing, session.fileRef name ref pool)
  | .dropRef name =>
    (.flag (session.refs.get? name).isSome, { session with
      pool := letGoRef session.pool (session.refs.get? name)
      refs := session.refs.erase name })
  | .fileLocation reply name source path =>
    let (ref, pool) := source.take session.pool
    (reply, session.fileLocation name ⟨ref, path⟩ pool)
  | .dropLocation name =>
    (.flag (session.locations.get? name).isSome, { session with
      pool := letGoRef session.pool ((session.locations.get? name).map (·.ref))
      locations := session.locations.erase name })
  | .makeTable name => (.nothing, session.fileTable name Table.empty)
  | .dropTable name =>
    (.flag (session.tables.get? name).isSome, { session with
      pool := letGoTable session.pool (session.tables.get? name)
      tables := session.tables.erase name })
  | .mount name table ref target =>
    let (mounted, table, pool) := table.mount session.pool ref
    let session := { session with pool, tables := session.tables.insert name table }
    match target with
    | some target => (.nothing, session.fileRef target mounted pool)
    | none => (.nothing, { session with pool := pool.release mounted })
  | .unmount name table spec =>
    let (removed, table, pool) := table.unmount session.pool spec
    (.flag removed, { session with pool, tables := session.tables.insert name table })

theorem onRegistries_eq (step : RegistryStep) :
    session.onRegistries step = (session.planRegistries? step).map session.execute := by
  cases step <;> simp [onRegistries, planRegistries?, execute, Source.take, Function.comp_def]

theorem onLocations_eq (step : LocationStep) :
    session.onLocations step = (session.planLocations? step).map session.execute := by
  cases step
  case parent target source =>
    rw [onLocations, planLocations?]
    cases session.locations.get? source with
    | none => rfl
    | some location =>
      dsimp only [bind, Option.bind, Location.parent?]
      cases Path.parent? location.path with
      | none => rfl
      | some path => rfl
  all_goals
    simp [onLocations, planLocations?, execute, Source.take, Location.ofSpec, Location.ofRef,
      Location.resolve, Function.comp_def]

theorem onTables_eq (step : TableStep) :
    session.onTables step = (session.planTables? step).map session.execute := by
  cases step
  case mount name ref target =>
    rw [onTables, planTables?]
    cases session.tables.get? name with
    | none => rfl
    | some table =>
      cases session.refs.get? ref with
      | none => rfl
      | some shared =>
        cases target with
        | none => rfl
        | some target => rfl
  case lookup name query path =>
    rw [onTables, planTables?]
    cases session.tables.get? name with
    | none => rfl
    | some table => rfl
  all_goals simp [onTables, planTables?, execute, Function.comp_def]

theorem perform?_eq (step : SessionStep) :
    session.perform? step = (session.plan? step).map session.execute := by
  cases step with
  | registry step => exact onRegistries_eq step
  | location step => exact onLocations_eq step
  | table step => exact onTables_eq step

/-- **A step carries out an action, or it changes nothing because something is not there.** -/
theorem apply_cases (session : Session D) (step : SessionStep) :
    session.apply step = (.unknown, session) ∨
      ∃ action, session.Plans step action ∧ session.apply step = session.execute action := by
  rw [apply, perform?_eq]
  cases planned : session.plan? step with
  | none => exact .inl rfl
  | some action => exact .inr ⟨action, plans_of_plan? planned, rfl⟩

end Session

end Mounts

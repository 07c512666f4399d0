import Mounts.Location
import Mounts.Table

/-!
# Sessions

A session names the registries, shared specs, locations and mount tables that somebody works with.
Whatever is filed under a name holds the handles that go with it.  Filing something under a used
name first makes the new thing and then gives the handles of the old one back.

Everything here works over any directory.
-/

namespace Mounts

set_option autoImplicit false

/-! ## Names -/

/-- Named handles on a pool. -/
structure Session (D : Type) where
  /-- What the handles refer to. -/
  pool : Pool D
  /-- The named handles to registries. -/
  registries : Keyed RegistryId
  /-- The named handles to shared specs. -/
  refs : Keyed Ref
  /-- The named locations. -/
  locations : Keyed Location
  /-- The named mount tables. -/
  tables : Keyed Table
deriving Repr, DecidableEq

/-- What a step of a session answers. -/
inductive SessionReply
  /-- Nothing to tell. -/
  | nothing
  /-- Nothing was done, because something is named that is not there. -/
  | unknown
  /-- Yes or no. -/
  | flag (answer : Bool)
  /-- A spec. -/
  | spec (spec : Spec)
  /-- Whether two references are to one instance, and whether they are to equal contents. -/
  | refsCompared (same equal : Bool)
  /-- A location with its spec, the spec that asks for its mount, and that spec in a message. -/
  | location (location : Location) (spec request : Spec) (wire : List UInt8)
  /-- Whether two locations are equal, whether the first lies above the second, and the path of the
  second relative to the first. -/
  | locationsCompared (equal above : Bool) (relative : Option String)
  /-- The mount that serves a request, if one does: its spec, how many handles refer to it, and the
  names that are filed for it. -/
  | served (mount : Option (Spec × Nat × List String))
deriving Repr, DecidableEq

namespace Session

variable {D : Type} [Directory D]

/-- The session in which nothing is named. -/
def start : Session D :=
  ⟨Pool.empty, ∅, ∅, ∅, ∅⟩

/-- A reply that leaves the session as it is. -/
def tell (session : Session D) (reply : SessionReply) : SessionReply × Session D :=
  (reply, session)

/-! ### Giving handles back -/

/-- The pool after a reference, if there is one, is given up. -/
def letGoRef (pool : Pool D) (held : Option Ref) : Pool D :=
  match held with
  | some ref => pool.release ref
  | none => pool

/-- The pool after a handle to a registry, if there is one, is given up. -/
def letGoRegistry (pool : Pool D) (held : Option RegistryId) : Pool D :=
  match held with
  | some registry => pool.releaseRegistry registry
  | none => pool

/-- The pool after a table, if there is one, is given up. -/
def letGoTable (pool : Pool D) (held : Option Table) : Pool D :=
  match held with
  | some table => pool.releaseAll table.mounts
  | none => pool

/-! ### Filing under names

Each of these takes the pool in which the handles of the new thing were made. -/

/-- Files a handle to a registry. -/
def fileRegistry (session : Session D) (name : String) (registry : RegistryId) (pool : Pool D) :
    Session D :=
  { session with
    pool := letGoRegistry pool (session.registries.get? name)
    registries := session.registries.insert name registry }

/-- Files a reference. -/
def fileRef (session : Session D) (name : String) (ref : Ref) (pool : Pool D) : Session D :=
  { session with
    pool := letGoRef pool (session.refs.get? name)
    refs := session.refs.insert name ref }

/-- Files a location. -/
def fileLocation (session : Session D) (name : String) (location : Location) (pool : Pool D) :
    Session D :=
  { session with
    pool := letGoRef pool ((session.locations.get? name).map (·.ref))
    locations := session.locations.insert name location }

/-- Files a table that holds no handles yet. -/
def fileTable (session : Session D) (name : String) (table : Table) : Session D :=
  { session with
    pool := letGoTable session.pool (session.tables.get? name)
    tables := session.tables.insert name table }

/-- The names that are filed for an instance, in order. -/
def namesOf (session : Session D) (ref : Ref) : List String :=
  (session.refs.entries.filter (·.2 == ref)).map (·.1)

end Session

/-!
## Steps on registries and shared specs

The shared registry goes by a name of its own, which needs no handle.
-/

/-- A step that makes or drops registries, or makes, drops or looks at shared specs. -/
inductive RegistryStep
  /-- Makes a registry. -/
  | make (target : String)
  /-- Files another handle to a registry. -/
  | copy (source target : String)
  /-- Drops a handle to a registry. -/
  | drop (name : String)
  /-- Shares a spec without a registry. -/
  | share (target : String) (spec : Spec)
  /-- Files the canonical instance of a content. -/
  | canonicalFor (target registry : String) (spec : Spec)
  /-- Files the canonical instance for a shared spec. -/
  | canonicalize (target registry source : String)
  /-- Files another handle to a shared spec. -/
  | copyRef (source target : String)
  /-- Drops a handle to a shared spec. -/
  | dropRef (name : String)
  /-- Compares two shared specs. -/
  | compare (first second : String)
  /-- Looks at a shared spec. -/
  | describe (name : String)
deriving Repr, DecidableEq

namespace Session

variable {D : Type} [Directory D]

/-- The name of the shared registry. -/
def globalName : String := "global"

/-- The registry that goes by a name. -/
def registryNamed (session : Session D) (name : String) : Option RegistryId :=
  if name = globalName then some Pool.global else session.registries.get? name

/-- Carries out a step on registries and shared specs, if what it names is there. -/
def onRegistries (session : Session D) : RegistryStep → Option (SessionReply × Session D)
  | .make target =>
    let (registry, pool) := session.pool.newRegistry
    some (.nothing, session.fileRegistry target registry pool)
  | .copy source target => do
    let registry ← session.registryNamed source
    return (.nothing, session.fileRegistry target registry (session.pool.acquireRegistry registry))
  | .drop name =>
    let held := session.registries.get? name
    some (.flag held.isSome, { session with
      pool := letGoRegistry session.pool held
      registries := session.registries.erase name })
  | .share target spec =>
    let (ref, pool) := session.pool.share spec
    some (.nothing, session.fileRef target ref pool)
  | .canonicalFor target registry spec => do
    let registry ← session.registryNamed registry
    let (ref, pool) := session.pool.canonicalFor registry spec
    return (.nothing, session.fileRef target ref pool)
  | .canonicalize target registry source => do
    let registry ← session.registryNamed registry
    let shared ← session.refs.get? source
    let (ref, pool) := session.pool.canonicalize registry shared
    return (.nothing, session.fileRef target ref pool)
  | .copyRef source target => do
    let ref ← session.refs.get? source
    return (.nothing, session.fileRef target ref (session.pool.acquire ref))
  | .dropRef name =>
    let held := session.refs.get? name
    some (.flag held.isSome, { session with
      pool := letGoRef session.pool held
      refs := session.refs.erase name })
  | .compare first second => do
    let first ← session.refs.get? first
    let second ← session.refs.get? second
    return session.tell (.refsCompared (first == second) (session.pool.sameContent first second))
  | .describe name => do
    let spec ← session.pool.spec? (← session.refs.get? name)
    return session.tell (.spec spec)

end Session

/-! ## Steps on locations -/

/-- A step that makes, derives, drops or looks at locations. -/
inductive LocationStep
  /-- Files the location of a path on a spec. -/
  | ofSpec (target : String) (spec : Spec) (path : String)
  /-- Files the location of a path on a shared spec. -/
  | ofRef (target ref path : String)
  /-- Files the location that a text names from another one. -/
  | resolve (target source relative : String)
  /-- Files the location of the enclosing directory, unless there is none. -/
  | parent (target source : String)
  /-- Drops a location. -/
  | drop (name : String)
  /-- Files another handle to the spec of a location. -/
  | ref (target name : String)
  /-- Looks at a location. -/
  | describe (name : String)
  /-- Compares two locations. -/
  | compare (first second : String)
deriving Repr, DecidableEq

namespace Session

variable {D : Type} [Directory D]

/-- Carries out a step on locations, if what it names is there. -/
def onLocations (session : Session D) : LocationStep → Option (SessionReply × Session D)
  | .ofSpec target spec path =>
    let (location, pool) := Location.ofSpec session.pool spec path
    some (.nothing, session.fileLocation target location pool)
  | .ofRef target ref path => do
    let (location, pool) := Location.ofRef session.pool (← session.refs.get? ref) path
    return (.nothing, session.fileLocation target location pool)
  | .resolve target source relative => do
    let source ← session.locations.get? source
    let (location, pool) := source.resolve session.pool relative
    return (.nothing, session.fileLocation target location pool)
  | .parent target source => do
    let source ← session.locations.get? source
    match source.parent? session.pool with
    | some (location, pool) => return (.flag true, session.fileLocation target location pool)
    | none => return session.tell (.flag false)
  | .drop name =>
    let held := session.locations.get? name
    some (.flag held.isSome, { session with
      pool := letGoRef session.pool (held.map (·.ref))
      locations := session.locations.erase name })
  | .ref target name => do
    let location ← session.locations.get? name
    return (.nothing, session.fileRef target location.ref (session.pool.acquire location.ref))
  | .describe name => do
    let location ← session.locations.get? name
    let spec ← session.pool.spec? location.ref
    return session.tell
      (.location location spec (location.requestSpec spec) (location.toWire spec))
  | .compare first second => do
    let first ← session.locations.get? first
    let second ← session.locations.get? second
    return session.tell
      (.locationsCompared (first == second) (first.isAbove second) (first.relativePath? second))

end Session

/-! ## Steps on mount tables -/

/-- A step that makes, drops, changes or asks mount tables. -/
inductive TableStep
  /-- Makes a table without mounts. -/
  | make (target : String)
  /-- Drops a table. -/
  | drop (name : String)
  /-- Mounts a shared spec, and files what is then mounted if a name for it is given. -/
  | mount (name ref : String) (target : Option String)
  /-- Takes the mounts of a spec out. -/
  | unmount (name : String) (spec : Spec)
  /-- Asks for the mount that serves a path for a query, or the path that the query claims. -/
  | lookup (name : String) (query : Spec) (path : Option String)
deriving Repr, DecidableEq

namespace Session

variable {D : Type} [Directory D]

/-- What there is to tell about a mount that was found. -/
def describeMount? (session : Session D) (ref : Ref) : Option (Spec × Nat × List String) :=
  (session.pool.spec? ref).map fun spec =>
    (spec, session.pool.handles ref, session.namesOf ref)

/-- Carries out a step on mount tables, if what it names is there. -/
def onTables (session : Session D) : TableStep → Option (SessionReply × Session D)
  | .make target => some (.nothing, session.fileTable target Table.empty)
  | .drop name =>
    let held := session.tables.get? name
    some (.flag held.isSome, { session with
      pool := letGoTable session.pool held
      tables := session.tables.erase name })
  | .mount name ref target => do
    let table ← session.tables.get? name
    let (mounted, table, pool) := table.mount session.pool (← session.refs.get? ref)
    let session := { session with pool, tables := session.tables.insert name table }
    match target with
    | some target => return (.nothing, session.fileRef target mounted pool)
    | none => return (.nothing, { session with pool := pool.release mounted })
  | .unmount name spec => do
    let table ← session.tables.get? name
    let (removed, table, pool) := table.unmount session.pool spec
    return (.flag removed, { session with pool, tables := session.tables.insert name table })
  | .lookup name query path => do
    let table ← session.tables.get? name
    let found := match path with
      | some path => table.lookup session.pool query path
      | none => table.lookupSpec session.pool query
    return session.tell (.served (found.bind session.describeMount?))

end Session

/-!
## Running sessions

A session is a list of steps from an empty start.  `Session.run` records the reply to each step and
a view of everything named after it, which is all that somebody outside can tell: sizes of
registries, identities and handle counts, paths, and what the tables hold.
-/

/-- A step of a session. -/
inductive SessionStep
  /-- A step on registries and shared specs. -/
  | registry (step : RegistryStep)
  /-- A step on locations. -/
  | location (step : LocationStep)
  /-- A step on mount tables. -/
  | table (step : TableStep)
deriving Repr, DecidableEq

/-- What can be seen of an instance through a handle. -/
structure InstanceView where
  /-- How many handles refer to the instance. -/
  handles : Nat
  /-- Whether a registry made the instance canonical. -/
  canonical : Bool
deriving Repr, DecidableEq

/-- What can be seen of a session. -/
structure SessionView where
  /-- The registries with their sizes. -/
  registries : List (String × Nat)
  /-- The shared specs, each with the first name for its instance. -/
  refs : List (String × String × InstanceView)
  /-- The locations, each with its path. -/
  locations : List (String × String × InstanceView)
  /-- The tables, each with its mounts and their handles. -/
  tables : List (String × List (Spec × Nat))
deriving Repr, DecidableEq

namespace Session

variable {D : Type} [Directory D]

/-- What can be seen of an instance. -/
def viewInstance (session : Session D) (ref : Ref) : InstanceView :=
  ⟨session.pool.handles ref, session.pool.isCanonical ref⟩

/-- What can be seen of a session. -/
def view (session : Session D) : SessionView where
  registries :=
    (session.registries.entries ++ [(globalName, Pool.global)]).map fun (name, registry) =>
      (name, session.pool.size registry)
  refs := session.refs.entries.map fun (name, ref) =>
    (name, (session.namesOf ref).headD name, session.viewInstance ref)
  locations := session.locations.entries.map fun (name, location) =>
    (name, location.path, session.viewInstance location.ref)
  tables := session.tables.entries.map fun (name, table) =>
    (name, (table.entries session.pool).map fun (ref, spec) => (spec, session.pool.handles ref))

/-- Carries out a step, if what it names is there. -/
def perform? (session : Session D) : SessionStep → Option (SessionReply × Session D)
  | .registry step => session.onRegistries step
  | .location step => session.onLocations step
  | .table step => session.onTables step

/-- Carries out a step; one that names what is not there changes nothing. -/
def apply (session : Session D) (step : SessionStep) : SessionReply × Session D :=
  (session.perform? step).getD (.unknown, session)

/-- The session after several steps. -/
def after (session : Session D) (steps : List SessionStep) : Session D :=
  steps.foldl (fun session step => (session.apply step).2) session

/-- The reply to each of several steps with a view of the session after it. -/
def run (session : Session D) : List SessionStep → List (SessionReply × SessionView)
  | [] => []
  | step :: steps =>
    let (reply, next) := session.apply step
    (reply, next.view) :: next.run steps

end Session

end Mounts

import Mounts.Spec.Basic

/-!
# Registries

A registry shares specs, so that specs of one content are one instance for as long as somebody holds
it.  It finds an instance by its content through a directory; a pool holds the instances and all
registries, and counts the handles to each.
-/

namespace Mounts

set_option autoImplicit false

/-!
## Directories

A registry keeps a directory of the references to the instances that it made canonical, so that a
spec finds the instance of its content.  How a directory arranges its references is its own affair:
the class `Directory` asks for what a registry needs, and registries work over any directory.

A directory does not keep specs.  It hands out the candidates for a content, and whoever searches it
compares what they stand for.
-/

/-- A reference to a shared instance, by the number under which the instance was made. -/
structure Ref where
  /-- How many instances were made before. -/
  index : Nat
deriving Repr, DecidableEq, Inhabited

/-- The references of one registry, arranged for search by content. -/
class Directory (D : Type) where
  /-- The directory that holds no reference. -/
  empty : D
  /-- The references among which one of a content has to be looked for. -/
  candidates : D → Spec → List Ref
  /-- Strikes out those of the candidates for a content that fail a test. -/
  sweep : D → Spec → (Ref → Bool) → D
  /-- Enters a reference that stands for a spec. -/
  insert : D → Spec → Ref → D
  /-- All references. -/
  members : D → List Ref

/-- A plain list of references, searched from its start. -/
structure Roster where
  /-- The references in the order of their entry. -/
  refs : List Ref
deriving Repr, DecidableEq

instance : Directory Roster where
  empty := ⟨[]⟩
  candidates roster _ := roster.refs
  sweep roster _ keep := ⟨roster.refs.filter keep⟩
  insert roster _ ref := ⟨roster.refs ++ [ref]⟩
  members roster := roster.refs

/-!
## Directories by digest

References are kept in buckets, one for each digest that occurs.  A search looks at one bucket only,
and compares contents there, since different specs may share a digest.  A bucket that loses its last
reference is removed.
-/

/-- References in buckets by the digest of what they stand for. -/
structure Buckets where
  /-- The digests that occur, each with its references in the order of their entry. -/
  buckets : List (UInt32 × List Ref)
deriving Repr, DecidableEq

namespace Buckets

/-- The references with a digest. -/
def bucket (directory : Buckets) (digest : UInt32) : List Ref :=
  ((directory.buckets.find? (·.1 == digest)).map (·.2)).getD []

/-- Adds a reference at the end of the bucket for a digest. -/
def add (digest : UInt32) (ref : Ref) : List (UInt32 × List Ref) → List (UInt32 × List Ref)
  | [] => [(digest, [ref])]
  | (other, refs) :: rest =>
    if other = digest then (other, refs ++ [ref]) :: rest else (other, refs) :: add digest ref rest

/-- Strikes out the references in the bucket for a digest that fail a test, and the bucket if none
is left. -/
def sweep (digest : UInt32) (keep : Ref → Bool) :
    List (UInt32 × List Ref) → List (UInt32 × List Ref)
  | [] => []
  | (other, refs) :: rest =>
    if other = digest then
      match refs.filter keep with
      | [] => rest
      | kept => (other, kept) :: rest
    else (other, refs) :: sweep digest keep rest

end Buckets

instance : Directory Buckets where
  empty := ⟨[]⟩
  candidates directory spec := directory.bucket spec.digest
  sweep directory spec keep := ⟨Buckets.sweep spec.digest keep directory.buckets⟩
  insert directory spec ref := ⟨Buckets.add spec.digest ref directory.buckets⟩
  members directory := directory.buckets.flatMap (·.2)

/-!
## Shared specs

A spec is shared as an instance that any number of handles refer to.  An instance lives as long as
it has a handle.  A registry makes instances canonical: of each content it has one instance at a
time, so canonical specs of one registry can be compared by identity.

A pool holds all instances and registries.  A registry lives as long as it has a handle itself, and
its directory is gone with the last one; the instances that it made stay canonical.  A registry
never keeps an instance alive: the release of the last handle to an instance strikes it out of the
directory of its registry.

Every operation that hands out a reference hands out a handle with it, which somebody has to
release.  Instances are numbered in the order in which they were made and no number is used again,
so references are equal exactly when they are to one instance.
-/

/-- A registry, by the number under which it was made. -/
structure RegistryId where
  /-- How many registries were made before. -/
  index : Nat
deriving Repr, DecidableEq, Inhabited

/-- A spec that handles refer to. -/
structure Instance where
  /-- The content. -/
  spec : Spec
  /-- The registry that made the instance canonical. -/
  home : Option RegistryId
  /-- How many handles refer to the instance. -/
  handles : Nat
deriving Repr, DecidableEq

/-- A registry with its directory. -/
structure Registry (D : Type) where
  /-- How many handles refer to the registry. -/
  handles : Nat
  /-- The references to the instances that the registry made canonical. -/
  directory : D
deriving Repr, DecidableEq

/-- All instances and registries. -/
structure Pool (D : Type) where
  /-- The instances in the order in which they were made, those without handles included. -/
  instances : List Instance
  /-- The registries in the order in which they were made, those without handles included. -/
  registries : List (Registry D)
deriving Repr, DecidableEq

namespace Pool

variable {D : Type}

/-! ### What a pool holds -/

/-- The instance that a reference is to. -/
def instance? (pool : Pool D) (ref : Ref) : Option Instance :=
  pool.instances[ref.index]?

/-- The content of an instance. -/
def spec? (pool : Pool D) (ref : Ref) : Option Spec :=
  (pool.instance? ref).map (·.spec)

/-- How many handles refer to an instance. -/
def handles (pool : Pool D) (ref : Ref) : Nat :=
  ((pool.instance? ref).map (·.handles)).getD 0

/-- Whether a registry made an instance canonical. -/
def isCanonical (pool : Pool D) (ref : Ref) : Bool :=
  ((pool.instance? ref).bind (·.home)).isSome

/-- Whether two references are to instances of equal content. -/
def sameContent (pool : Pool D) (first second : Ref) : Bool :=
  first == second || pool.spec? first == pool.spec? second

/-- Changes what a registry holds. -/
def updateRegistry (pool : Pool D) (registry : RegistryId) (change : Registry D → Registry D) :
    Pool D :=
  { pool with registries := pool.registries.modify registry.index change }

variable [Directory D]

/-- The registry that everybody shares and that is never dropped. -/
def global : RegistryId := ⟨0⟩

/-- The pool without instances, in which there is only the shared registry. -/
def empty : Pool D :=
  ⟨[], [⟨1, Directory.empty⟩]⟩

instance : Inhabited (Pool D) := ⟨empty⟩

/-- The directory of a registry. -/
def directory (pool : Pool D) (registry : RegistryId) : D :=
  ((pool.registries[registry.index]?).map (·.directory)).getD Directory.empty

/-- The number of instances in a registry that have handles. -/
def size (pool : Pool D) (registry : RegistryId) : Nat :=
  ((Directory.members (pool.directory registry)).filter fun ref => pool.handles ref != 0).length

/-! ### Handles to instances -/

/-- Takes another handle to an instance. -/
def acquire (pool : Pool D) (ref : Ref) : Pool D :=
  { pool with
    instances := pool.instances.modify ref.index fun held =>
      { held with handles := held.handles + 1 } }

/-- Gives a handle to an instance back.  The last one takes the instance out of its registry. -/
def release (pool : Pool D) (ref : Ref) : Pool D :=
  match pool.instance? ref with
  | none => pool
  | some held =>
    let lowered : Pool D := { pool with
      instances := pool.instances.set ref.index { held with handles := held.handles - 1 } }
    match held.home with
    | some registry =>
      if held.handles = 1 then
        lowered.updateRegistry registry fun entry =>
          { entry with directory := Directory.sweep entry.directory held.spec fun other =>
              lowered.handles other != 0 && other != ref }
      else lowered
    | none => lowered

/-- Gives several handles back, one after another. -/
def releaseAll (pool : Pool D) (refs : List Ref) : Pool D :=
  refs.foldl release pool

/-- Makes an instance with one handle. -/
def make (pool : Pool D) (spec : Spec) (home : Option RegistryId) : Ref × Pool D :=
  (⟨pool.instances.length⟩, { pool with instances := pool.instances ++ [⟨spec, home, 1⟩] })

/-- Shares a spec without a registry. -/
def share (pool : Pool D) (spec : Spec) : Ref × Pool D :=
  pool.make spec none

/-! ### Canonical instances -/

/-- Looks for a content among references and takes a handle to each instance on the way.  The answer
tells the reference found, on which a handle is kept, and those passed over, on which one has to be
given back. -/
def search (pool : Pool D) (spec : Spec) : List Ref → Option Ref × List Ref × Pool D
  | [] => (none, [], pool)
  | ref :: refs =>
    if pool.handles ref = 0 then pool.search spec refs
    else
      let holding := pool.acquire ref
      if holding.spec? ref = some spec then (some ref, [], holding)
      else
        let (found, passed, after) := holding.search spec refs
        (found, ref :: passed, after)

/-- The canonical instance of a content in a registry, made if there is none. -/
def canonicalFor (pool : Pool D) (registry : RegistryId) (spec : Spec) : Ref × Pool D :=
  let swept := pool.updateRegistry registry fun entry =>
    { entry with directory := Directory.sweep entry.directory spec fun ref =>
        pool.handles ref != 0 }
  match swept.search spec (Directory.candidates (swept.directory registry) spec) with
  | (some ref, passed, holding) => (ref, holding.releaseAll passed)
  | (none, passed, holding) =>
    let (ref, made) := holding.make spec (some registry)
    let entered := made.updateRegistry registry fun entry =>
      { entry with directory := Directory.insert entry.directory spec ref }
    (ref, entered.releaseAll passed)

/-- The canonical instance for a shared one: itself if it is canonical, in whatever registry, and
the one of its content in the given registry if it is not. -/
def canonicalize (pool : Pool D) (registry : RegistryId) (ref : Ref) : Ref × Pool D :=
  match pool.instance? ref with
  | none => (ref, pool)
  | some held =>
    if held.home.isSome then (ref, pool.acquire ref) else pool.canonicalFor registry held.spec

/-! ### Handles to registries -/

/-- Makes a registry with one handle. -/
def newRegistry (pool : Pool D) : RegistryId × Pool D :=
  (⟨pool.registries.length⟩,
    { pool with registries := pool.registries ++ [⟨1, Directory.empty⟩] })

/-- Takes another handle to a registry. -/
def acquireRegistry (pool : Pool D) (registry : RegistryId) : Pool D :=
  pool.updateRegistry registry fun entry => { entry with handles := entry.handles + 1 }

/-- Gives a handle to a registry back.  The last one takes the directory away. -/
def releaseRegistry (pool : Pool D) (registry : RegistryId) : Pool D :=
  pool.updateRegistry registry fun entry =>
    if entry.handles = 1 then ⟨0, Directory.empty⟩
    else { entry with handles := entry.handles - 1 }

end Pool

end Mounts

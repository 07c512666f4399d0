import Mounts.Registry
import Mounts.Spec.Basic

/-!
# Mount tables

A mount table lists what a daemon has mounted.  A request names parameters and a path, and the
table finds the mount that serves it; of nested mounts the one with the longest scope.

Every entry of a table holds a handle to its instance.
-/

namespace Mounts

set_option autoImplicit false

/-- The mounts of a daemon. -/
structure Table where
  /-- The canonical instances of the mounted specs, in the order of mounting. -/
  mounts : List Ref
deriving Repr, DecidableEq, Inhabited

namespace Table

variable {D : Type}

/-- The table without mounts. -/
def empty : Table := ⟨[]⟩

/-! ## Routing -/

/-- The mounts with their specs. -/
def entries (pool : Pool D) (table : Table) : List (Ref × Spec) :=
  table.mounts.filterMap fun ref => (pool.spec? ref).map fun spec => (ref, spec)

/-- Of several mounts the one with the longest scope, and the last of those. -/
def longest? : List (Ref × Spec) → Option (Ref × Spec)
  | [] => none
  | first :: rest =>
    match longest? rest with
    | none => some first
    | some best =>
      if best.2.scope.utf8ByteSize < first.2.scope.utf8ByteSize then some first else some best

/-- The mount that serves a path for a query. -/
def lookup (pool : Pool D) (table : Table) (query : Spec) (path : String) : Option Ref :=
  (longest? ((table.entries pool).filter fun entry => entry.2.serves query path)).map (·.1)

/-- The mount that serves the path that a query claims. -/
def lookupSpec (pool : Pool D) (table : Table) (query : Spec) : Option Ref :=
  table.lookup pool query query.scope

/-! ## Mounting -/

variable [Directory D]

/-- Mounts a shared spec.  The answer holds a handle to the instance that is now in the table. -/
def mount (pool : Pool D) (table : Table) (ref : Ref) : Ref × Table × Pool D :=
  let (mounted, pool) := pool.canonicalize Pool.global ref
  if mounted ∈ table.mounts then (mounted, table, pool)
  else (mounted, ⟨table.mounts ++ [mounted]⟩, pool.acquire mounted)

/-- Takes the mounts of a spec out, and tells whether there was one. -/
def unmount (pool : Pool D) (table : Table) (spec : Spec) : Bool × Table × Pool D :=
  let (removed, kept) := table.mounts.partition fun ref => pool.spec? ref == some spec
  (!removed.isEmpty, ⟨kept⟩, pool.releaseAll removed)

end Table

end Mounts

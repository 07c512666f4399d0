import Mounts.Registry
import Mounts.Spec.Wire

/-!
# Locations

A location is a canonical path on a canonical instance of a spec.  Locations on one mount share the
instance, so they compare by identity and path.

A location holds a handle to its instance, and every location that is derived from it holds one of
its own.
-/

namespace Mounts

set_option autoImplicit false

/-- A path on a shared spec. -/
structure Location where
  /-- The shared spec. -/
  ref : Ref
  /-- The path on it. -/
  path : String
deriving Repr, DecidableEq

namespace Location

variable {D : Type} [Directory D]

/-! ## Making and deriving locations -/

/-- The location of a path on a spec. -/
def ofSpec (pool : Pool D) (spec : Spec) (path : String) : Location × Pool D :=
  let (ref, pool) := pool.canonicalFor Pool.global spec
  (⟨ref, Path.canonicalize path⟩, pool)

/-- The location of a path on a spec that is shared already. -/
def ofRef (pool : Pool D) (ref : Ref) (path : String) : Location × Pool D :=
  let (ref, pool) := pool.canonicalize Pool.global ref
  (⟨ref, Path.canonicalize path⟩, pool)

/-- The location of the enclosing directory; the top of a tree has none. -/
def parent? (pool : Pool D) (location : Location) : Option (Location × Pool D) :=
  (Path.parent? location.path).map fun path => (⟨location.ref, path⟩, pool.acquire location.ref)

/-- The location that a text names from this one. -/
def resolve (pool : Pool D) (location : Location) (relative : String) : Location × Pool D :=
  (⟨location.ref, Path.resolve location.path relative⟩, pool.acquire location.ref)

/-! ## Comparing locations -/

/-- What follows a location's path in that of another one below it, from the separator on. -/
def remainder? (above below : Location) : Option String :=
  if above.ref = below.ref then
    (Path.remainder? below.path above.path).filter Path.startsAtRoot
  else none

/-- Whether a location lies below another one. -/
def isAbove (above below : Location) : Bool :=
  (remainder? above below).isSome

/-- The path of a location relative to another one above it. -/
def relativePath? (above below : Location) : Option String :=
  (remainder? above below).map fun rest => String.ofList (rest.toList.drop 1)

/-! ## Asking a daemon -/

/-- The last segment of the path, or the whole path at the top of a tree. -/
def basename (location : Location) : String :=
  Path.basename location.path

/-- The spec of a location's mount, claiming the path of the location. -/
def requestSpec (spec : Spec) (location : Location) : Spec :=
  spec.rescope location.path

/-- The bytes of the spec of a location's mount, with the path of the location announced. -/
def toWire (spec : Spec) (location : Location) : List UInt8 :=
  spec.toWire (some location.path)

end Location

end Mounts

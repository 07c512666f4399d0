import Mounts.Keyed
import Mounts.Path
import Mounts.Text.Basic

/-!
# Mount specs

A mount spec says which mount is meant.  Its parameters decide which connection serves a request,
and its scope, the path prefix it claims, decides which part of that connection's tree.
-/

namespace Mounts

set_option autoImplicit false

/-!
## Parameters

The parameters of a mount are texts filed under text keys: its type, its host, its user.  Peers end
a text at its first NUL, so keys and values are cut there when they are stored.
-/

/-- The parameters of a mount, in increasing order of their keys. -/
abbrev Params := Keyed String

namespace Params

/-- Stores a value under a key; both end at their first NUL.  A key that is there keeps its place,
and a new one is added behind the others before all are put in order. -/
def set (params : Params) (key value : String) : Params :=
  let key := Text.untilNul key
  let value := Text.untilNul value
  if there : (params.get? key).isSome then
    ⟨Keyed.overwrite key value params.entries,
      Keyed.increasing_overwrite key value params.increasing⟩
  else
    ⟨Keyed.sortByKey (params.entries ++ [(key, value)]),
      Keyed.increasing_sortByKey_append value params.increasing
        (Keyed.get?_eq_none_iff.mp (Option.not_isSome_iff_eq_none.mp there))⟩

/-- Stores the whole characters of a value that fit in a number of bytes, or all of it if no number
is given. -/
def setWithin (params : Params) (key value : String) (limit : Option Nat) : Params :=
  match limit with
  | some limit => params.set key (Text.within limit value)
  | none => params.set key value

/-- The parameters of a list of pairs; keys and values end at their first NUL, and the last value
given for a key counts. -/
def ofPairs (pairs : List (String × String)) : Params :=
  Keyed.ofList (pairs.map fun pair => (Text.untilNul pair.1, Text.untilNul pair.2))

end Params

/-! ## Specs -/

/-- The parameters of a mount and the path under which it serves. -/
@[ext]
structure Spec where
  /-- What tells one connection from another. -/
  params : Params
  /-- The path prefix that the mount claims. -/
  scope : String
deriving Repr, DecidableEq

namespace Spec

/-- The key of the mount type. -/
def typeKey : String := "type"

/-- The spec without parameters that claims a whole tree. -/
def blank : Spec := ⟨∅, Path.root⟩

instance : Inhabited Spec := ⟨blank⟩

/-- Stores a parameter, in place of the key's earlier value. -/
def set (spec : Spec) (key value : String) : Spec :=
  { spec with params := spec.params.set key value }

/-- Stores as much of a parameter as fits in a number of bytes. -/
def setWithin (spec : Spec) (key value : String) (limit : Option Nat) : Spec :=
  { spec with params := spec.params.setWithin key value limit }

/-- Claims another path prefix, which ends at its first NUL. -/
def rescope (spec : Spec) (scope : String) : Spec :=
  { spec with scope := Text.untilNul scope }

/-- A spec of the given type, if any, that claims a whole tree. -/
def ofType (mountType : Option String) : Spec :=
  match mountType with
  | some mountType => blank.set typeKey mountType
  | none => blank

/-- A spec of collected parameters; without a scope it claims a whole tree. -/
def ofParams (params : Params) (scope : Option String) : Spec :=
  ⟨params, Text.untilNul (scope.getD Path.root)⟩

/-- The value of a parameter. -/
def get? (spec : Spec) (key : String) : Option String :=
  spec.params.get? key

/-- The mount type. -/
def type? (spec : Spec) : Option String :=
  spec.get? typeKey

end Spec

/-!
## Which mount serves a request

A mounted spec serves a path for a query if both have the same parameters and the path lies under
the scope that the mounted spec claims.
-/

namespace Spec

/-- Whether a mounted spec serves a path for a query. -/
def serves (mounted query : Spec) (path : String) : Bool :=
  decide (mounted.params = query.params) && Path.liesUnder path (some mounted.scope)

/-- Whether a mounted spec serves the path that a query claims. -/
def servesQuery (mounted query : Spec) : Bool :=
  mounted.serves query query.scope

end Spec

/-!
## Order

Parameters compare entry by entry, each by its key and then by its value, and a collection that
ends first comes first.  Specs compare by their parameters and then by their scope.  Texts compare
by their code points.
-/

/-- Compares two parameters by key and then by value. -/
def Params.compareEntry (first second : String × String) : Ordering :=
  (compare first.1 second.1).then (compare first.2 second.2)

/-- Compares two collections of parameters entry by entry. -/
def Params.compare (first second : Params) : Ordering :=
  List.compareLex Params.compareEntry first.entries second.entries

/-- Compares two specs by their parameters and then by their scope. -/
def Spec.compare (first second : Spec) : Ordering :=
  (Params.compare first.params second.params).then (Ord.compare first.scope second.scope)

instance : Ord Spec := ⟨Spec.compare⟩

/-!
## Digests

Equal specs have equal digests.  The digest of a spec combines the digests of its scope and of its
values by exclusive or.  Keys take no part, so specs that differ only in their keys share a digest,
and two equal values cancel out.
-/

namespace Spec

/-- The digest of a spec. -/
def digest (spec : Spec) : UInt32 :=
  spec.params.values.foldl (fun sum value => sum ^^^ Text.digest value) (Text.digest spec.scope)

end Spec

end Mounts

import Mounts.Text.Basic

/-!
# Paths

A path is a text whose segments are the pieces between its `/` separators.  Everything here is
lexical: no file system is asked and no link is followed.

Walking through the segments of a path keeps a trail of names.  An empty segment and `.` leave the
trail as it is, `..` takes its last name away if there is one, and any other segment is a name that
lengthens it.  The canonical form of a path writes every name on the trail after a separator, and
is `/` if the trail is empty.

Two tests relate paths.  `liesUnder` decides whether a path falls in the part of a tree that a
scope names, and `remainder?` is what follows one path in another.  They read the texts as they
are, whether canonical or not.
-/

namespace Mounts.Path

set_option autoImplicit false

/-- The character between two segments. -/
def separator : Char := '/'

/-- The path of the top of a tree. -/
def root : String := "/"

/-- The pieces of a path between its separators, empty ones included. -/
def segments (path : String) : List String :=
  Text.splitOn separator path

/-! ## Canonical form -/

/-- Follows one segment from a trail of names, the innermost name first. -/
def follow (trail : List String) (segment : String) : List String :=
  if segment = "" ∨ segment = "." then trail
  else if segment = ".." then trail.drop 1
  else segment :: trail

/-- The names left after following segments from the top of a tree, the outermost first. -/
def trail (segments : List String) : List String :=
  (segments.foldl follow []).reverse

/-- The path that writes every name after a separator. -/
def ofNames : List String → String
  | [] => root
  | name :: names => String.ofList ((name :: names).flatMap fun each => separator :: each.toList)

/-- The absolute path without empty, `.` and `..` segments that a path stands for. -/
def canonicalize (path : String) : String :=
  ofNames (trail (segments path))

/-! ## Prefix tests -/

/-- Whether a text ends with a separator. -/
def endsOpen (path : String) : Bool :=
  path.toList.getLast? == some separator

/-- Whether a text starts with a separator. -/
def startsAtRoot (path : String) : Bool :=
  path.toList.head? == some separator

/-- Whether a path falls in the part of a tree that a scope names.  No scope and the empty scope
take every path; any other takes those that start with it and end there or open a segment, and with
a separator at its end also the directory that it names. -/
def liesUnder (path : String) : Option String → Bool
  | none => true
  | some scope =>
    if scope = "" then true
    else match scope.toList.isPrefixOf? path.toList with
      | some rest => endsOpen scope || rest.isEmpty || rest.head? == some separator
      | none => path != "" && scope == path.push separator

/-- What follows `above` in a path that starts with it.

A separator at the end of `above` is left at the start of the remainder, so a remainder that starts
with a separator always begins a new segment. -/
def remainder? (path above : String) : Option String :=
  (above.toList.isPrefixOf? path.toList).map fun rest =>
    String.ofList (if endsOpen above then separator :: rest else rest)

/-! ## Moving through a tree -/

/-- The last segment of a path, or the whole path if it ends with a separator. -/
def basename (path : String) : String :=
  match (segments path).getLast? with
  | some last => if last = "" then path else last
  | none => path

/-- The canonical path of the enclosing directory, if a path names an entry of one. -/
def parent? (path : String) : Option String :=
  match (segments path).reverse with
  | last :: above :: further =>
    if last = "" then none else some (ofNames (trail (above :: further).reverse))
  | _ => none

/-- The canonical path that a text names from a base: an absolute text replaces the base. -/
def resolve (base relative : String) : String :=
  if startsAtRoot relative then canonicalize relative
  else canonicalize (base.push separator ++ relative)

end Mounts.Path

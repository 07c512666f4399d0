import Mounts.Spec.Basic
import Mounts.Text.Basic
import Mounts.Text.Percent

/-!
# Specs as texts

A spec is given by arguments on a command line, and by one line in the compact form.  Both can be
refused, and an error tells why.
-/

namespace Mounts

set_option autoImplicit false

/-!
## What can be wrong with a written spec

Specs are read from a text form, from arguments and from messages.  An error tells which rule the
input breaks and names the part of it that does; `SpecError.message` gives it its wording.
-/

/-- The forms of a command line. -/
inductive Usage
  /-- Parameters, one in each argument. -/
  | pairs
  /-- The two names that a spawner hands over. -/
  | spawner
deriving Repr, DecidableEq

/-- How arguments of a form are written. -/
def Usage.synopsis : Usage → String
  | .pairs => "key=value key=value ..."
  | .spawner => "--spawner dbus-id object_path"

/-- The parts of a spec in a message. -/
inductive SpecPart
  /-- The struct around the spec. -/
  | whole
  /-- The path prefix that the spec claims. -/
  | path
  /-- The array of parameters. -/
  | items
deriving Repr, DecidableEq

/-- What should have stood where a part of a spec is missing. -/
def SpecPart.expectation : SpecPart → String
  | .whole => "expected a mount spec struct"
  | .path => "expected a mount path"
  | .items => "expected an array of mount spec items"

/-- Why a spec could not be read. -/
inductive SpecError
  /-- A piece of the text form is not one key and one value. -/
  | invalidPair (pair : String)
  /-- No piece of the text form gives the path prefix. -/
  | missingScope (input : String)
  /-- An escaped key or value does not stand for a text without NUL. -/
  | invalidEscape (token : String)
  /-- Arguments are not of the form that they have to be of. -/
  | usage (form : Usage)
  /-- Neither an argument nor a default gives the mount type. -/
  | missingType
  /-- A message lacks a part of the spec at its place. -/
  | malformed (missing : SpecPart)
deriving Repr, DecidableEq

namespace SpecError

/-- The wording of an error. -/
def message : SpecError → String
  | .invalidPair pair =>
    "Encountered invalid key/value pair '" ++ pair ++ "' while decoding mount spec"
  | .missingScope input =>
    "Didn't find __mount_prefix while decoding '" ++ input ++ "' mount spec"
  | .invalidEscape token =>
    "Invalid escape sequence in '" ++ token ++ "' while decoding mount spec"
  | .usage form => "Usage: " ++ form.synopsis
  | .missingType => "No mount type specified"
  | .malformed missing => "Malformed mount spec message: " ++ missing.expectation

/-- Whether the caller's own input is to blame, and not a message from a peer. -/
def isInvalidArgument : SpecError → Bool
  | .malformed _ => false
  | _ => true

end SpecError

/-!
## Arguments

On a command line a spec is given by arguments of the form `key=value`.  Key and value may not be
empty, and the value goes on after further equals signs.  The mount type has to be given, by an
argument or as a default, and the last value given for a key counts.
-/

namespace Spec

/-- The key and the value of an argument. -/
def splitArgument (argument : String) : Except SpecError (String × String) :=
  match Text.splitAtFirst? '=' argument with
  | some (key, value) =>
    if key = "" ∨ value = "" then .error (.usage .pairs) else .ok (key, value)
  | none => .error (.usage .pairs)

/-- The spec that arguments give, for a default mount type if there is one. -/
def ofArguments (arguments : List String) (defaultType : Option String) :
    Except SpecError Spec := do
  let pairs ← arguments.mapM splitArgument
  if defaultType.isSome || pairs.any (·.1 == typeKey) then
    return pairs.foldl (fun spec pair => spec.set pair.1 pair.2) (ofType defaultType)
  else
    .error .missingType

end Spec

/-!
## The compact form

In the compact form a spec is one line of pieces between commas.  A piece is a key and a value
around an equals sign, both escaped, so commas and equals signs stand between parts only.  The
parameters come first, in the order of their keys, and the path prefix comes last under a key of its
own.

Reading takes the pieces in any order and lets the last one with a key count.  A single bad piece
spoils the whole line.
-/

namespace Spec

/-- The key under which the compact form gives the path prefix. -/
def scopeKey : String := "__mount_prefix"

/-! ### Writing -/

/-- A key and a value around an equals sign, both escaped. -/
def piece (entry : String × String) : String :=
  Text.escape entry.1 ++ "=" ++ Text.escape entry.2

/-- The compact form of a spec. -/
def toText (spec : Spec) : String :=
  ",".intercalate ((spec.params.entries ++ [(scopeKey, spec.scope)]).map piece)

/-- The compact form of a spec that may be missing. -/
def textOf : Option Spec → String
  | some spec => spec.toText
  | none => "(null)"

/-! ### Reading -/

/-- The text that an escaped key or value stands for, which may hold no NUL. -/
def readToken (token : String) : Except SpecError String :=
  match Text.unescape? token with
  | some text => if Text.hasNul text then .error (.invalidEscape token) else .ok text
  | none => .error (.invalidEscape token)

/-- The key and the value of a piece. -/
def readPiece (piece : String) : Except SpecError (String × String) :=
  match Text.splitOn '=' piece with
  | [key, value] => do return (← readToken key, ← readToken value)
  | _ => .error (.invalidPair piece)

/-- The pieces of a line; the empty line has none. -/
def pieces (line : String) : List String :=
  if line = "" then [] else Text.splitOn ',' line

/-- The spec of entries read from a line, the path prefix among them. -/
def ofEntries? (entries : List (String × String)) : Option Spec :=
  (entries.findRev? (·.1 == scopeKey)).map fun claimed =>
    ofParams (Params.ofPairs (entries.filter (·.1 != scopeKey))) (some claimed.2)

/-- The spec that a line gives. -/
def ofText (line : String) : Except SpecError Spec := do
  let entries ← (pieces line).mapM readPiece
  match ofEntries? entries with
  | some spec => return spec
  | none => .error (.missingScope line)

end Spec

end Mounts

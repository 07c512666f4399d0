import Mounts.Startup
import Mounts.Location
import Mounts.Registry
import Mounts.Spec.Textual
import Mounts.Table
import Mounts.Text.Percent

/-!
# The inspection tool

The tool takes the command line of a daemon, shows the spec that it gives in its compact form and as
a message, reads both back, and routes a request to the spec through a mount table.  `Tool.run` is
all that the tool does, as a function from the command line to a report.

What is shown comes line by line, and a failure leaves the lines before it.  The error output also
takes the log lines that debugging asks for.  They are no part of a report, which says only what the
tool itself complains of.
-/

namespace Mounts.Tool

set_option autoImplicit false

/-- What the tool prints, and the status it ends with. -/
structure Report where
  /-- Zero if all went well. -/
  status : UInt32
  /-- What goes to the standard output. -/
  output : String
  /-- What is said of a failure on the error output. -/
  complaint : Option String
deriving Repr, DecidableEq

/-- What can go wrong once the command line is understood. -/
inductive Failure
  /-- The command line gives no spec. -/
  | noSpec
  /-- The compact form cannot be read back. -/
  | textUnreadable (why : SpecError)
  /-- The compact form reads back as another spec. -/
  | textDiffers
  /-- The message cannot be read back. -/
  | messageUnreadable (why : SpecError)
  /-- The message reads back as another spec. -/
  | messageDiffers
  /-- No mount serves the location. -/
  | unserved
deriving Repr, DecidableEq

/-- The wording of a failure and of what lies behind it. -/
def Failure.message : Failure → String
  | .noSpec => "no mount spec given"
  | .textUnreadable why => "decoding text form" ++ caused why
  | .textDiffers => "text form did not round-trip"
  | .messageUnreadable why => "decoding message" ++ caused why
  | .messageDiffers => "message form did not round-trip"
  | .unserved => "location not served by its own mount"
where
  /-- The lines that name a cause. -/
  caused (why : SpecError) : String := "\n\nCaused by:\n    " ++ why.message

/-- The mount type if none is given. -/
def defaultType : String := "ftp"

/-- The path that the tool asks for, relative to the mount. -/
def requestedPath : String := "docs/../readme.txt"

/-- How the tool is called. -/
def usage : String :=
  "Usage: spectool [--debug] [key=value ...]\n" ++
  "       spectool [--debug] --spawner <bus-id> <object-path>\n"

/-- The report of a command line that is not understood. -/
def rejected (why : SpecError) : Report :=
  ⟨1, "", some (why.message ++ "\n\n" ++ usage)⟩

/-- The report of a failure after some output. -/
def failed (output : String) (failure : Failure) : Report :=
  ⟨1, output, some ("Error: " ++ failure.message ++ "\n")⟩

/-- What is wrong with what is read back of a spec, if anything is: it cannot be read, or it is
another spec. -/
def readBackFailure? (spec : Spec) (unreadable : SpecError → Failure) (differs : Failure) :
    Except SpecError Spec → Option Failure
  | .error why => some (unreadable why)
  | .ok decoded => if decoded = spec then none else some differs

/-- What is wrong with the compact form of a spec. -/
def textFailure? (spec : Spec) : Option Failure :=
  readBackFailure? spec .textUnreadable .textDiffers (Spec.ofText spec.toText)

/-- What is wrong with the message form of a spec. -/
def messageFailure? (spec : Spec) : Option Failure :=
  readBackFailure? spec .messageUnreadable .messageDiffers
    ((Spec.read (Message.Cursor.ofBytes (spec.toWire none))).map (·.1))

/-- Mounts a spec in an empty table, asks for the requested path, and gives the canonical path, the
spec of the mount that serves it, and how many handles refer to that. -/
def route? (spec : Spec) : Option (String × Spec × Nat) := do
  let (ref, pool) := (Pool.empty : Pool Buckets).canonicalFor Pool.global spec
  let (mounted, table, pool) := Table.empty.mount pool ref
  let pool := pool.release ref
  let (location, pool) := Location.ofRef pool mounted requestedPath
  let served ← table.lookup pool spec location.path
  let content ← pool.spec? served
  return (location.path, content, pool.handles served)

/-- The report on a spec. -/
def inspect (spec : Spec) : Report :=
  let text := "text:      " ++ spec.toText ++ "\n"
  match textFailure? spec with
  | some failure => failed text failure
  | none =>
    let message := text ++ "message:   " ++ Text.Hex.ofBytes (spec.toWire none) ++ "\n"
    match messageFailure? spec with
    | some failure => failed message failure
    | none =>
      let digest := message ++ "hash:      0x" ++ Text.Hex.ofWord spec.digest ++ "\n"
      match route? spec with
      | none => failed digest .unserved
      | some (path, served, handles) =>
        ⟨0, digest ++ "location:  " ++ path ++ " on " ++ served.toText ++ "\n" ++
          "canonical: shared by " ++ toString handles ++ " references\n", none⟩

/-- The report on a command line, in an environment where the debug setting has a value or not. -/
def run (setting : Option String) (arguments : List String) : Report :=
  match Startup.parseIn setting arguments (some defaultType) with
  | .error why => rejected why
  | .ok startup =>
    match startup.task with
    | .report spawner =>
      ⟨0, "spawned by " ++ spawner.busId ++ " at " ++ spawner.objectPath ++ "\n", none⟩
    | .serve spec => inspect spec
    | .wait => failed "" .noSpec

end Mounts.Tool

import Mounts.Spec.Textual

/-!
# Starting a daemon

A mount daemon is started by a spawner, which hands over two names so that the daemon can report
back, or with the parameters of the mount to serve:

```text
[--debug] --spawner <bus-id> <object-path>
[--debug] key=value key=value ...
```

Debug output is asked for by the flag or by the environment.
-/

namespace Mounts

set_option autoImplicit false

/-- The names under which a daemon reaches the process that spawned it. -/
structure Spawner where
  /-- The name of the process on the bus. -/
  busId : String
  /-- The path of the object that waits for the report. -/
  objectPath : String
deriving Repr, DecidableEq

/-- How much a daemon logs. -/
inductive LogLevel
  /-- Everything that helps to find errors. -/
  | debug
  /-- What an operator wants to know. -/
  | info
deriving Repr, DecidableEq

/-- The name of a log level. -/
def LogLevel.name : LogLevel → String
  | .debug => "DEBUG"
  | .info => "INFO"

/-- What a daemon does right after it is started. -/
inductive Task
  /-- Reports to the process that spawned it. -/
  | report (spawner : Spawner)
  /-- Serves a mount. -/
  | serve (spec : Spec)
  /-- Waits. -/
  | wait
deriving Repr, DecidableEq

/-- A parsed command line. -/
structure Startup where
  /-- Whether debug output is wanted. -/
  debug : Bool
  /-- What to do first. -/
  task : Task
deriving Repr, DecidableEq

namespace Startup

/-- The spawner to report to. -/
def spawner? (startup : Startup) : Option Spawner :=
  match startup.task with
  | .report spawner => some spawner
  | _ => none

/-- The spec to serve. -/
def spec? (startup : Startup) : Option Spec :=
  match startup.task with
  | .serve spec => some spec
  | _ => none

/-- The log level that goes with the debug setting. -/
def logLevel (startup : Startup) : LogLevel :=
  if startup.debug then .debug else .info

/-- The argument that asks for debug output. -/
def debugFlag : String := "--debug"

/-- The argument in front of the names that a spawner hands over. -/
def spawnerFlag : String := "--spawner"

/-- The name of the environment setting that asks for debug output. -/
def debugSetting : String := "MOUNTSPEC_DEBUG"

/-- The task that the arguments after the debug flag give. -/
def readTask (arguments : List String) (defaultType : Option String) : Except SpecError Task :=
  match arguments with
  | [] =>
    if defaultType.isSome then (Spec.ofArguments [] defaultType).map .serve else .ok .wait
  | first :: others =>
    if first = spawnerFlag then
      match others with
      | busId :: objectPath :: _ => .ok (.report ⟨busId, objectPath⟩)
      | _ => .error (.usage .spawner)
    else (Spec.ofArguments arguments defaultType).map .serve

/-- Whether a command line starts with the debug flag, and the arguments after it. -/
def takeDebugFlag : List String → Bool × List String
  | first :: others => if first = debugFlag then (true, others) else (false, first :: others)
  | [] => (false, [])

/-- The command line of a daemon, which serves mounts of the default type if it serves only one. -/
def parse (arguments : List String) (defaultType : Option String) (debugWanted : Bool) :
    Except SpecError Startup :=
  let (flagged, others) := takeDebugFlag arguments
  (readTask others defaultType).map fun task => ⟨debugWanted || flagged, task⟩

/-- The command line of a daemon in an environment where the debug setting has the given value;
any value asks for debug output. -/
def parseIn (setting : Option String) (arguments : List String) (defaultType : Option String) :
    Except SpecError Startup :=
  parse arguments defaultType setting.isSome

end Startup

end Mounts

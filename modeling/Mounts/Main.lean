import Mounts.Tool

/-!
# The program

Hands the command line and the environment to the inspection tool and prints its report.
-/

set_option autoImplicit false

/-- Runs the inspection tool. -/
def main (arguments : List String) : IO UInt32 := do
  let report := Mounts.Tool.run (← IO.getEnv Mounts.Startup.debugSetting) arguments
  (← IO.getStdout).putStr report.output
  (← IO.getStderr).putStr (report.complaint.getD "")
  return report.status

import Geotrack.Command.Execute
import Std.Time.DateTime.Timestamp

/-!
# The program

Hands the arguments, the files and the clock of the system to `Command.respond`, prints what comes
of it and ends with its code.
-/

namespace Geotrack.Command

/-- The files and the clock of the system. -/
def systemOutside : Outside IO where
  textOf file := try some <$> IO.FS.readFile file catch _ => pure none
  clock := do return Instant.ofNanos (← Std.Time.Timestamp.now).toNanosecondsSinceUnixEpoch.val

end Geotrack.Command

open Geotrack in
def main (arguments : List String) : IO UInt32 := do
  let ending ← Command.respond "geotrack" Command.systemOutside arguments
  match ending with
  | .printed lines => lines.forM IO.println
  | .failed failure => IO.eprintln ("Error: " ++ failure.message)
  | .misused =>
    IO.eprintln "error: the arguments cannot be understood; for more information, try '--help'."
  return ending.code

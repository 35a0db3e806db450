import WorkloadMap.CommandLine.Run

/-!
The program. The state of the cluster is read from standard input, as one JSON object; without one
no server is reached.
-/
open WorkloadMap

/-- The rest of a stream. -/
partial def readAll (input : IO.FS.Stream) (read : String) : IO String := do
  let line ← input.getLine
  if line.isEmpty then return read
  readAll input (read ++ line)

def main (args : List String) : IO UInt32 := do
  let text ← readAll (← IO.getStdin) ""
  let link := ((Json.parse? text).bind Json.members?).map Server.ofMembers
  let ending := CommandLine.interpret args link
  match ending with
  | .printed output _ => IO.print output
  | .failed message => IO.eprintln ("Error: " ++ message)
  | .misused => IO.eprintln "error: the command line is not understood"
  return ending.exitCode

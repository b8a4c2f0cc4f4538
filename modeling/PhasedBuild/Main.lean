import PhasedBuild.CommandLine.Outcome

/-!
# The program

Reads the two files that an invocation may need, carries it out and prints what it comes to.
-/

open PhasedBuild PhasedBuild.CommandLine

/-- What a path leads to. -/
def readState (path : String) : IO FileState := do
  match ← (IO.FS.readFile path).toBaseIO with
  | .ok content => return .text content
  | .error (.noFileOrDirectory ..) => return .missing
  | .error _ => return .unreadable

/-- The number of processors. -/
def countCores : IO Nat := do
  match ← readState "/proc/cpuinfo" with
  | .text content =>
    let isProcessor (line : String) : Bool := line.startsWith "processor"
    return max 1 ((content.splitOn "\n").countP isProcessor)
  | _ => return 1

def main (words : List String) : IO UInt32 := do
  let cores ← countCores
  match Invocation.ofWords cores words with
  | .error fault =>
    IO.eprintln ("error: " ++ fault.message)
    return UInt32.ofNat Outcome.misuse.exitCode
  | .ok invocation =>
    let directory := (← IO.currentDir).toString
    let names := [Settings.threadsVariable, Settings.policyVariable, Settings.offlineVariable]
    let values ← names.mapM fun name => do return (name, ← IO.getEnv name)
    let outcome := invocation.outcome {
      directory, cores
      environment := fun name => (values.lookup name).join
      settingsFile := ← readState (invocation.settingsPath directory)
      manifestFile := ← readState (invocation.manifestPath directory) }
    IO.print outcome.output
    if let some fault := outcome.fault then IO.eprintln ("Error: " ++ fault)
    return UInt32.ofNat outcome.exitCode

import Std.Time.Format
import FrameRelay.Command.Run
import FrameRelay.Store.Image

/-! The program: reads the command line, runs it and writes what the run left in its folder. -/

namespace FrameRelay.Program
open Command

/-- Those variables of the environment that options fall back on. -/
def environment : IO (List (String × String)) :=
  (globalSpecs.filterMap OptionSpec.fallback).filterMapM fun name => do
    return (← IO.getEnv name).map fun value => (name, value)

def now : IO String := do
  return (Std.Time.DateTime.ofTimestamp (← Std.Time.Timestamp.now) .UTC).toISO8601String

def pathOf : List String → String
  | "/" :: names => "/" ++ String.intercalate "/" names
  | names => String.intercalate "/" names

def writeEntry : List String × Entry → IO Unit
  | (place, .directory) => IO.FS.createDirAll (pathOf place)
  | (place, .text content) => IO.FS.writeFile (pathOf place) content
  | (place, .image width height samples) =>
    IO.FS.writeBinFile (pathOf place) (Image.encode width height samples)

def runTimed (invocation : Invocation) : IO RunResult := do
  let started ← now
  let before ← IO.monoMsNow
  let result ← IO.lazyPure fun _ => invocation.run .empty
  let elapsed := Float.ofNat ((← IO.monoMsNow) - before)
  return result.writeReport ⟨started, ← now, elapsed⟩

/-- Writes and prints what a run came to; a failure is told with its causes. -/
def present (result : RunResult) : IO UInt32 := do
  result.folder.entries.toList.forM writeEntry
  IO.print result.printed
  match result.fault.map RunFault.chain with
  | none => return 0
  | some chain =>
    IO.eprintln ("Error: " ++ String.intercalate ": " chain)
    return 1

def start (words : List String) : IO UInt32 := do
  match parse (← environment) words with
  | .ok invocation => present (← runTimed invocation)
  | .error fault =>
    IO.eprintln fault.message
    return if fault = .help ∨ fault = .version then 0 else 2

end FrameRelay.Program

def main (words : List String) : IO UInt32 := FrameRelay.Program.start words

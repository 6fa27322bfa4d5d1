import KeyScore.Command.Programs

/-!
# Entry point

Carries jobs out on the machine. The first argument names the program to run.
-/

namespace KeyScore.Command

/-- The length in milliseconds, rounded up. -/
def milliseconds (d : Duration) : Nat := (d.nanoseconds + 999999) / 1000000

/-- Waits for so many milliseconds, at most an hour at a time. -/
def sleep (total : Nat) : IO Unit := do
  let hour := 3600000
  for _ in [0:total / hour] do
    IO.sleep (UInt32.ofNat hour)
  IO.sleep (UInt32.ofNat (total % hour))

/-- Reads the input to its end, after what has been read of it. -/
partial def readAll (input : IO.FS.Stream) (before : ByteArray) : IO ByteArray := do
  let more ← input.read 65536
  if more.isEmpty then return before
  readAll input (before ++ more)

/-- What an action gives, or nothing if it fails. -/
def attempt {α : Type} (action : IO α) : IO (Option α) := do
  match ← action.toBaseIO with
  | .ok a => return some a
  | .error _ => return none

/-- Carries a job out and gives its exit code. -/
def Job.carryOut : Job → IO UInt32
  | done code => return UInt32.ofNat code
  | readFile path next => do
    let content ← attempt (IO.FS.readBinFile path)
    (next (content.map ByteArray.toList)).carryOut
  | readInput next => do
    let content ← readAll (← IO.getStdin) .empty
    (next content.toList).carryOut
  | writeFile path content next => do
    let written ← attempt (IO.FS.writeBinFile path ⟨content.toArray⟩)
    (next written.isSome).carryOut
  | print text next => do
    IO.print text
    next.carryOut
  | tell text next => do
    IO.eprintln text
    next.carryOut
  | wait length next => do
    sleep (milliseconds length)
    next.carryOut

end KeyScore.Command

open KeyScore.Command in
def main (args : List String) : IO UInt32 :=
  match args with
  | [] => Job.carryOut (Stop.misuse.job "")
  | name :: args =>
    match program? name with
    | some program => (program args).carryOut
    | none => Job.carryOut (Stop.misuse.job name)

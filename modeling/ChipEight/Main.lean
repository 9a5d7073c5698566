/-
**The listing program.**

Reads the file that the arguments name, and prints the report on them.
-/

import ChipEight.CommandLine.Report

namespace ChipEight.CommandLine

/-- The failure behind an error of the file system. -/
def failureOf : IO.Error → FileFailure
  | .noFileOrDirectory .. => .notFound
  | .permissionDenied .. => ⟨13, "PermissionDenied", "Permission denied"⟩
  | .inappropriateType .. => ⟨21, "IsADirectory", "Is a directory"⟩
  | failure => ⟨5, "Uncategorized", toString failure⟩

/-- The bytes of a file, or why there are none. -/
def readProgram (path : String) : IO (Except FileFailure (List UInt8)) := do
  try
    let bytes ← IO.FS.readBinFile path
    return .ok bytes.toList
  catch failure => return .error (failureOf failure)

end ChipEight.CommandLine

open ChipEight.CommandLine in
/-- Prints the report on the arguments and ends with its exit code. -/
def main (arguments : List String) : IO UInt32 := do
  let contents ← match parse arguments with
    | .ok (.list file _) => readProgram file
    | _ => pure (.ok [])
  let result := report arguments fun _ => contents
  (← IO.getStdout).putStr result.output
  (← IO.getStderr).putStr result.errors
  return result.exitCode.toUInt32

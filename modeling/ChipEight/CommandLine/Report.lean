/-
**The reports of the listing program.**

A run of the program is a function of its arguments and of what is found at the path that they name:
it yields two texts and an exit code. The code is two for a complaint, one for a file that could not
be read, and zero for a listing or the help text.
-/

import ChipEight.CommandLine.Arguments
import ChipEight.Listing

namespace ChipEight.CommandLine

/-- What a run of the program prints, and its exit code. -/
structure Report where
  exitCode : UInt8
  output : String
  errors : String
deriving DecidableEq

/-- Why a file could not be read: the code, the kind and the text of the failure. -/
structure FileFailure where
  code : Nat
  kind : String
  message : String
deriving DecidableEq

/-- The failure that there is no such file. -/
def FileFailure.notFound : FileFailure :=
  ⟨2, "NotFound", "No such file or directory"⟩

/-- The account of a failure to read a file. -/
def FileFailure.account (failure : FileFailure) : Account :=
  .tuple "IoError" [.record "Os" ["code", "kind", "message"]
    [.number failure.code, .atom failure.kind, .atom ("\"" ++ failure.message ++ "\"")] false]

/-- The name of the program. -/
def programName : String := "chip8-disasm"

/-- The help text. -/
def helpText : String :=
  "Usage: " ++ programName ++ " [OPTIONS]\n" ++
  "\n" ++
  "Positional arguments:\n" ++
  "  file                     Load a ROM to disassemble\n" ++
  "\n" ++
  "Optional arguments:\n" ++
  "  -h, --help               Show help text\n" ++
  "  -l, --loadaddr LOADADDR  Load address (usually 200) (default: 200)\n" ++
  "  -o, --offset OFFSET      Start disassembling at offset...\n" ++
  "  -p, --plain              Disable colored output\n"

/-- The colouring that the options ask for. -/
def Options.colouring (options : Options) : Listing.Colouring :=
  if options.plain then .plain else .coloured

/-- The listing of a program under some options. -/
def listing (options : Options) (program : List UInt8) : String :=
  Listing.text (Listing.ofProgram options.colouring options.loadAddress options.offset program)

/-- The report on a file that could not be read. -/
def fail (failure : FileFailure) : Report :=
  ⟨1, "", "Error: " ++ failure.account.line ++ "\n"⟩

/-- The report on some arguments, given what is found at the path of a file. -/
def report (arguments : List String) (contents : String → Except FileFailure (List UInt8)) :
    Report :=
  match parse arguments with
  | .error complaint => ⟨2, "", programName ++ ": " ++ complaint.message ++ "\n"⟩
  | .ok .help => ⟨0, "", helpText⟩
  | .ok (.list file options) =>
    match contents file with
    | .error failure => fail failure
    | .ok program => ⟨0, listing options program, ""⟩

end ChipEight.CommandLine

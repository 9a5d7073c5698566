/-
**Reading the arguments of the listing program.**

Arguments are read from left to right, and the first one that is wrong is complained about. An
argument that begins with two dashes names an option, with its argument behind an equals sign or in
the next argument; one that begins with a single dash is a group of letters, of which the last may
take an argument from the rest of the group or from the next argument. Two dashes alone end the
options. Everything else is the file to list; there is exactly one, unless help is asked for.
-/

import ChipEight.CommandLine.Options

namespace ChipEight.CommandLine

/-- The state of reading arguments. -/
structure Reading where
  options : Options
  /-- An option that takes the next argument, and how it was written. -/
  pending : Option (Parameter × String)
  /-- Whether everything from here on is a file. -/
  ended : Bool
deriving DecidableEq

/-- Before any argument is read. -/
def Reading.start : Reading :=
  ⟨.standard, none, false⟩

/-- Turns on an option that takes no argument. -/
def enable (parameter : Parameter) (options : Options) : Options :=
  match parameter with
  | .help => { options with help := true }
  | .plain => { options with plain := true }
  | .loadAddress | .offset => options

/-- Sets an option to its argument. -/
def assign (parameter : Parameter) (written argument : String) (options : Options) :
    Except Complaint Options :=
  match parameter with
  | .loadAddress =>
    match readAddress argument with
    | .ok loadAddress => .ok { options with loadAddress }
    | .error reason => .error (.invalidArgument written reason)
  | .offset =>
    match readOffset argument with
    | .ok offset => .ok { options with offset }
    | .error reason => .error (.invalidArgument written reason)
  | .help | .plain => .error (.unexpectedArgument written)

/-- Takes an argument as the file. -/
def takeFile (argument : String) (reading : Reading) : Except Complaint Reading :=
  match reading.options.file with
  | some _ => .error (.unexpectedFile argument)
  | none => .ok { reading with options.file := some argument }

/-- Reads an option without an attached argument. -/
def readOption (parameter : Parameter) (written : String) (reading : Reading) : Reading :=
  if parameter.takesArgument then { reading with pending := some (parameter, written) }
  else { reading with options := enable parameter reading.options }

/-- Reads a long option, given without its dashes. -/
def readLong (text : List Char) (reading : Reading) : Except Complaint Reading :=
  let name := String.ofList (text.takeWhile (· ≠ '='))
  let written := "--" ++ name
  match Parameter.ofName? name, text.dropWhile (· ≠ '=') with
  | none, _ => .error (.unrecognized written)
  | some parameter, [] => .ok (readOption parameter written reading)
  | some parameter, _ :: argument => do
    let options ← assign parameter written (String.ofList argument) reading.options
    return { reading with options }

/-- Reads a group of letters, given without its dash. -/
def readGroup : List Char → Reading → Except Complaint Reading
  | [], reading => .ok reading
  | letter :: rest, reading =>
    let written := String.ofList ['-', letter]
    match Parameter.ofLetter? letter with
    | none => .error (.unrecognized written)
    | some parameter =>
      if parameter.takesArgument && !rest.isEmpty then do
        let options ← assign parameter written (String.ofList rest) reading.options
        return { reading with options }
      else readGroup rest (readOption parameter written reading)

/-- Reads the next argument. -/
def readArgument (reading : Reading) (argument : String) : Except Complaint Reading :=
  match reading.pending with
  | some (parameter, written) => do
    let options ← assign parameter written argument reading.options
    return { reading with options, pending := none }
  | none =>
    if reading.ended then takeFile argument reading
    else
      match argument.toList with
      | ['-', '-'] => .ok { reading with ended := true }
      | '-' :: '-' :: text => readLong text reading
      | '-' :: letter :: rest => readGroup (letter :: rest) reading
      | _ => takeFile argument reading

/-- What is asked of the program. -/
inductive Request where
  /-- The help text. -/
  | help
  /-- The listing of a file. -/
  | list (file : String) (options : Options)
deriving DecidableEq

/-- Checks that nothing is missing after the last argument. -/
def finish (reading : Reading) : Except Complaint Request :=
  match reading.pending with
  | some (_, written) => .error (.missingArgument written)
  | none =>
    if reading.options.help then .ok .help
    else
      match reading.options.file with
      | none => .error .missingFile
      | some file => .ok (.list file reading.options)

/-- Reads all arguments. -/
def parse (arguments : List String) : Except Complaint Request := do
  finish (← arguments.foldlM readArgument Reading.start)

end ChipEight.CommandLine

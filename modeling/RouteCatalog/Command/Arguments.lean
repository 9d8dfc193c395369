import RouteCatalog.Format

/-!
# Command-line arguments

The command takes the path of a project, a format, an output file and flags. Options may stand
before or after the path, short ones in a group; an option's value may be attached, with an equals
sign or, for a short option, without. After a double dash nothing is an option.

A value is checked when the next argument begins, or at the end, so that of two faults the earlier
one is reported; an option that does not exist and a path too many are reported at once.
-/

namespace RouteCatalog.Command

/-- Why arguments are not carried out. -/
inductive UsageError where
  /-- An option was given twice. -/
  | repeatedOption
  /-- The help text was asked for. -/
  | helpRequested
  /-- The version was asked for. -/
  | versionRequested
  /-- A value is missing, empty, or not among the possible ones. -/
  | invalidValue
  /-- The path of the project is missing. -/
  | missingProject
  /-- A flag was given a value. -/
  | unwantedValue
  /-- An option does not exist, or a path is one too many. -/
  | unknownArgument
  deriving DecidableEq, Repr, Inhabited

/-- What the command is asked to do. -/
structure Arguments where
  project : Path
  format : Format := .yaml
  /-- The file to write to; standard output without one. -/
  output : Option Path := none
  /-- Whether to write the statistics table and not the catalog. -/
  stats : Bool := false
  /-- Whether to log details. -/
  verbose : Bool := false
  deriving DecidableEq, Repr, Inhabited

/-- The options that take a value. -/
inductive ValueOption where
  | format
  | output
  deriving DecidableEq, Repr, Inhabited

/-- The options that take none. -/
inductive Flag where
  | stats
  | verbose
  | help
  | version
  deriving DecidableEq, Repr, Inhabited

/-- An option. -/
inductive Switch where
  | value (option : ValueOption)
  | flag (flag : Flag)
  deriving DecidableEq, Repr, Inhabited

/-- The option of a short name. -/
def Switch.ofShort? : Char → Option Switch
  | 'f' => some (.value .format)
  | 'o' => some (.value .output)
  | 's' => some (.flag .stats)
  | 'v' => some (.flag .verbose)
  | 'h' => some (.flag .help)
  | 'V' => some (.flag .version)
  | _ => none

/-- The option of a long name. -/
def Switch.ofLong? : String → Option Switch
  | "format" => some (.value .format)
  | "output" => some (.value .output)
  | "stats" => some (.flag .stats)
  | "verbose" => some (.flag .verbose)
  | "help" => some (.flag .help)
  | "version" => some (.flag .version)
  | _ => none

/-- A value that has not been checked yet. -/
inductive Pending where
  /-- An option whose value may still be missing. -/
  | option (option : ValueOption) (value : Option String)
  | project (value : String)
  deriving DecidableEq, Repr, Inhabited

/-- What has been read so far. -/
structure Reading where
  project : Option Path := none
  format : Option Format := none
  output : Option Path := none
  /-- Whether the statistics table was asked for. -/
  stats : Bool := false
  /-- Whether details were asked for. -/
  verbose : Bool := false
  /-- The value that has not been checked yet. -/
  pending : Option Pending := none
  /-- Whether a path of the project was given, checked or not. -/
  positional : Bool := false
  /-- Whether a double dash was read. -/
  trailing : Bool := false
  deriving DecidableEq, Repr, Inhabited

namespace Reading

/-- The path that a value names; the empty value names none. -/
def path (value : String) : Except UsageError Path :=
  if value.isEmpty then .error .invalidValue else .ok (.ofString value)

/-- The format that a value names. -/
def formatOf (value : String) : Except UsageError Format :=
  match value with
  | "yaml" => .ok .yaml
  | "json" => .ok .json
  | _ => .error .invalidValue

/-- Takes the value of an option, which is given once. -/
def setOption (reading : Reading) (option : ValueOption) (value : String) :
    Except UsageError Reading :=
  match option with
  | .format =>
    if reading.format.isSome then .error .repeatedOption
    else do return { reading with format := some (← formatOf value) }
  | .output =>
    if reading.output.isSome then .error .repeatedOption
    else do return { reading with output := some (← path value) }

/-- Checks the value that has not been checked yet. -/
def settle (reading : Reading) : Except UsageError Reading :=
  let settled := { reading with pending := none }
  match reading.pending with
  | none => .ok reading
  | some (.option _ none) => .error .invalidValue
  | some (.option option (some value)) => settled.setOption option value
  | some (.project value) => do return { settled with project := some (← path value) }

/-- Takes an option with a value, or one whose value is to come. -/
def takeOption (reading : Reading) (option : ValueOption) (value : Option String) :
    Except UsageError Reading := do
  let reading ← reading.settle
  match value with
  | some value => reading.setOption option value
  | none => return { reading with pending := some (.option option none) }

/-- Takes a flag. -/
def takeFlag (reading : Reading) (flag : Flag) : Except UsageError Reading := do
  let reading ← reading.settle
  match flag with
  | .stats => if reading.stats then .error .repeatedOption else .ok { reading with stats := true }
  | .verbose =>
    if reading.verbose then .error .repeatedOption else .ok { reading with verbose := true }
  | .help => .error .helpRequested
  | .version => .error .versionRequested

/-- The value attached to a short option, with an equals sign or without; no characters, no
value. -/
def attached? : List Char → Option String
  | [] => none
  | '=' :: cs => some (String.ofList cs)
  | cs => some (String.ofList cs)

/-- Takes a group of short options. -/
def takeShort (reading : Reading) : List Char → Except UsageError Reading
  | [] => .ok reading
  | c :: cs =>
    match Switch.ofShort? c with
    | some (.flag flag) => do
      let reading ← reading.takeFlag flag
      takeShort reading cs
    | some (.value option) => reading.takeOption option (attached? cs)
    | none => .error .unknownArgument

/-- A long option: its name and the value after its equals sign. -/
def splitLong (cs : List Char) : String × Option String :=
  let name := String.ofList (cs.takeWhile (· != '='))
  match cs.dropWhile (· != '=') with
  | [] => (name, none)
  | _ :: value => (name, some (String.ofList value))

/-- Takes a long option. -/
def takeLong (reading : Reading) (cs : List Char) : Except UsageError Reading :=
  let (name, value) := splitLong cs
  match Switch.ofLong? name, value with
  | some (.value option), value => reading.takeOption option value
  | some (.flag flag), none => reading.takeFlag flag
  | some (.flag _), some _ => .error .unwantedValue
  | none, _ => .error .unknownArgument

/-- Takes an argument that is no option: the path of the project, which is given once. -/
def takePositional (reading : Reading) (value : String) : Except UsageError Reading :=
  if reading.positional then .error .unknownArgument
  else do
    let reading ← reading.settle
    return { reading with positional := true, pending := some (.project value) }

/-- Takes an argument that does not look like an option: the value that an option waits for, or the
path of the project. -/
def takeValue (reading : Reading) (value : String) : Except UsageError Reading :=
  match reading.pending with
  | some (.option option none) =>
    .ok { reading with pending := some (.option option (some value)) }
  | _ => reading.takePositional value

/-- Takes one argument. -/
def take (reading : Reading) (argument : String) : Except UsageError Reading :=
  if reading.trailing then reading.takePositional argument
  else
    match argument.toList with
    | ['-', '-'] => .ok { reading with trailing := true }
    | '-' :: '-' :: cs => reading.takeLong cs
    | ['-'] => reading.takeValue argument
    | '-' :: cs => reading.takeShort cs
    | _ => reading.takeValue argument

/-- What the arguments ask for, once all have been taken. -/
def finish (reading : Reading) : Except UsageError Arguments := do
  let reading ← reading.settle
  match reading.project with
  | none => .error .missingProject
  | some project =>
    return { project, format := reading.format.getD .yaml, output := reading.output,
             stats := reading.stats, verbose := reading.verbose }

end Reading

/-- Reads the arguments of the command. -/
def Arguments.read (arguments : List String) : Except UsageError Arguments := do
  let reading ← arguments.foldlM Reading.take {}
  reading.finish

end RouteCatalog.Command

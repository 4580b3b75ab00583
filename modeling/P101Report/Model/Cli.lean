import P101Report.Library.Getopt
import P101Report.Model.Bundle

/-!
# The command line

`src/cli.c` and `src/main.c`. The words of a command line are read by `getopt`, checked, completed
with the paths of a report directory, and run. Whether `getopt` ends at the first operand or passes
over the operands differs between C libraries, so it is an input. What a command prints to the
standard error is kept as the error that is printed.
-/

set_option autoImplicit false

namespace P101Report

open Getopt

variable {lib : ToolEventLib}

/-- The C string that begins at these bytes. -/
def cString (bytes : List UInt8) : Text where
  bytes := bytes.takeWhile fun b => b ≠ 0
  noNul := by
    intro h
    simpa using List.mem_takeWhile_imp h

/-- `struct arguments`. -/
structure CommandArguments extends RunArguments where
  reportDir : Option Text
  verbose : Bool

/-- `p101_report_arguments_init`. -/
def argumentsInit : CommandArguments where
  resourceLog := none
  callLog := none
  format := .text
  bundleOutputDir := none
  reportDir := none
  verbose := false

/-! ## Errors -/

/-- An error raised over the command line: `ERR_USAGE` with its message, or `ENAMETOOLONG`. -/
inductive CliError
  | usage (message : List UInt8)
  | nameTooLong
  deriving DecidableEq

/-- Why the command line is not run: its help was asked for, or it has an error. -/
inductive Stop
  | help
  | error (raised : CliError)
  deriving DecidableEq

def usageError (message : String) : CliError := .usage (ascii message)

/-- `isprint`, for the characters of ASCII. -/
def isPrint (c : UInt8) : Bool := 0x20 ≤ c && c ≤ 0x7e

/-- `"0x%02X"` of a character. -/
def hexUpper (c : UInt8) : List UInt8 :=
  let digit (n : Nat) : UInt8 := UInt8.ofNat (if n < 10 then 48 + n else 55 + n)
  ascii "0x" ++ [digit (c.toNat / 16), digit (c.toNat % 16)]

/-- The message of `':'`. -/
def missingArgument (c : UInt8) : CliError :=
  .usage (List.flatten [
    ascii "Option '-", [if c ≠ 0 then c else 0x3f], ascii "' requires an argument."])

/-- The message of `'?'`. -/
def unknownOption (c : UInt8) : CliError :=
  .usage (if isPrint c then List.flatten [ascii "Unknown option '-", [c], ascii "'."]
    else List.flatten [ascii "Unknown option character ", hexUpper c, ascii "."])

/-- The message of an option without a case. -/
def unhandledOption (c : UInt8) : CliError :=
  .usage (List.flatten [
    ascii "Internal error: unhandled option '-", [if isPrint c then c else 0x3f], ascii "'."])

/-! ## Parsing -/

/-- An ASCII character literal of the source. -/
def letter (c : Char) : UInt8 := UInt8.ofNat c.toNat

/-- The options of `":hvjmb:d:r:c:"`. -/
def reportOptions : Options UInt8 where
  dash := 0x2d
  kind := fun c => declared (letter ':') c (ascii ":hvjmb:d:r:c:")
  kind_dash := by decide

/-- The `switch` of `p101_report_parse_arguments`. -/
def handleOption (args : CommandArguments) : Item UInt8 → Except Stop CommandArguments
  | .option c value =>
    let optarg := value.map cString
    if c = letter 'h' then .error .help
    else if c = letter 'v' then .ok { args with verbose := true }
    else if c = letter 'j' then .ok { args with format := .json }
    else if c = letter 'm' then .ok { args with format := .mermaid }
    else if c = letter 'b' then .ok { args with bundleOutputDir := optarg }
    else if c = letter 'd' then .ok { args with reportDir := optarg }
    else if c = letter 'r' then .ok { args with resourceLog := optarg }
    else if c = letter 'c' then .ok { args with callLog := optarg }
    else .error (.error (unhandledOption c))
  | .missing c => .error (.error (missingArgument c))
  | .unknown c => .error (.error (unknownOption c))

/-- The operands, behind the options. -/
def parseOperands (args : CommandArguments) (operands : List (List UInt8)) :
    Except Stop CommandArguments :=
  match operands with
  | [] => .ok args
  | dir :: rest =>
    if args.reportDir ≠ none then
      .error (.error (usageError "Report directory was supplied twice."))
    else if rest ≠ [] then .error (.error (usageError "Too many positional arguments."))
    else .ok { args with reportDir := some (cString dir) }

/-- `p101_report_parse_arguments`, on the words behind the name of the program. -/
def parseArguments (order : Order) (words : List Text) (args : CommandArguments) :
    Except Stop CommandArguments :=
  if words = [lit "--help"] then .error .help
  else
    match reportOptions.run order handleOption (words.map Text.bytes) args with
    | .error stop => .error stop
    | .ok (args, operands) => parseOperands args operands

/-! ## Checking -/

/-- The path of a log that was not given, in the report directory. -/
def logPath (reportDir given : Option Text) (leaf : List UInt8) : List CliError × Option Text :=
  match given, reportDir with
  | some path, _ => ([], some path)
  -- `p101_report_check_arguments` has made sure of the directory
  | none, none => ([], none)
  | none, some dir =>
    (if (joinPath dir.bytes leaf).isNone then [.nameTooLong] else [],
      some (cString (joinedBuffer dir.bytes leaf)))

/-- `p101_report_check_arguments`, with the errors it raises one after the other. -/
def checkArguments (args : CommandArguments) : List CliError × CommandArguments :=
  if args.reportDir = none ∧ (args.resourceLog = none ∨ args.callLog = none) then
    ([usageError "Provide a report directory, or both -r resources.log and -c calls.log."], args)
  else if args.reportDir = some (lit "") then
    ([usageError "The report directory must not be empty."], args)
  else if args.bundleOutputDir = some (lit "") then
    ([usageError "The bundle output directory must not be empty."], args)
  else if args.bundleOutputDir ≠ none ∧ args.format ≠ .text then
    ([usageError "The bundle output mode cannot be combined with -j or -m."], args)
  else
    let resource := logPath args.reportDir args.resourceLog (ascii "resources.log")
    let call := logPath args.reportDir args.callLog (ascii "calls.log")
    let args := { args with resourceLog := resource.2, callLog := call.2 }
    let raised := resource.1 ++ call.1
    if args.resourceLog = some (lit "") then
      (raised ++ [usageError "The resource log path must not be empty."], args)
    else if args.callLog = some (lit "") then
      (raised ++ [usageError "The call log path must not be empty."], args)
    else (raised, args)

/-! ## The command -/

/-- What `p101_report_usage` prints, behind a message. -/
def usageText (program : List UInt8) : List UInt8 :=
  List.flatten [
    ascii "Usage: ", program,
    ascii " [-h] [-v] [-j|-m] [-b <output-dir>] [-d <report-dir>]",
    ascii " [-r <resources.log> -c <calls.log>] [report-dir]\n",
    ascii "\n",
    ascii "Correlate p101 resource and call logs into one report.\n",
    ascii "\n",
    ascii "Options:\n",
    ascii "  -h                  show this help\n",
    ascii "  -v                  trace p101-report itself\n",
    ascii "  -j                  write JSON instead of the text report\n",
    ascii "  -m                  write Mermaid resource lifetime graph instead of the text",
    ascii " report\n",
    ascii "  -b <output-dir>     write text, JSON, and Mermaid artifacts in one analysis pass\n",
    ascii "  -d <report-dir>     read resources.log and calls.log from a p101-observe report",
    ascii " directory\n",
    ascii "  -r <resources.log>  resource log to replay\n",
    ascii "  -c <calls.log>      call log to correlate\n"]

/-- What a command finds in its environment: like `RunInput`, with the log at each path. -/
structure CommandInput (lib : ToolEventLib) where
  health : lib.HealthInner
  allocations : List Bool
  resourceLog : Option Text → LogFile
  callLog : Option Text → LogFile
  outputFails : Bool

/-- What a run with these arguments finds. -/
def CommandInput.run (input : CommandInput lib) (args : RunArguments) : RunInput lib where
  health := input.health
  allocations := input.allocations
  resourceLog := input.resourceLog args.resourceLog
  callLog := input.callLog args.callLog
  outputFails := input.outputFails

/-- How a command ends: with its usage on the standard output, with errors over its arguments, or
with a run. -/
inductive CommandResult (lib : ToolEventLib)
  | help (text : List UInt8)
  | failed (raised : List CliError)
  | ran (result : RunResult lib)

/-- The exit status; an error that a run leaves behind is trouble. -/
def CommandResult.status : CommandResult lib → Nat
  | .help _ => exitClean
  | .failed _ => exitTrouble
  | .ran result => if result.state.err.error then exitTrouble else result.status

/-- `main`. -/
def main (order : Order) (run : RunModelLib lib) (input : CommandInput lib) (program : Text)
    (words : List Text) : CommandResult lib :=
  match parseArguments order words argumentsInit with
  | .error .help => .help (usageText program.bytes)
  | .error (.error raised) => .failed [raised]
  | .ok args =>
    let (raised, args) := checkArguments args
    if raised ≠ [] then .failed raised
    else .ran (reportRun run args.toRunArguments (input.run args.toRunArguments))

end P101Report

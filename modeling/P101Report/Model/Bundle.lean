import P101Report.Library.Descriptors
import P101Report.Model.Runner

/-!
# Writing a bundle

`src/bundle.c`. A report is printed to the standard output, so each file of a bundle is opened, put
in the place of the standard output and taken away again; the run model is written to a stream of
its own. The process is explicit: what its descriptors denote, the contents of the files it writes,
what the streams it inherited have received, and the bytes that wait in the buffer of the standard
output. Which call fails, and how, is an input.
-/

set_option autoImplicit false

namespace P101Report

open Descriptors

variable {lib : ToolEventLib}

/-! ## The process -/

/-- What a descriptor denotes: a stream the process was started with, or a file it has opened. -/
inductive Sink
  | inherited (stream : Nat)
  | file (path : List UInt8)
  deriving DecidableEq

structure Process where
  descriptors : Slots Sink
  /-- The contents of each path, when there is a file. -/
  files : List UInt8 → Option (List UInt8)
  /-- What each inherited stream has received. -/
  received : Nat → List UInt8
  /-- The bytes printed to `stdout` and not yet written. -/
  buffer : List UInt8
  error : Bool

/-- `STDOUT_FILENO`. -/
def stdoutFileno : Nat := 1

namespace Process

/-- An error raised by a call that changes nothing else. -/
def raiseIf (raised : Bool) (p : Process) : Process := { p with error := p.error || raised }

/-- Bytes written to what a descriptor denotes. -/
def deliver (sink : Option Sink) (bytes : List UInt8) (p : Process) : Process :=
  match sink with
  | none => p.raiseIf (bytes ≠ [])
  | some (.inherited stream) =>
    { p with received := Function.update p.received stream (p.received stream ++ bytes) }
  | some (.file path) =>
    { p with files := Function.update p.files path (some ((p.files path).getD [] ++ bytes)) }

/-- The first bytes of the buffer of `stdout` are written. -/
def drain (count : Nat) (p : Process) : Process :=
  { p.deliver (denotes p.descriptors stdoutFileno) (p.buffer.take count) with
    buffer := p.buffer.drop count }

/-- How a flush fails: so many bytes have been written, and the others are kept or dropped. -/
structure FlushFault where
  written : Nat
  dropsRest : Bool

/-- A report printed to `stdout`: the text, or what a failing call has left of it. The stream may
write bytes early, as its buffer fills up. -/
def print (text : List UInt8) (fault : Option (List UInt8)) (early : Nat) (p : Process) : Process :=
  (({ p with buffer := p.buffer ++ fault.getD text } : Process).drain early).raiseIf fault.isSome

/-- `p101_dup`. -/
def dup (fd : Nat) (fails : Bool) (p : Process) : Option Nat × Process :=
  if fails ∨ denotes p.descriptors fd = none then (none, p.raiseIf true)
  else
    (some (lowestFree p.descriptors),
      { p with
        descriptors :=
          put p.descriptors (lowestFree p.descriptors) (denotes p.descriptors fd) })

/-- `p101_close`; a close that fails has released the descriptor all the same. -/
def close (fd : Nat) (fails : Bool) (p : Process) : Process :=
  ({ p with descriptors := put p.descriptors fd none } : Process).raiseIf
    (fails || (denotes p.descriptors fd).isNone)

end Process

open Process

/-! ## One file -/

/-- Which calls of `write_one` fail. -/
structure WriteFaults where
  flush : Option FlushFault := none
  openFails : Bool := false
  dupFails : Bool := false
  redirectFails : Bool := false
  closeFails : Bool := false
  print : Option (List UInt8) := none
  /-- How many bytes the stream writes before it is flushed. -/
  early : Nat := 0
  lastFlush : Option FlushFault := none
  restoreFails : Bool := false
  closeSavedFails : Bool := false
  closeOutputFails : Bool := false

/-- Whether one of the calls that `write_one` makes without an error so far fails. -/
def WriteFaults.any (faults : WriteFaults) : Bool :=
  faults.flush.isSome || faults.openFails || faults.dupFails || faults.redirectFails ||
    faults.closeFails || faults.print.isSome || faults.lastFlush.isSome || faults.restoreFails ||
    faults.closeSavedFails

/-- Which calls of `write_run_model` fail. -/
structure ModelFaults where
  openFails : Bool := false
  /-- What has reached the file when a call on its stream fails. -/
  stream : Option (List UInt8) := none

/-- Whether a call of `write_run_model` fails. -/
def ModelFaults.any (faults : ModelFaults) : Bool := faults.openFails || faults.stream.isSome

/-- The buffer of `p101_report_join_path`, in which a long path is truncated. -/
def joinedBuffer (dir leaf : List UInt8) : List UInt8 :=
  (if dir.getLast? = some 0x2f then dir ++ leaf else dir ++ ascii "/" ++ leaf).take
    (pathMaxBytes - 1)

/-- Which calls of `p101_report_write_bundle` fail. -/
structure BundleFaults where
  text : WriteFaults := {}
  json : WriteFaults := {}
  mermaid : WriteFaults := {}
  runModel : ModelFaults := {}

/-- Whether one of these calls fails. -/
def BundleFaults.any (faults : BundleFaults) : Bool :=
  faults.text.any || faults.json.any || faults.mermaid.any || faults.runModel.any

end P101Report

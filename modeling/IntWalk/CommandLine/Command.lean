import IntWalk.CommandLine.Arguments
import IntWalk.IntKind
import IntWalk.Parts.Part

/-!
# Commands

The command line names one of three commands and gives it its arguments.  The
flag for a verbose log may stand before the command or among its arguments.
-/

namespace IntWalk

/-- What the command line asks for. -/
inductive Command where
  /-- Walk a sequence and remove the values listed, and all even ones if wished. -/
  | walk (values remove : List Int) (removeEven : Bool)
  /-- Walk a bit set and remove the values listed. -/
  | bits (capacity : Nat) (values : List Int) (remove : List Nat)
  /-- Record parts and report what is missing. -/
  | parts (total : Part) (values : List Int)
deriving DecidableEq, Repr

/-- A command and whether its log is to be verbose. -/
structure Invocation where
  verbose : Bool
  command : Command
deriving DecidableEq, Repr

namespace CommandLine

/-- A signed number of 64 bits. -/
def signed64? (s : String) : Option Int :=
  (Text.signed? s).filter fun v => (IntKind.Value.ofInt? ⟨true, .double⟩ v).isSome

/-- An unsigned number of 64 bits. -/
def unsigned64? (s : String) : Option Nat :=
  (Text.unsigned? s).filter fun n => n < UInt64.size

/-- A part number, which may be written with a sign. -/
def part? (s : String) : Option Part := do
  let v ← signed64? s
  if 0 ≤ v ∧ v ≤ Part.last.toNat then some (UInt32.ofNat v.toNat) else none

/-- The capacity of a bit set if none is given. -/
def defaultCapacity : Nat := 1024

/-- What the command to walk a sequence knows. -/
def walkOptions : Options := ⟨["verbose", "remove-even"], [], ["remove"]⟩

/-- What the command to walk a bit set knows. -/
def bitsOptions : Options := ⟨["verbose"], ["capacity"], ["remove"]⟩

/-- What the command to record parts knows. -/
def partsOptions : Options := ⟨["verbose"], ["total"], []⟩

/-- The flag for a verbose log. -/
def isVerbose (args : List Argument) : Bool := Argument.occurrences "verbose" args != 0

/-- Reads the arguments of the command to walk a sequence. -/
def readWalk (args : List String) : Option Invocation := do
  let args ← walkOptions.readOnce args
  let values ← (Argument.bare args).mapM signed64?
  let remove ← (Argument.valuesOf "remove" args).mapM signed64?
  let removeEven := Argument.occurrences "remove-even" args != 0
  return ⟨isVerbose args, .walk values remove removeEven⟩

/-- Reads the arguments of the command to walk a bit set. -/
def readBits (args : List String) : Option Invocation := do
  let args ← bitsOptions.readOnce args
  let values ← (Argument.bare args).mapM signed64?
  let remove ← (Argument.valuesOf "remove" args).mapM unsigned64?
  let capacity ← (Argument.valuesOf "capacity" args).mapM unsigned64?
  return ⟨isVerbose args, .bits (capacity.headD defaultCapacity) values remove⟩

/-- Reads the arguments of the command to record parts, which needs a total. -/
def readParts (args : List String) : Option Invocation := do
  let args ← partsOptions.readOnce args
  let values ← (Argument.bare args).mapM signed64?
  let total ← (Argument.valuesOf "total" args).head?
  return ⟨isVerbose args, .parts (← part? total) values⟩

/-- Reads a command and its arguments. -/
def readCommand : List String → Option Invocation
  | "walk" :: args => readWalk args
  | "bits" :: args => readBits args
  | "parts" :: args => readParts args
  | _ => none

/-- Whether the argument is the flag for a verbose log. -/
def isVerboseFlag (arg : String) : Bool := arg == "-v" || arg == "--verbose"

/-- Reads the whole command line. -/
def read : List String → Option Invocation
  | [] => none
  | arg :: args =>
    if isVerboseFlag arg then (readCommand args).map fun i => { i with verbose := true }
    else readCommand (arg :: args)

end CommandLine

end IntWalk

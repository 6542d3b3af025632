import IntWalk.Bits.Walk
import IntWalk.CommandLine.Command
import IntWalk.CommandLine.LogSetting
import IntWalk.Cursor.Filter
import IntWalk.Parts.Gaps
import IntWalk.Sequence.Walk

/-!
# Running commands

A command either prints its answer or complains, and in both cases reports what
it did.  `CommandLine.execute` goes from the arguments to what the user sees.
-/

namespace IntWalk

/-- What stops a command. -/
inductive Complaint where
  /-- There is no bit set of that capacity. -/
  | capacity (why : StoreError)
  /-- A value has no place in the bit set. -/
  | insertion (value : Int) (why : StoreError)
  /-- There is no part of that number. -/
  | recording (part : Int) (why : StoreError)
  /-- The walk over the sequence failed. -/
  | sequenceWalk (why : WalkError)
  /-- The walk over the bit set failed. -/
  | bitSetWalk (why : WalkError)
deriving DecidableEq, Repr

namespace Complaint

/-- What the command was about to do. -/
def context : Complaint → String
  | capacity _ => "invalid bit set capacity"
  | insertion value _ => s!"failed to insert {value}"
  | recording part _ => s!"failed to record part {part}"
  | sequenceWalk _ => "list walk violated the cursor contract"
  | bitSetWalk _ => "bit set walk violated the cursor contract"

/-- Why it could not. -/
def cause : Complaint → String
  | capacity why | insertion _ why | recording _ why => why.message
  | sequenceWalk why | bitSetWalk why => why.message

/-- The complaint as the user sees it. -/
def message (c : Complaint) : String :=
  s!"Error: {c.context}\n\nCaused by:\n    {c.cause}\n"

end Complaint

/-- What a command amounts to. -/
structure Outcome where
  /-- What it prints, or why it does not. -/
  result : Except Complaint String
  /-- What it reports, in order. -/
  log : List Record
deriving Repr

namespace Command

/-- Numbers with blanks between them. -/
def spaced {α : Type} [ToString α] (xs : List α) : String :=
  " ".intercalate (xs.map toString)

/-- The report at the end of a walk. -/
def finished (message : String) (removed remaining : Nat) : Record :=
  ⟨.info, "intcursor", message, [("removed", removed), ("remaining", remaining)]⟩

/-- What is printed at the end of a walk. -/
def kept {α : Type} [ToString α] (values : List α) (removed : Nat) : String :=
  s!"kept\t{spaced values}\nremoved\t{removed}\n"

/-- Walks a sequence of the values. -/
def runWalk (values remove : List Int) (removeEven : Bool) : Outcome :=
  let choose := Chooser.ofElement fun v => remove.contains v || (removeEven && v % 2 == 0)
  let swept := Cursor.removeIf choose (Sequence.walk ⟨values⟩)
  let log := swept.events.map Event.record
  match swept.answer.removed with
  | .error why => ⟨.error (.sequenceWalk why), log⟩
  | .ok removed =>
    let left := swept.after.sequence
    ⟨.ok (kept left.values removed), log ++ [finished "list walk finished" removed left.size]⟩

/-- Puts the values into a bit set, up to the first that has no place in it. -/
def fill : List Int → BitSet → Except Complaint BitSet
  | [], s => .ok s
  | v :: vs, s =>
    let x := s.insertSigned v
    match x.answer with
    | .ok _ => fill vs x.after
    | .error why => .error (.insertion v why)

/-- Walks a bit set of the values. -/
def runBits (capacity : Nat) (values : List Int) (remove : List Nat) : Outcome :=
  match Capacity.ofCount capacity with
  | .error why => ⟨.error (.capacity why), []⟩
  | .ok room =>
    match fill values (BitSet.ofCapacity room) with
    | .error complaint => ⟨.error complaint, []⟩
    | .ok filled =>
      let swept := Cursor.removeIf (Chooser.ofElement remove.contains) filled.walk
      let log := swept.events.map Event.record
      match swept.answer.removed with
      | .error why => ⟨.error (.bitSetWalk why), log⟩
      | .ok removed =>
        let left := swept.after.bits
        ⟨.ok (kept left.toList removed),
          log ++ [finished "bit set walk finished" removed left.size]⟩

/-- Records the parts, up to the first that has no number. -/
def record : List Int → PartSet → Step Event PartSet (Except Complaint Unit)
  | [], s => .still (.ok ()) s
  | v :: vs, s =>
    (s.insertSigned v).andThen fun
      | .ok _, t => record vs t
      | .error why, t => .still (.error (.recording v why)) t

/-- The report on the parts that have arrived and those below the total that have not. -/
def inventory (total : Part) (s : PartSet) : String :=
  let received := s.runs.toList.map fun r => s!"{r.first.toNat}..={r.last.toNat}"
  let missing := (s.missing total).map fun g => s!"{g.start.toNat}..{g.stop.toNat}"
  s!"received\t{spaced received}\nmissing\t{spaced missing}\ncomplete\t{s.isComplete total}\n"

/-- Records the parts and reports what is missing. -/
def runParts (total : Part) (values : List Int) : Outcome :=
  let recorded := record values .empty
  ⟨recorded.answer.map fun _ => inventory total recorded.after,
    recorded.events.map Event.record⟩

/-- Runs a command. -/
def run : Command → Outcome
  | .walk values remove removeEven => runWalk values remove removeEven
  | .bits capacity values remove => runBits capacity values remove
  | .parts total values => runParts total values

end Command

/-! ## What the user sees -/

namespace CommandLine

/-- What the user sees of a command. -/
inductive Report where
  /-- The command printed its answer. -/
  | done (output : String) (log : List String)
  /-- The command complained. -/
  | failed (complaint : String) (log : List String)
  /-- There was no such command, or its arguments were wrong. -/
  | refused
  /-- The log setting could not be taken apart, so nothing was run. -/
  | stopped
deriving DecidableEq, Repr

namespace Report

/-- What is printed on standard output. -/
def output : Report → String
  | done output _ => output
  | failed _ _ | refused | stopped => ""

/-- The lines of the log, which come first on standard error. -/
def log : Report → List String
  | done _ log | failed _ log => log
  | refused | stopped => []

/-- What is said on standard error after the log. -/
def complaint : Report → String
  | done _ _ => ""
  | failed complaint _ => complaint
  | refused => "error: no such command, or its arguments are wrong\n"
  | stopped => "error: the log setting cannot be taken apart\n"

/-- The number that the program ends with. -/
def code : Report → UInt32
  | done _ _ => 0
  | failed _ _ => 1
  | refused => 2
  | stopped => 101

end Report

/-- The filter of a log without a setting. -/
def defaultFilter (verbose : Bool) : LogFilter := .downTo (if verbose then .debug else .warn)

/-- The filter that the setting asks for.  A setting that is missing or malformed asks
for the default; there is no filter if the setting cannot be taken apart. -/
def filter? (setting : Option String) (verbose : Bool) : Option LogFilter :=
  match setting.map LogSetting.read with
  | none | some (.error .malformed) => some (defaultFilter verbose)
  | some (.error .splitCharacter) => none
  | some (.ok f) => some f

/-- Runs the command that the arguments ask for. -/
def execute (args : List String) (setting : Option String) : Report :=
  match read args with
  | none => .refused
  | some i =>
    match filter? setting i.verbose with
    | none => .stopped
    | some f =>
      let outcome := i.command.run
      let shown := (outcome.log.filter f.shows).map Record.line
      match outcome.result with
      | .ok output => .done output shown
      | .error complaint => .failed complaint.message shown

end CommandLine

end IntWalk

import IntWalk.Text.Numeral

/-!
# Command line arguments

The arguments of a command are flags, options with a value, and bare values, in
any order.  Flags and options begin with two dashes; an option has its value
after an equals sign or as the next argument.  A number with a minus sign counts
as a value.  After two dashes that stand alone only bare values follow.
-/

namespace IntWalk.CommandLine

/-- The flags and options that a command knows, by name. -/
structure Options where
  /-- Flags, which may be given once. -/
  flags : List String
  /-- Options with a value that may be given once. -/
  single : List String
  /-- Options with a value that may be given any number of times. -/
  repeated : List String

/-- An argument of a command. -/
inductive Argument where
  | flag (name : String)
  | option (name value : String)
  | value (text : String)
deriving DecidableEq, Repr

/-- What the first look at an argument gives. -/
inductive Look where
  /-- The argument is complete. -/
  | complete (a : Argument)
  /-- The argument is an option whose value comes next. -/
  | awaiting (name : String)
  /-- Only bare values follow. -/
  | separator
  /-- The command knows no such argument. -/
  | unknown
deriving DecidableEq, Repr

/-- Whether an option of that name takes a value. -/
def Options.isValued (o : Options) (name : String) : Bool :=
  o.single.contains name || o.repeated.contains name

/-- Looks at one argument. -/
def Options.look (o : Options) (arg : String) : Look :=
  match arg.toList with
  | ['-', '-'] => .separator
  | '-' :: '-' :: cs =>
    let name := String.ofList (cs.takeWhile (· != '='))
    match cs.dropWhile (· != '=') with
    | [] =>
      if o.flags.contains name then .complete (.flag name)
      else if o.isValued name then .awaiting name
      else .unknown
    | _ :: text =>
      if o.isValued name then .complete (.option name (String.ofList text)) else .unknown
  | ['-', 'v'] => if o.flags.contains "verbose" then .complete (.flag "verbose") else .unknown
  | '-' :: _ :: _ => if Text.isNegative arg then .complete (.value arg) else .unknown
  | _ => .complete (.value arg)

/-- Whether an argument can be the value of the option before it. -/
def isValue (arg : String) : Bool :=
  match arg.toList with
  | '-' :: _ :: _ => Text.isNegative arg
  | _ => true

/-- The arguments in order, unless one is unknown or lacks its value. -/
def Options.read (o : Options) : List String → Option (List Argument)
  | [] => some []
  | arg :: rest =>
    match o.look arg with
    | .complete a => (o.read rest).map (a :: ·)
    | .separator => some (rest.map .value)
    | .unknown => none
    | .awaiting name =>
      match rest with
      | [] => none
      | text :: rest =>
        if isValue text then (o.read rest).map (.option name text :: ·) else none

namespace Argument

/-- How often the flag or option of that name occurs. -/
def occurrences (name : String) (args : List Argument) : Nat :=
  args.countP fun
    | .flag n => n == name
    | .option n _ => n == name
    | .value _ => false

/-- The values given to the option of that name, in order. -/
def valuesOf (name : String) (args : List Argument) : List String :=
  args.filterMap fun
    | .option n text => if n == name then some text else none
    | _ => none

/-- The bare values, in order. -/
def bare (args : List Argument) : List String :=
  args.filterMap fun
    | .value text => some text
    | _ => none

end Argument

/-- The arguments in order, if nothing that may be given once is given twice. -/
def Options.readOnce (o : Options) (args : List String) : Option (List Argument) :=
  (o.read args).filter fun as => (o.flags ++ o.single).all fun n => Argument.occurrences n as ≤ 1

end IntWalk.CommandLine

import IntWalk.CommandLine.Run

/-!
# The program

Takes the arguments and the log setting from its surroundings, runs the command
and prints what the user is to see: the answer on standard output, the log and
any complaint on standard error.
-/

open IntWalk.CommandLine in
def main (args : List String) : IO UInt32 := do
  let report := execute args (← IO.getEnv "RUST_LOG")
  report.log.forM (IO.eprintln ·)
  IO.print report.output
  IO.eprint report.complaint
  return report.code

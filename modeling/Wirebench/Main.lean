import Wirebench.CommandLine.Bridge
import Wirebench.Loopback.Network

namespace Wirebench.CommandLine

def usage : String := "Usage: relay [OPTIONS] LOCAL REMOTE"

/-- Run the command; the answer is its exit code. -/
def execute (args : List String) : IO UInt32 := do
  match parseArguments args with
  | .error e =>
    IO.eprintln usage
    return UInt32.ofNat e.exitCode
  | .ok a =>
    match Bridge.ofArguments a with
    | .error e =>
      IO.eprintln (errorLine e)
      return UInt32.ofNat failureCode
    | .ok b =>
      let (stage, notices, _) := b.start Loopback.network 0 (.fresh true)
      for n in notices do IO.eprintln n.message
      match stage with
      | .ended (.ok ()) => return 0
      | .ended (.error e) => IO.eprintln (errorLine e)
      | _ => IO.eprintln "Error: nobody else is on this host"
      return UInt32.ofNat failureCode

end Wirebench.CommandLine

def main (args : List String) : IO UInt32 := Wirebench.CommandLine.execute args

import Wirebench.Bench.Log

namespace Wirebench

def expectText (what expected actual : String) : Except Mismatch Unit :=
  if expected = actual then .ok () else .error ⟨what, expected, actual⟩

/-- The first place where two byte strings differ, both having a byte there. -/
def firstDifference? : List UInt8 → List UInt8 → Option (Nat × UInt8 × UInt8)
  | e :: es, a :: as =>
    if e = a then (firstDifference? es as).map fun d => (d.1 + 1, d.2) else some (0, e, a)
  | _, _ => none

def expectBytes (expected actual : List UInt8) : Except DataMismatch Unit :=
  match firstDifference? expected actual with
  | some (offset, e, a) => .error (.byte offset e a)
  | none =>
    if expected.length = actual.length then .ok ()
    else .error (.length expected.length actual.length)

/-- Judge the answer to a control query; an answer is reported before it is compared. -/
def expectAnswer (label : String) (option : ControlOption) (expected : String) :
    Except StreamError String → Except BenchError Unit × Bench.Log
  | .error e => (.error (.stream e), [])
  | .ok actual =>
    ((expectText (label ++ " " ++ option.name) expected actual).mapError .mismatch,
      [.controlQueried label option actual])

end Wirebench

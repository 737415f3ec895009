import Wirebench.Bench.Handles

namespace Wirebench.Bench

/-- A connected pair, of which the first end is the connecting one. -/
structure Pair (A T : Type) where
  label : String
  phase : Phase
  port : UInt16
  first : Endpoint T
  second : Endpoint T
  acceptor : Acceptor A
  connector : Option (Acceptor A)

namespace Pair

variable {A T W : Type}

def ofHandles? (label : String) (phase : Phase) (port : UInt16) (h : Handles A T) :
    Option (Pair A T) := do
  return ⟨label, phase, port, ← h.first, ← h.second, ← h.acceptor, h.connector⟩

/-- Close what a pair holds. All of it is closed, and the first failure counts. -/
def close (net : Network A T W) (p : Pair A T) (w : W) :
    Except StreamError Unit × Pair A T × Log × W :=
  if p.phase = .closed then (.ok (), p, [], w)
  else
    let (r₁, first, w) := net.closeEndpoint p.first w
    let (r₂, second, w) := net.closeEndpoint p.second w
    let (r₃, acceptor, w) := net.closeAcceptor p.acceptor w
    let (r₄, connector, w) := Handles.closeAcceptor net p.connector w
    ((⟨r₁, r₂, r₃, r₄⟩ : Closings).result,
      { p with phase := .closed, first, second, acceptor, connector },
      [.phaseChanged p.label p.phase .closed, .pairClosed p.label], w)

/-- Let go of a pair, which is reported when it is not closed. -/
def discard (net : Network A T W) (p : Pair A T) (w : W) : Log × W :=
  (if p.phase = .closed then [] else [.pairDropped p.label],
    Handles.discard net ⟨some p.first, some p.second, some p.acceptor, p.connector⟩ w)

/-- The ends, the port and the phase of a pair for a reader of logs. -/
def describe (net : Network A T W) (p : Pair A T) : String :=
  "AcceptPair \x7b io1: " ++ p.first.describe net.wire ++ ", io2: " ++ p.second.describe net.wire ++
    ", port: " ++ String.ofList (Text.decimal p.port.toNat) ++
    ", state: " ++ p.phase.name.capitalize ++ " \x7d"

end Pair

end Wirebench.Bench

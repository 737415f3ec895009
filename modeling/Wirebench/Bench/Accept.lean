import Wirebench.Bench.Run
import Wirebench.Descriptor.Parser

namespace Wirebench.Bench

/-- Listen with one descriptor and connect with another, whose port may be pending. -/
structure AcceptRun where
  target : Descriptor
  accept : Descriptor
  /-- What the connecting end writes at once, and the other end reads back. An acceptor of
  datagrams sees nobody before something has been sent. -/
  greeting : List UInt8 := []
  /-- The remote address of the connecting end, up to its port. -/
  expectedRemote : Option String := none
  /-- The local address of the acceptor, up to its port. -/
  expectedLocal : Option String := none
  options : RunOptions

/-- Listen with one descriptor and connect to it from an acceptor opened with another. -/
structure AcceptConnectRun where
  accept : Descriptor
  connector : Descriptor
  target : Descriptor
  options : RunOptions

variable {A T W : Type}

namespace AcceptRun

/-- The run of two texts, of which that of the target is read first. -/
def parse (target accept : String) (options : RunOptions) : Except StreamError AcceptRun := do
  return { target := ← Descriptor.parse target, accept := ← Descriptor.parse accept, options }

def label (r : AcceptRun) : String := "accept " ++ r.accept.wire ++ " from " ++ r.target.wire

/-- The stages of a run; they end with the port that was listened on. -/
def stages (net : Network A T W) (c : Context) (random : Nat → List UInt8) (r : AcceptRun) :
    Stage A T W UInt16 := do
  let wait := r.options.wait c
  let a ← Stage.openAcceptor net c r.accept
  let port ← Stage.acceptorPort net a
  let target := r.target.fillPort port
  Stage.report (.connecting target port)
  Stage.connect net wait a fun now => c.openConnection net now target r.greeting
  Stage.readBack net wait r.greeting
  if let some start := r.expectedRemote then Stage.expectRemote net (withPort start port)
  if let some start := r.expectedLocal then Stage.expectLocal net a (withPort start port)
  Stage.exchange net c r.options random
  return port

def run (net : Network A T W) (c : Context) (random : Nat → List UInt8) (r : AcceptRun) (w : W) :
    Finished A T W :=
  Finished.conclude net r.options.doClose ((r.stages net c random).run.run (.start r.label w))

end AcceptRun

namespace AcceptConnectRun

def parse (accept connector target : String) (options : RunOptions) :
    Except StreamError AcceptConnectRun := do
  return { accept := ← Descriptor.parse accept, connector := ← Descriptor.parse connector,
           target := ← Descriptor.parse target, options }

def label (r : AcceptConnectRun) : String :=
  "accept " ++ r.accept.wire ++ " from " ++ r.target.wire ++ " via " ++ r.connector.wire

/-- The stages of a run; they end with the port that was listened on. -/
def stages (net : Network A T W) (c : Context) (random : Nat → List UInt8)
    (r : AcceptConnectRun) : Stage A T W UInt16 := do
  let wait := r.options.wait c
  let a ← Stage.openAcceptor net c r.accept
  let connector ← Stage.openConnector net c r.connector
  let port ← Stage.acceptorPort net a
  let target := r.target.fillPort port
  Stage.report (.connectingFromAcceptor target port)
  Stage.connect net wait a fun now => net.connectFromAcceptor now connector target
  Stage.exchange net c r.options random
  return port

def run (net : Network A T W) (c : Context) (random : Nat → List UInt8) (r : AcceptConnectRun)
    (w : W) : Finished A T W :=
  Finished.conclude net r.options.doClose ((r.stages net c random).run.run (.start r.label w))

end AcceptConnectRun

end Wirebench.Bench

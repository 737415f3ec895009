import Wirebench.Bench.Log
import Wirebench.Network

namespace Wirebench.Bench

/-- The two ends of a connection, the acceptor that waited for it and, in some runs, an acceptor from
which it was made. -/
structure Handles (A T : Type) where
  first : Option (Endpoint T) := none
  second : Option (Endpoint T) := none
  acceptor : Option (Acceptor A) := none
  connector : Option (Acceptor A) := none

/-- What came of closing the handles; one that is not there closes well. -/
structure Closings where
  first : Except StreamError Unit
  second : Except StreamError Unit
  acceptor : Except StreamError Unit
  connector : Except StreamError Unit

def Closings.result (c : Closings) : Except StreamError Unit := do
  c.first
  c.second
  c.acceptor
  c.connector

namespace Handles

variable {A T W : Type}

def closeEndpoint (net : Network A T W) (e : Option (Endpoint T)) (w : W) :
    Except StreamError Unit × Option (Endpoint T) × W :=
  match e with
  | none => (.ok (), none, w)
  | some e =>
    let (r, e, w) := net.closeEndpoint e w
    (r, some e, w)

def closeAcceptor (net : Network A T W) (a : Option (Acceptor A)) (w : W) :
    Except StreamError Unit × Option (Acceptor A) × W :=
  match a with
  | none => (.ok (), none, w)
  | some a =>
    let (r, a, w) := net.closeAcceptor a w
    (r, some a, w)

def close (net : Network A T W) (h : Handles A T) (w : W) : Closings × Handles A T × W :=
  let (first, one, w) := closeEndpoint net h.first w
  let (second, two, w) := closeEndpoint net h.second w
  let (acceptor, a, w) := closeAcceptor net h.acceptor w
  let (connector, c, w) := closeAcceptor net h.connector w
  (⟨first, second, acceptor, connector⟩, ⟨one, two, a, c⟩, w)

def endpointFailure (net : Network A T W) (e : Option (Endpoint T)) :
    Except StreamError Unit → Log
  | .ok () => []
  | .error err => (e.map fun e => .endpointCloseFailed ((Endpoint.wire net.wire).name e) err).toList

def acceptorFailure (a : Option (Acceptor A)) : Except StreamError Unit → Log
  | .ok () => []
  | .error err => (a.map fun a => .acceptorCloseFailed a.descriptor err).toList

def closeFailures (net : Network A T W) (h : Handles A T) (c : Closings) : Log :=
  endpointFailure net h.first c.first ++ endpointFailure net h.second c.second ++
    acceptorFailure h.acceptor c.acceptor ++ acceptorFailure h.connector c.connector

def discardEndpoint (net : Network A T W) (e : Option (Endpoint T)) (w : W) : W :=
  match e with
  | none => w
  | some e => (Endpoint.wire net.wire).discard e w

def discardAcceptor (net : Network A T W) (a : Option (Acceptor A)) (w : W) : W :=
  match a with
  | none => w
  | some a => net.discard a.listener w

def discard (net : Network A T W) (h : Handles A T) (w : W) : W :=
  discardAcceptor net h.connector (discardAcceptor net h.acceptor
    (discardEndpoint net h.second (discardEndpoint net h.first w)))

end Handles

end Wirebench.Bench

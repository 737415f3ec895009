import Wirebench.CommandLine.Arguments
import Wirebench.Descriptor.Parser
import Wirebench.Network
import Wirebench.Relay.Session

namespace Wirebench.CommandLine

inductive Notice
  | waitingOn (port : UInt16)
  | nearOpen (name : String)
  | farOpen (name : String)
  | closeFailed (name : String) (e : StreamError)
  | stopped (exit : Relay.Exit)
  deriving DecidableEq, Repr

def Notice.message : Notice → String
  | waitingOn port =>
    "Waiting for a connection on port " ++ String.ofList (Text.decimal port.toNat)
  | nearOpen name => "Local side open: " ++ name
  | farOpen name => "Remote side open: " ++ name
  | closeFailed name e => "Close of " ++ name ++ " failed: " ++ e.message
  | stopped .quit => "Relay stopped by escape"
  | stopped .nearClosed => "Local side closed"
  | stopped .farClosed => "Remote side closed"

def errorLine (e : StreamError) : String := "Error: " ++ e.message

def failureCode : Nat := 1

def ArgumentError.exitCode : ArgumentError → Nat
  | helpRequested => 0
  | missingDescriptor | unknownArgument | repeatedOption | invalidValue | missingValue
  | surplusValue => 2

structure Bridge where
  near : Descriptor
  far : Descriptor
  /-- Wait for a connection on the near side. -/
  accept : Bool
  escape : UInt8
  config : EndpointConfig
  deriving DecidableEq, Repr

def defaultEscape : UInt8 := 0x1d

/-- The bridge of some arguments, whose near side is read first. -/
def Bridge.ofArguments (a : Arguments) : Except StreamError Bridge := do
  return { near := ← Descriptor.parse a.nearSide
           far := ← Descriptor.parse a.farSide
           accept := a.accept
           escape := a.escape.getD defaultEscape
           config := { connectTimeout := .ofMilliseconds a.timeoutMilliseconds } }

inductive BridgeStage (A T W : Type)
  | accepting (a : Acceptor A) (o : Opening A T)
  | openingNear (o : Opening A T)
  | openingFar (near : Endpoint T) (o : Opening A T)
  | relaying (r : Relay Unit (Endpoint T) W) (near far : Endpoint T)
  | ended (result : Except StreamError Unit)

namespace Bridge

variable {A T W : Type}

/-- Close an endpoint at the end, where a failure is only reported. -/
def closeSide (net : Network A T W) (e : Endpoint T) (w : W) : List Notice × W :=
  match net.closeEndpoint e w with
  | (.ok (), _, w) => ([], w)
  | (.error err, e, w) => ([.closeFailed ((Endpoint.wire net.wire).name e) err], w)

/-- Relay as far as it goes. In the end both sides are closed. -/
def relay (net : Network A T W) (r : Relay Unit (Endpoint T) W) (near far : Endpoint T) (w : W) :
    BridgeStage A T W × List Notice × W :=
  let finish (result : Except StreamError Unit) (last : List Notice)
      (e : Relay.Ends (Endpoint T) W) : BridgeStage A T W × List Notice × W :=
    let (nearTrouble, w) := closeSide net e.near e.world
    let (farTrouble, w) := closeSide net e.far w
    (.ended result, nearTrouble ++ farTrouble ++ last, w)
  match Relay.run (Endpoint.wire net.wire) r ⟨near, far, w⟩ with
  | (.ok exit, _, e) => finish (.ok ()) [.stopped exit] e
  | (.error err, _, e) => finish (.error err) [] e
  | (.waiting, r, e) | (.stalled, r, e) => (.relaying r e.near e.far, [], e.world)

/-- Go on when the far side is open. When it cannot be opened the near side is closed, and a
failure of that is reported in its place. -/
def afterFar (net : Network A T W) (b : Bridge) (near : Endpoint T) :
    Opening A T × W → BridgeStage A T W × List Notice × W
  | (.opened far, w) =>
    let r := Relay.new (some b.escape) none defaultReadBuffer.toNat ()
    let (stage, notices, w) := relay net r near far w
    (stage, .farOpen ((Endpoint.wire net.wire).name far) :: notices, w)
  | (.failed _ e, w) =>
    let (r, _, w) := net.closeEndpoint near w
    (.ended (do r; .error e), [], w)
  | (o, w) => (.openingFar near o, [], w)

def afterNear (net : Network A T W) (b : Bridge) (now : Nat) :
    Opening A T × W → BridgeStage A T W × List Notice × W
  | (.opened near, w) =>
    let (stage, notices, w) :=
      afterFar net b near (net.openConnection now b.far b.config [] w)
    (stage, .nearOpen ((Endpoint.wire net.wire).name near) :: notices, w)
  | (.failed _ e, w) => (.ended (.error e), [], w)
  | (o, w) => (.openingNear o, [], w)

/-- Go on when a connection has been accepted. The acceptor is closed, and a failure of that comes
before any other. -/
def afterAccept (net : Network A T W) (b : Bridge) (now : Nat) (a : Acceptor A) :
    Opening A T × W → BridgeStage A T W × List Notice × W
  | (o, w) =>
    if o.isOver then
      match net.closeAcceptor a w with
      | (.ok (), _, w) => afterNear net b now (o, w)
      | (.error e, _, w) => (.ended (.error e), [], o.discardAll net w)
    else (.accepting a o, [], w)

def start (net : Network A T W) (b : Bridge) (now : Nat) (w : W) :
    BridgeStage A T W × List Notice × W :=
  if b.accept then
    match net.openAcceptor b.near b.config w with
    | (.error e, w) => (.ended (.error e), [], w)
    | (.ok a, w) =>
      match net.acceptorPort a w with
      | .error e => (.ended (.error e), [], net.discard a.listener w)
      | .ok port =>
        let (stage, notices, w) := afterAccept net b now a ((Network.acceptFrom a).poll net now w)
        (stage, .waitingOn port :: notices, w)
  else afterNear net b now (net.openConnection now b.near b.config [] w)

def poll (net : Network A T W) (b : Bridge) (now : Nat) (stage : BridgeStage A T W) (w : W) :
    BridgeStage A T W × List Notice × W :=
  match stage with
  | .accepting a o => afterAccept net b now a (o.poll net now w)
  | .openingNear o => afterNear net b now (o.poll net now w)
  | .openingFar near o => afterFar net b near (o.poll net now w)
  | .relaying r near far => relay net r near far w
  | .ended result => (.ended result, [], w)

end Bridge

end Wirebench.CommandLine

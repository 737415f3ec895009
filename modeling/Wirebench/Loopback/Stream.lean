import Wirebench.Address.Basic
import Wirebench.Wire

namespace Wirebench.Loopback

/-- An end of a stream of bytes. Beside the stream one urgent byte can be under way: the last one of
an urgent write, whose other bytes travel in the stream. -/
structure StreamEnd where
  localAddress : SocketAddress
  remoteAddress : SocketAddress
  /-- The most bytes that one write takes. -/
  maxWrite : Nat
  noDelay : Bool := false
  /-- The bytes that have come and are not yet read. -/
  inbox : List UInt8 := []
  /-- The urgent byte that has come and is not yet read. -/
  urgent : Option UInt8 := none
  /-- Nothing more comes from the other end. -/
  isEnded : Bool := false
  deriving DecidableEq, Repr

namespace StreamEnd

/-- Read what is there, or find the stream at its end. A read of nothing still waits for something
to come. -/
def read (n : Nat) (e : StreamEnd) : Outcome (List UInt8) × StreamEnd :=
  if e.inbox.isEmpty then
    (if e.isEnded then if n = 0 then .ok [] else .error .remoteClosed else .waiting, e)
  else (.ok (e.inbox.take n), { e with inbox := e.inbox.drop n })

def take (e : StreamEnd) (data : List UInt8) : List UInt8 := data.take e.maxWrite

def receive (bytes : List UInt8) (e : StreamEnd) : StreamEnd := { e with inbox := e.inbox ++ bytes }

def receiveUrgent (data : List UInt8) (e : StreamEnd) : StreamEnd :=
  match data.getLast? with
  | some b => { e with inbox := e.inbox ++ data.dropLast, urgent := some b }
  | none => e

def readUrgent (n : Nat) (e : StreamEnd) : Outcome (List UInt8) × StreamEnd :=
  match e.urgent with
  | some b => (.ok ([b].take n), { e with urgent := none })
  | none => (.waiting, e)

/-- Answer a request; only the delay of small writes can be set. -/
def control (r : ControlRequest) (e : StreamEnd) : Except StreamError String × StreamEnd :=
  if r.depth.targetsHere then
    match r.option, r.get with
    | .localAddr, true => (.ok e.localAddress.entry, e)
    | .remoteAddr, true => (.ok e.remoteAddress.entry, e)
    | .maxWritePacket, true => (.ok (String.ofList (Text.decimal e.maxWrite)), e)
    | .noDelay, true => (.ok (if e.noDelay then "1" else "0"), e)
    | .noDelay, false =>
      match r.requireValue >>= r.option.parseSwitch with
      | .ok noDelay => (.ok "", { e with noDelay })
      | .error err => (.error err, e)
    | _, _ => (.error r.option.unsupported, e)
  else (.error r.option.unsupported, e)

/-- The reads that can succeed before something has to come, at most. -/
def backlog (e : StreamEnd) : Nat := e.inbox.length + e.urgent.toList.length

end StreamEnd

structure StreamListener where
  address : SocketAddress
  maxWrite : Nat
  isOpen : Bool := true
  /-- The ends that wait to be accepted. -/
  waiting : List Nat := []
  deriving DecidableEq, Repr

end Wirebench.Loopback

import Wirebench.Address.Shorthand
import Wirebench.Config.Basic
import Wirebench.Descriptor.Basic
import Wirebench.Loopback.Shared
import Wirebench.Loopback.Stream

namespace Wirebench.Loopback

/-- A datagram socket of one's own, connected to one remote address. -/
structure DatagramSocket where
  localAddress : SocketAddress
  peer : Peer
  /-- It is known that the socket can send, which is found out while somebody waits. -/
  isReady : Bool := false
  deriving DecidableEq, Repr

/-- A shared datagram socket with the address it is bound to. -/
structure Hub where
  address : SocketAddress
  socket : SharedSocket := {}
  /-- It is known that the socket can send, which is found out while somebody waits. -/
  isReady : Bool := false
  deriving DecidableEq, Repr

/-- The sockets of a host, each kind known by the order in which they were made. -/
structure Host where
  /-- The loopback interface is up. -/
  isUp : Bool
  ends : List StreamEnd := []
  /-- The other end of each end. -/
  opposite : List Nat := []
  listeners : List StreamListener := []
  sockets : List DatagramSocket := []
  hubs : List Hub := []
  /-- The number of ports given out so far. -/
  given : Nat := 0
  deriving DecidableEq, Repr

inductive SocketFault
  | invalidArgument
  | familyNotSupported
  | addressInUse
  | networkUnreachable
  | connectionRefused
  deriving DecidableEq, Repr

def SocketFault.message : SocketFault → String
  | invalidArgument => "Invalid argument (os error 22)"
  | familyNotSupported => "Address family not supported by protocol (os error 97)"
  | addressInUse => "Address already in use (os error 98)"
  | networkUnreachable => "Network is unreachable (os error 101)"
  | connectionRefused => "Connection refused (os error 111)"

/-- The address that the text of a host spells in full. -/
def spelled? (host : String) (port : UInt16) : Option SocketAddress :=
  match Ipv4.parse? host.toList, Ipv6.parse? host.toList with
  | some ip, _ => some (.v4 ip port)
  | none, some ip => some (.v6 ip port 0 0)
  | none, none => none

def lookupFault (host : String) : StreamError :=
  .unresolved (host ++
    if host.contains (Char.ofNat 0) then ": file name contained an unexpected NUL byte"
    else ": failed to lookup address information: Temporary failure in name resolution")

/-- The address of a host that has to be looked up: a shorthand, or the one name that is known, in
upper or lower case. -/
def lookUp (host : String) (port : UInt16) : Except StreamError SocketAddress :=
  match Ipv4.ofShorthand? host.toList with
  | some ip => .ok (.v4 ip port)
  | none =>
    if host.toLower = "localhost" then .ok (.v4 .localhost port) else .error (lookupFault host)

/-- The address of a transport; without a host it is every local address, without a port it is
port zero. -/
def resolve (t : Transport) : Except StreamError SocketAddress :=
  let port := t.port.getD 0
  match t.host with
  | none => .ok (.v4 .unspecified port)
  | some host => ((spelled? host port).map .ok).getD (lookUp host port)

/-- The host of a transport has to be looked up, which takes time. -/
def needsLookup (t : Transport) : Bool :=
  match t.host with
  | none => false
  | some host => (spelled? host 0).isNone

namespace Host

def fresh (isUp : Bool) : Host := { isUp }

def streamAddresses (h : Host) : List SocketAddress :=
  (h.listeners.filter (·.isOpen)).map (·.address)

def datagramAddresses (h : Host) : List SocketAddress :=
  (h.hubs.filter (·.socket.isInUse)).map (·.address) ++
    (h.sockets.filter (·.peer.isHeld)).map (·.localAddress)

def usedPorts (h : Host) : List UInt16 :=
  (h.streamAddresses ++ h.datagramAddresses ++ h.ends.map (·.localAddress)).map (·.port)

/-- The ports that are given out, from the first one on and then again from the beginning. -/
def givenPort (n : Nat) : UInt16 := UInt16.ofNat (32768 + n % 28232)

/-- A port that is not in use. One more candidate than there are ports in use is enough. -/
def freePort (h : Host) : UInt16 × Host :=
  let used := h.usedPorts
  let candidates := (List.range (used.length + 1)).map (h.given + ·)
  let n := (candidates.find? fun n => !used.contains (givenPort n)).getD h.given
  (givenPort n, { h with given := n + 1 })

/-- Bind to an address that does not clash with those given. Port zero asks for a free port. -/
def bind (used : List SocketAddress) (a : SocketAddress) (h : Host) :
    Except SocketFault SocketAddress × Host :=
  if a.isV4 then
    if a.port = 0 then
      let (port, h) := h.freePort
      (.ok (a.withPort port), h)
    else if used.any (·.clashes a) then (.error .addressInUse, h)
    else (.ok a, h)
  else (.error .familyNotSupported, h)

def reaches (h : Host) (a : SocketAddress) : Except SocketFault Unit :=
  match a with
  | .v4 ip _ =>
    if h.isUp ∧ (ip.a = 127 ∨ ip = .unspecified) then .ok () else .error .networkUnreachable
  | .v6 .. => .error .familyNotSupported

/-- Somebody waits. In the meantime the distributors of all shared sockets go on, and all datagram
sockets become ready. -/
def settle (h : Host) : Host :=
  { h with
    hubs := h.hubs.map fun hub => { hub with socket := hub.socket.settle, isReady := true }
    sockets := h.sockets.map fun s => { s with isReady := true } }

/-- The host once a datagram socket can send; for one that is not ready this takes a wait. -/
def onceReady (isReady : Bool) (h : Host) : Host := if isReady then h else h.settle

/-- An operation that has to wait is tried again after the distributors have gone on. -/
def patiently {α : Type} (op : Host → Outcome α × Host) (h : Host) : Outcome α × Host :=
  match op h with
  | (.waiting, h) => op h.settle
  | r => r

/-- The address of a transport. The distributors go on while a host is looked up. -/
def locate (t : Transport) (h : Host) : Except StreamError SocketAddress × Host :=
  (resolve t, if needsLookup t then h.settle else h)

def onEnd {α : Type} (i : Nat) (missing : α) (op : StreamEnd → α × StreamEnd) (h : Host) :
    α × Host :=
  match h.ends[i]? with
  | some e =>
    let (r, e) := op e
    (r, { h with ends := h.ends.set i e })
  | none => (missing, h)

/-- Something comes to the other end. -/
def atOpposite (i : Nat) (f : StreamEnd → StreamEnd) (h : Host) : Host :=
  match h.opposite[i]? with
  | some j => { h with ends := h.ends.modify j f }
  | none => h

def writeStream (i : Nat) (data : List UInt8) (h : Host) : Outcome Nat × Host :=
  match h.ends[i]? with
  | some e => (.ok (e.take data).length, h.atOpposite i (.receive (e.take data)))
  | none => (.error .closed, h)

def endStream (h : Host) (i : Nat) : Host := h.atOpposite i fun e => { e with isEnded := true }

/-- A stream to a listener; what comes back is the connecting end. The answer of a target that can
be reached takes a wait. -/
def connectStream (maxWrite : Nat) (target : SocketAddress) (h : Host) :
    Except SocketFault Nat × Host :=
  match h.reaches target with
  | .error e => (.error e, h)
  | .ok () =>
    let h := h.settle
    let target := target.concrete
    match h.listeners.findIdx? fun l => l.isOpen && l.address.covers target with
    | none => (.error .connectionRefused, h)
    | some l =>
      let (port, h) := h.freePort
      let source := SocketAddress.loopback port
      let i := h.ends.length
      let accepted := (h.listeners[l]?.map (·.maxWrite)).getD 0
      (.ok i,
        { h with
          ends := h.ends ++ [{ localAddress := source, remoteAddress := target, maxWrite },
            { localAddress := target, remoteAddress := source, maxWrite := accepted }]
          opposite := h.opposite ++ [i + 1, i]
          listeners := h.listeners.modify l fun l => { l with waiting := l.waiting ++ [i + 1] } })

/-- Take the stream that has waited longest at a listener. -/
def acceptStream (l : Nat) (h : Host) : Outcome Nat × Host :=
  match h.listeners[l]? with
  | none => (.error .closed, h)
  | some s =>
    if s.isOpen then
      match s.waiting with
      | i :: waiting => (.ok i, { h with listeners := h.listeners.set l { s with waiting } })
      | [] => (.waiting, h)
    else (.error .closed, h)

/-- Stop listening. Streams that were not accepted end. -/
def closeListener (l : Nat) (h : Host) : Host :=
  match h.listeners[l]? with
  | none => h
  | some s =>
    s.waiting.foldl endStream
      { h with listeners := h.listeners.set l { s with isOpen := false, waiting := [] } }

def onHub {α : Type} (i : Nat) (missing : α) (op : SharedSocket → α × SharedSocket) (h : Host) :
    α × Host :=
  match h.hubs[i]? with
  | some hub =>
    let (r, socket) := op hub.socket
    (r, { h with hubs := h.hubs.set i { hub with socket } })
  | none => (missing, h)

def onSocket {α : Type} (i : Nat) (missing : α) (op : Peer → α × Peer) (h : Host) : α × Host :=
  match h.sockets[i]? with
  | some s =>
    let (r, peer) := op s.peer
    (r, { h with sockets := h.sockets.set i { s with peer } })
  | none => (missing, h)

/-- Bring a datagram to the socket it is for: one that is connected to the sender goes before a
shared one. Where there is none the datagram is lost. -/
def deliver (source target : SocketAddress) (d : Datagram) (h : Host) : Host :=
  let own (s : DatagramSocket) : Bool :=
    s.peer.isHeld && s.localAddress = target && s.peer.address = source
  match h.sockets.findIdx? own with
  | some i => (h.onSocket i () fun p => ((), { p with queue := p.queue ++ [d] })).2
  | none =>
    match h.hubs.findIdx? fun hub => hub.socket.isInUse && hub.address.covers target with
    | some i => (h.onHub i () fun s => ((), s.arrive source d)).2
    | none => h

def send (source target : SocketAddress) (d : Datagram) (h : Host) : Outcome Nat × Host :=
  if target.port = 0 then (.error (.io SocketFault.invalidArgument.message), h)
  else
    match h.reaches target with
    | .ok () => (.ok d.length, h.deliver source.concrete target.concrete d)
    | .error e => (.error (.io e.message), h)

def connectDatagram (target : SocketAddress) (h : Host) : Except SocketFault Nat × Host :=
  let (port, h) := h.freePort
  match h.reaches target with
  | .error e => (.error e, h)
  | .ok () =>
    let s := { localAddress := .loopback port, peer := { address := target.concrete } }
    (.ok h.sockets.length, { h with sockets := h.sockets ++ [s] })

end Host

end Wirebench.Loopback

import Wirebench.Association
import Wirebench.Loopback.Host

namespace Wirebench.Loopback

inductive Link
  | stream (i : Nat)
  | datagram (socket : Nat)
  | shared (hub peer : Nat)
  deriving DecidableEq, Repr

structure Connection where
  name : String
  link : Link
  deriving DecidableEq, Repr

/-- What a listener runs on, with the settings of its connections. -/
inductive Listener
  | stream (i : Nat) (config : EndpointConfig)
  | shared (hub : Nat)
  deriving DecidableEq, Repr

namespace Link

def read (n : Nat) (link : Link) : Host → Outcome (List UInt8) × Host :=
  Host.patiently fun h =>
    match link with
    | stream i => h.onEnd i (.error .closed) (·.read n)
    | datagram s =>
      h.onSocket s (.error .closed) fun p =>
        let (bytes, p) := p.read n
        ((bytes.map .ok).getD .waiting, p)
    | shared hub peer => h.onHub hub (.error .closed) (·.read n peer)

/-- A stream takes as much as one write of it may take, a datagram as much as fits. -/
def write (data : List UInt8) : Link → Host → Outcome Nat × Host
  | stream i, h => h.writeStream i data
  | datagram s, h =>
    match h.sockets[s]? with
    | some socket =>
      (h.onceReady socket.isReady).send socket.localAddress socket.peer.address
        (data.take datagramLimit)
    | none => (.error .closed, h)
  | shared hub peer, h =>
    match h.hubs[hub]? with
    | some s =>
      match s.socket.peers[peer]? with
      | some p => (h.onceReady s.isReady).send s.address p.address (data.take datagramLimit)
      | none => (.error .closed, h)
    | none => (.error .closed, h)

/-- Urgent data goes along with streams only. -/
def writeUrgent (data : List UInt8) : Link → Host → Outcome Unit × Host
  | stream i, h => (.ok (), h.atOpposite i (.receiveUrgent data))
  | datagram _, h | shared .., h => (.error (.notSupported "urgent data"), h)

def readUrgent (n : Nat) (link : Link) : Host → Outcome (List UInt8) × Host :=
  Host.patiently fun h =>
    match link with
    | stream i => h.onEnd i (.error .closed) (·.readUrgent n)
    | datagram _ | shared .. => (.error (.notSupported "urgent data"), h)

def addresses? (link : Link) (h : Host) : Option (SocketAddress × SocketAddress) :=
  match link with
  | stream _ => none
  | datagram s => h.sockets[s]?.map fun s => (s.localAddress, s.peer.address)
  | shared hub peer => do
    let s ← h.hubs[hub]?
    let p ← s.socket.peers[peer]?
    return (s.address, p.address)

/-- Answer a request about datagrams, of which nothing can be set. -/
def datagramAnswer (addresses : SocketAddress × SocketAddress) (r : ControlRequest) :
    Except StreamError String :=
  if r.depth.targetsHere && r.get then
    match r.option with
    | .localAddr => .ok addresses.1.entry
    | .remoteAddr => .ok addresses.2.entry
    | .maxWritePacket => .ok (String.ofList (Text.decimal datagramLimit))
    | _ => .error r.option.unsupported
  else .error r.option.unsupported

def control (r : ControlRequest) (link : Link) (h : Host) : Outcome String × Host :=
  match link with
  | stream i => h.onEnd i (.error .closed) fun e => ((e.control r).map Outcome.ofExcept id)
  | datagram _ | shared .. =>
    match link.addresses? h with
    | some a => (.ofExcept (datagramAnswer a r), h)
    | none => (.error .closed, h)

/-- A stream ends; a peer of a shared socket is released. -/
def close : Link → Host → Host
  | stream i, h => h.endStream i
  | datagram _, h => h
  | shared hub peer, h => (h.onHub hub () fun s => ((), s.release peer)).2

def discard : Link → Host → Host
  | stream i, h => h.endStream i
  | datagram s, h => (h.onSocket s () fun p => ((), { p with isHeld := false })).2
  | shared hub peer, h => (h.onHub hub () fun s => ((), s.discard peer)).2

def backlog (link : Link) (h : Host) : Nat :=
  match link with
  | stream i => (h.ends[i]?.map StreamEnd.backlog).getD 0
  | datagram s => (h.sockets[s]?.map fun s => s.peer.backlog).getD 0
  | shared hub _ => (h.hubs[hub]?.map fun s => s.socket.backlog).getD 0

end Link

def onLink {α : Type} (op : Link → Host → α × Host) (c : Connection) (h : Host) :
    α × Connection × Host :=
  let (r, h) := op c.link h
  (r, c, h)

def wire : Wire Connection Host where
  name c := c.name
  read n := onLink (Link.read n)
  write data := onLink (Link.write data)
  writeUrgent data := onLink (Link.writeUrgent data)
  readUrgent n := onLink (Link.readUrgent n)
  control r := onLink (Link.control r)
  close := onLink fun link h => (.ok (), link.close h)
  discard c h := c.link.discard h
  backlog c h := c.link.backlog h

def streamConnection (i : Nat) (h : Host) : Connection :=
  ⟨(h.ends[i]?.map fun e =>
    Protocol.tcp.connectionName (some e.localAddress) e.remoteAddress).getD "", .stream i⟩

def datagramConnection (link : Link) (h : Host) : Connection :=
  ⟨((link.addresses? h).map fun a => Protocol.udp.connectionName (some a.1) a.2).getD "", link⟩

/-- Connect to a descriptor of a transport, whose port must be known. The kernel of the host has no
sockets for associations. -/
def connect (d : Descriptor) (config : EndpointConfig) (h : Host) :
    Except StreamError Connection × Host :=
  match d.port, h.locate d.transport with
  | .error e, _ => (.error e, h)
  | .ok _, (.error e, h) => (.error e, h)
  | .ok port, (.ok target, h) =>
    match d.protocol with
    | .tcp =>
      match h.connectStream config.readBufferSize.toNat target with
      | (.ok i, h) => (.ok (streamConnection i h), h)
      | (.error f, h) => (.error (d.transport.connectFailed port f.message), h)
    | .udp =>
      match h.connectDatagram target with
      | (.ok s, h) => (.ok (datagramConnection (.datagram s) h), h)
      | (.error f, h) => (.error (d.transport.connectFailed port f.message), h)
    | .sctp =>
      match Association.connect .unavailable d.transport port target config () with
      | (.ok c, _) => nomatch c.socket
      | (.error e, _) => (.error e, h)

def listen (d : Descriptor) (config : EndpointConfig) (h : Host) :
    Except StreamError Listener × Host :=
  match h.locate d.transport with
  | (.error e, h) => (.error e, h)
  | (.ok a, h) =>
    match d.protocol with
    | .tcp =>
      match h.bind h.streamAddresses a with
      | (.ok address, h) =>
        (.ok (.stream h.listeners.length config),
          { h with listeners := h.listeners ++
              [{ address, maxWrite := config.readBufferSize.toNat }] })
      | (.error f, h) => (.error (.listenFailed a.text f.message), h)
    | .udp =>
      match h.bind h.datagramAddresses a with
      | (.ok address, h) =>
        (.ok (.shared h.hubs.length), { h with hubs := h.hubs ++ [{ address }] })
      | (.error f, h) => (.error (.listenFailed a.text f.message), h)
    | .sctp =>
      match Association.listen .unavailable a config ⟨(), []⟩ with
      | (.ok l, _) => nomatch l.socket
      | (.error e, _) => (.error e, h)

def accept (l : Listener) : Host → Outcome Connection × Host :=
  Host.patiently fun h =>
    match l with
    | .stream i _ =>
      let (r, h) := h.acceptStream i
      (r.map fun i => streamConnection i h, h)
    | .shared hub =>
      let (r, h) := h.onHub hub (.error .closed) SharedSocket.accept
      (r.map fun peer => datagramConnection (.shared hub peer) h, h)

/-- Connect from a listener. A stream gets a socket of its own; for datagrams a peer of the shared
socket is made, whether or not it can be reached. -/
def connectFrom (l : Listener) (target : Descriptor) (h : Host) :
    Except StreamError Connection × Host :=
  match l with
  | .stream _ config =>
    if target.protocol = .tcp then connect target config h
    else (.error (target.wrongProtocol "a" .tcp), h)
  | .shared hub =>
    if target.protocol = .udp then
      if (h.hubs[hub]?).any (·.socket.isOpen) then
        match h.locate target.transport with
        | (.error e, h) => (.error e, h)
        | (.ok a, h) =>
          if a.isV4 then
            let (peer, h) := h.onHub hub 0 (·.addPeer a)
            (.ok (datagramConnection (.shared hub peer) h), h)
          else (.error (.unresolved target.wire), h)
      else (.error .closed, h)
    else (.error (target.wrongProtocol "a" .udp), h)

/-- The address a listener is bound to, as long as it is open. -/
def addresses (l : Listener) (h : Host) : List SocketAddress :=
  match l with
  | .stream i _ => ((h.listeners[i]?.filter (·.isOpen)).map (·.address)).toList
  | .shared hub => ((h.hubs[hub]?.filter (·.socket.isOpen)).map (·.address)).toList

def shutDown (l : Listener) (h : Host) : Host :=
  match l with
  | .stream i _ => h.closeListener i
  | .shared hub => (h.onHub hub () fun s => ((), s.shutDown)).2

def discardListener (l : Listener) (h : Host) : Host :=
  match l with
  | .stream i _ => h.closeListener i
  | .shared hub => (h.onHub hub () fun s => ((), s.abandon)).2

def network : Network Listener Connection Host where
  wire := wire
  listen := listen
  connect := connect
  accept := accept
  connectFrom := connectFrom
  addresses := addresses
  shutdown l h := (.ok (), shutDown l h)
  discard := discardListener

end Wirebench.Loopback

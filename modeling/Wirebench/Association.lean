import Wirebench.Address.Packed
import Wirebench.Network

namespace Wirebench

/-- The name of a connection from one address, if that is known, to another. -/
def Protocol.connectionName (p : Protocol) (source? : Option SocketAddress)
    (target : SocketAddress) : String :=
  p.token ++ "," ++ ((source?.map fun a => a.text ++ "->").getD "") ++ target.text

def Transport.connectFailed (t : Transport) (port : UInt16) (reason : String) : StreamError :=
  .connectFailed (t.host.getD "*" ++ ":" ++ String.ofList (Text.decimal port.toNat)) reason

/-- The error of a target whose protocol is not that of the acceptor. -/
def Descriptor.wrongProtocol (target : Descriptor) (article : String) (p : Protocol) :
    StreamError :=
  .invalidDescriptor target.wire (.notOverProtocol article p.token)

namespace Association

/-- Why a kernel makes no socket. -/
inductive Refusal
  /-- It does not know the protocol. -/
  | unavailable
  | fault (text : String)
  deriving DecidableEq, Repr

def Refusal.error : Refusal → StreamError
  | unavailable => .protocolUnavailable Protocol.sctp.token
  | fault text => .io text

/-- The calls of a kernel on its sockets for associations. `S` are its sockets, and `K` is all that
it knows. A call that fails gives a text; one that gives nothing has to wait. -/
structure Sockets (S K : Type) where
  /-- Make a socket for addresses of the kind of this one, which asks for some numbers of
  streams. -/
  create : SocketAddress → SctpConfig → K → Except Refusal S × K
  /-- Bind a socket to an address and listen on it. -/
  listen : SocketAddress → S → K → Except String Unit × K
  /-- Connect a socket; nothing is given when there is no answer in time. -/
  connect : Duration → SocketAddress → S → K → Option (Except String Unit) × K
  /-- Have a socket watched for when it can go on. -/
  watch : S → K → Except String Unit × K
  accept : S → K → Option (Except String S) × K
  /-- The packed list of the addresses that a socket is bound to. -/
  boundAddresses : S → K → Except String (List UInt8)
  /-- An address that is not one of the internet is left out. -/
  localAddress : S → K → Except String (Option SocketAddress)
  remoteAddress : S → K → Except String (Option SocketAddress)
  streamCounts : S → K → Except String StreamCounts
  read : Nat → S → K → Option (Except String (List UInt8)) × K
  write : List UInt8 → S → K → Option (Except String Nat) × K
  shutdown : S → K → K
  drop : S → K → K
  /-- A bound on the reads that can succeed before one has to wait. -/
  backlog : S → K → Nat

/-- A kernel that does not know the protocol. -/
def Sockets.unavailable : Sockets Empty Unit where
  create _ _ k := (.error .unavailable, k)
  listen _ s := nomatch s
  connect _ _ s := nomatch s
  watch s := nomatch s
  accept s := nomatch s
  boundAddresses s := nomatch s
  localAddress s := nomatch s
  remoteAddress s := nomatch s
  streamCounts s := nomatch s
  read _ s := nomatch s
  write _ s := nomatch s
  shutdown s := nomatch s
  drop s := nomatch s
  backlog s := nomatch s

structure Connection (S : Type) where
  socket : S
  name : String
  maxWrite : Nat
  deriving DecidableEq, Repr

/-- A listening socket with the settings of its connections. The number tells whether it has been
shut down. -/
structure Listener (S : Type) where
  socket : S
  index : Nat
  config : EndpointConfig
  deriving DecidableEq, Repr

/-- The kernel, and which listeners are open, in the order in which they were made. -/
structure World (K : Type) where
  kernel : K
  isOpen : List Bool := []
  deriving DecidableEq, Repr

section

variable {S K : Type} (sockets : Sockets S K)

def internetAddress (r : Except String (Option SocketAddress)) : Except StreamError SocketAddress :=
  match r with
  | .ok (some a) => .ok a
  | .ok none => .error (.io "not an inet address")
  | .error text => .error (.io text)

/-- The connection over a socket that has been connected or accepted. -/
def Connection.ofSocket (maxWrite : Nat) (s : S) (k : K) :
    Except StreamError (Connection S) × K :=
  match internetAddress (sockets.remoteAddress s k) with
  | .error e => (.error e, sockets.drop s k)
  | .ok remote =>
    let source? := (sockets.localAddress s k).toOption.join
    match sockets.watch s k with
    | (.error text, k) => (.error (.io text), sockets.drop s k)
    | (.ok (), k) => (.ok ⟨s, Protocol.sctp.connectionName source? remote, maxWrite⟩, k)

/-- Connect to the address of a transport, at its port. -/
def connect (t : Transport) (port : UInt16) (a : SocketAddress) (config : EndpointConfig) (k : K) :
    Except StreamError (Connection S) × K :=
  match sockets.create a config.sctp k with
  | (.error .unavailable, k) => (.error Refusal.unavailable.error, k)
  | (.error (.fault text), k) => (.error (t.connectFailed port (StreamError.io text).message), k)
  | (.ok s, k) =>
    match sockets.connect config.connectTimeout a s k with
    | (none, k) =>
      (.error (.timeout (config.connectTimeout.toMilliseconds % UInt64.size)), sockets.drop s k)
    | (some (.error text), k) =>
      (.error (t.connectFailed port (StreamError.io text).message), sockets.drop s k)
    | (some (.ok ()), k) =>
      match Connection.ofSocket sockets config.readBufferSize.toNat s k with
      | (.ok c, k) => (.ok c, k)
      | (.error e, k) => (.error (t.connectFailed port e.message), k)

def listen (a : SocketAddress) (config : EndpointConfig) (w : World K) :
    Except StreamError (Listener S) × World K :=
  match sockets.create a config.sctp w.kernel with
  | (.error r, kernel) => (.error r.error, { w with kernel })
  | (.ok s, kernel) =>
    match sockets.listen a s kernel with
    | (.error text, kernel) =>
      (.error (.listenFailed a.text text), { w with kernel := sockets.drop s kernel })
    | (.ok (), kernel) =>
      match sockets.watch s kernel with
      | (.error text, kernel) => (.error (.io text), { w with kernel := sockets.drop s kernel })
      | (.ok (), kernel) =>
        (.ok ⟨s, w.isOpen.length, config⟩, { kernel, isOpen := w.isOpen ++ [true] })

def accept (l : Listener S) (w : World K) : Outcome (Connection S) × World K :=
  if w.isOpen[l.index]? = some true then
    match sockets.accept l.socket w.kernel with
    | (none, kernel) => (.waiting, { w with kernel })
    | (some (.error text), kernel) => (.error (.io text), { w with kernel })
    | (some (.ok s), kernel) =>
      let (r, kernel) := Connection.ofSocket sockets l.config.readBufferSize.toNat s kernel
      (.ofExcept r, { w with kernel })
  else (.error .closed, w)

/-- All addresses that a listener is bound to, as long as it is open. Where the kernel does not list
them there is the one address of the socket. -/
def addresses (l : Listener S) (w : World K) : List SocketAddress :=
  if w.isOpen[l.index]? = some true then
    match (sockets.boundAddresses l.socket w.kernel).map PackedAddresses.decode with
    | .ok (a :: as) => a :: as
    | .ok [] | .error _ => (sockets.localAddress l.socket w.kernel).toOption.join.toList
  else []

def shutDown (l : Listener S) (w : World K) : World K :=
  if w.isOpen[l.index]? = some true then
    { kernel := sockets.drop l.socket w.kernel, isOpen := w.isOpen.set l.index false }
  else w

/-- Answer a request about an association, of which nothing can be set. -/
def answer (c : Connection S) (r : ControlRequest) (k : K) : Except StreamError String :=
  if r.depth.targetsHere && r.get then
    match r.option with
    | .streams => (sockets.streamCounts c.socket k).map (·.text) |>.mapError .io
    | .localAddr => (internetAddress (sockets.localAddress c.socket k)).map (·.entry)
    | .remoteAddr => (internetAddress (sockets.remoteAddress c.socket k)).map (·.entry)
    | .maxWritePacket => .ok (String.ofList (Text.decimal c.maxWrite))
    | _ => .error r.option.unsupported
  else .error r.option.unsupported

/-- What comes of a call on a socket. -/
def onSocket {α β : Type} (op : S → K → Option (Except String α) × K) (f : α → Outcome β)
    (c : Connection S) (w : World K) : Outcome β × Connection S × World K :=
  let (r, kernel) := op c.socket w.kernel
  let r := match r with
    | none => .waiting
    | some (.error text) => .error (.io text)
    | some (.ok a) => f a
  (r, c, { w with kernel })

/-- The end of an association is an error for who reads from it. -/
def received (n : Nat) (bytes : List UInt8) : Outcome (List UInt8) :=
  if bytes = [] ∧ n ≠ 0 then .error .remoteClosed else .ok bytes

def wire : Wire (Connection S) (World K) where
  name c := c.name
  read n := onSocket (sockets.read n) (received n)
  write data c := onSocket (sockets.write (data.take c.maxWrite)) .ok c
  writeUrgent _ c w := (.error (.notSupported "urgent data"), c, w)
  readUrgent _ c w := (.error (.notSupported "urgent data"), c, w)
  control r c w := (.ofExcept (answer sockets c r w.kernel), c, w)
  close c w := (.ok (), c, { w with kernel := sockets.shutdown c.socket w.kernel })
  discard c w := { w with kernel := sockets.drop c.socket w.kernel }
  backlog c w := sockets.backlog c.socket w.kernel

end

end Association

end Wirebench

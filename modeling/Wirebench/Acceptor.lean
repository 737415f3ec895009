import Wirebench.Address.Basic
import Wirebench.Control
import Wirebench.Config.Basic
import Wirebench.Descriptor.Basic
import Wirebench.Text.Quoted

namespace Wirebench

/-- A listener under a handle, with Telnet layers around it. Each layer remembers the descriptor it
was opened for. -/
inductive Acceptor (A : Type)
  | transport (descriptor : Descriptor) (listener : A) (isOpen : Bool)
  | telnet (descriptor : Descriptor) (config : EndpointConfig) (inner : Acceptor A) (isOpen : Bool)
  deriving DecidableEq, Repr

namespace Acceptor

variable {A : Type}

/-- The acceptor of a descriptor over the listener of its transport. -/
def build (config : EndpointConfig) (transport : Transport) (listener : A) :
    List Filter → Acceptor A
  | [] => .transport ⟨[], transport⟩ listener true
  | .telnet :: fs =>
    .telnet ⟨.telnet :: fs, transport⟩ config (build config transport listener fs) true

def new (d : Descriptor) (config : EndpointConfig) (listener : A) : Acceptor A :=
  build config d.transport listener d.filters

def descriptor : Acceptor A → Descriptor
  | transport d _ _ | telnet d _ _ _ => d

def isOpen : Acceptor A → Bool
  | transport _ _ o | telnet _ _ _ o => o

def listener : Acceptor A → A
  | transport _ l _ => l
  | telnet _ _ inner _ => inner.listener

def layers : Acceptor A → Nat
  | transport .. => 0
  | telnet _ _ inner _ => inner.layers + 1

/-- What accepting takes: the listener, and the settings of the layers to put on its connection,
innermost first. -/
def route : Acceptor A → Except StreamError (A × List EndpointConfig)
  | transport _ l o => if o then .ok (l, []) else .error .closed
  | telnet _ c inner o =>
    if o then inner.route.map fun r => (r.1, r.2 ++ [c]) else .error .closed

/-- A target must name the same stack. -/
def checkStack (d target : Descriptor) : Except StreamError Unit :=
  if d.stackMatches target then .ok ()
  else .error (.invalidDescriptor target.wire (.stackMismatch d.wire))

/-- What connecting from an acceptor takes: besides the listener and the layers, the target of its
transport. -/
def dial : Acceptor A → Descriptor → Except StreamError (A × Descriptor × List EndpointConfig)
  | transport d l o, target =>
    if o then do
      checkStack d target
      return (l, target, [])
    else .error .closed
  | telnet d c inner o, target =>
    if o then do
      checkStack d target
      match target.inner? with
      | some lower =>
        let (l, lower, configs) ← inner.dial lower
        return (l, lower, configs ++ [c])
      | none => .error (.invalidDescriptor target.wire .notFiltered)
    else .error .closed

/-- An acceptor after it has been closed, whatever comes of shutting its listener down. -/
def closed : Acceptor A → Acceptor A
  | transport d l _ => .transport d l false
  | telnet d c inner _ => .telnet d c inner.closed false

/-- An acceptor without an address has no port. -/
def firstPort (addresses : List SocketAddress) : Except StreamError UInt16 :=
  match addresses with
  | a :: _ => .ok a.port
  | [] => .error (.notSupported "acceptor has no address")

/-- The answer to a control request; an acceptor knows its addresses and its port, and the depth of
the request does not matter. -/
def answer (addresses : List SocketAddress) (r : ControlRequest) : Except StreamError String :=
  if r.get then
    match r.option with
    | .localAddr => .ok (SocketAddress.listText addresses)
    | .localPort => (firstPort addresses).map fun p => String.ofList (Text.decimal p.toNat)
    | _ => .error r.option.unsupported
  else .error r.option.unsupported

def control (a : Acceptor A) (addresses : List SocketAddress) (r : ControlRequest) :
    Except StreamError String :=
  if a.isOpen then answer addresses r else .error .closed

def label (a : Acceptor A) : String := "acceptor " ++ a.descriptor.wire

/-- The descriptor and the state of an acceptor for a reader of logs. -/
def describe (a : Acceptor A) : String :=
  "Acceptor \x7b descriptor: " ++ String.ofList (Text.quoted a.descriptor.wire.toList) ++
    ", closed: " ++ (if a.isOpen then "false" else "true") ++ " \x7d"

end Acceptor

end Wirebench

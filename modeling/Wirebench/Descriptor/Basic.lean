import Wirebench.Error

namespace Wirebench

inductive Protocol
  | tcp
  | udp
  | sctp
  deriving DecidableEq, Repr

namespace Protocol

def token : Protocol → String
  | tcp => "tcp"
  | udp => "udp"
  | sctp => "sctp"

def ofToken? (s : String) : Option Protocol :=
  if s = "tcp" then some tcp
  else if s = "udp" then some udp
  else if s = "sctp" then some sctp
  else none

/-- The protocol of a token, which is taken as it stands. -/
def parse (s : String) : Except StreamError Protocol :=
  match ofToken? s with
  | some p => .ok p
  | none => .error (.unsupportedProtocol s)

@[simp] theorem ofToken?_token (p : Protocol) : ofToken? p.token = some p := by
  cases p <;> decide

end Protocol

inductive Filter
  | telnet
  deriving DecidableEq, Repr

namespace Filter

def token : Filter → String
  | telnet => "telnet"

def ofToken? (s : String) : Option Filter :=
  if s = "telnet" then some telnet else none

@[simp] theorem ofToken?_token (f : Filter) : ofToken? f.token = some f := by
  cases f; decide

end Filter

/-- A protocol with the address it runs on; no host means every local address. -/
structure Transport where
  protocol : Protocol
  host : Option String
  port : Option UInt16
  deriving DecidableEq, Repr

/-- A stack of filters, outermost first, over a transport. -/
structure Descriptor where
  filters : List Filter
  transport : Transport
  deriving DecidableEq, Repr

namespace Descriptor

def plain (protocol : Protocol) (host : Option String) (port : Option UInt16) : Descriptor :=
  ⟨[], ⟨protocol, host, port⟩⟩

def withFilter (d : Descriptor) (f : Filter) : Descriptor := { d with filters := f :: d.filters }

def withPort (d : Descriptor) (port : UInt16) : Descriptor :=
  { d with transport := { d.transport with port := some port } }

def protocol (d : Descriptor) : Protocol := d.transport.protocol

def isPortPending (d : Descriptor) : Bool := d.transport.port.isNone

def fillPort (d : Descriptor) (port : UInt16) : Descriptor :=
  if d.isPortPending then d.withPort port else d

def inner? (d : Descriptor) : Option Descriptor :=
  match d.filters with
  | [] => none
  | _ :: fs => some { d with filters := fs }

def bottom (d : Descriptor) : Descriptor := { d with filters := [] }

/-- Two descriptors name the same stack, whatever their addresses. -/
def stackMatches (d e : Descriptor) : Bool := d.filters = e.filters && d.protocol = e.protocol

def wireChars (d : Descriptor) : List Char :=
  d.filters.flatMap (fun f => f.token.toList ++ [',']) ++
    (d.protocol.token.toList ++ [',']) ++
    (match d.transport.host with
      | some h => h.toList ++ [',']
      | none => []) ++
    (match d.transport.port with
      | some p => Text.decimal p.toNat
      | none => [])

def wire (d : Descriptor) : String := String.ofList d.wireChars

def port (d : Descriptor) : Except StreamError UInt16 :=
  match d.transport.port with
  | some p => .ok p
  | none => .error (.invalidDescriptor d.wire .portNotSet)

@[simp] theorem stackMatches_self (d : Descriptor) : d.stackMatches d = true := by
  simp [stackMatches]

@[simp] theorem protocol_withFilter (d : Descriptor) (f : Filter) :
    (d.withFilter f).protocol = d.protocol := rfl

@[simp] theorem inner?_withFilter (d : Descriptor) (f : Filter) :
    (d.withFilter f).inner? = some d := rfl

@[simp] theorem isPortPending_withPort (d : Descriptor) (p : UInt16) :
    (d.withPort p).isPortPending = false := rfl

end Descriptor

end Wirebench

import Wirebench.Address.Ip
import Wirebench.Error

namespace Wirebench

/-- An address with its port; flow information and scope exist for IPv6 only. -/
inductive SocketAddress
  | v4 (ip : Ipv4) (port : UInt16)
  | v6 (ip : Ipv6) (port : UInt16) (flow scope : UInt32)
  deriving DecidableEq, Repr

namespace SocketAddress

def port : SocketAddress → UInt16
  | v4 _ p => p
  | v6 _ p _ _ => p

def isV4 : SocketAddress → Bool
  | v4 .. => true
  | v6 .. => false

def withPort : SocketAddress → UInt16 → SocketAddress
  | v4 ip _, p => v4 ip p
  | v6 ip _ f s, p => v6 ip p f s

/-- The address without flow information and scope, which the list form does not carry. -/
def unscoped : SocketAddress → SocketAddress
  | v4 ip p => v4 ip p
  | v6 ip p _ _ => v6 ip p 0 0

/-- The address stands for every local one. -/
def isWildcard (a : SocketAddress) : Bool := a = v4 .unspecified a.port

/-- A socket bound to the first address receives what is sent to the second. -/
def covers (a b : SocketAddress) : Bool := a = b || (a.port = b.port && a.isWildcard)

/-- Two sockets cannot be bound to both addresses. -/
def clashes (a b : SocketAddress) : Bool := a.covers b || b.covers a

def loopback (port : UInt16) : SocketAddress := v4 .localhost port

/-- The address as packets carry it: the local host stands in for every local address. -/
def concrete (a : SocketAddress) : SocketAddress := if a.isWildcard then loopback a.port else a

def entryChars : SocketAddress → List Char
  | v4 ip p => "ipv4,".toList ++ ip.textChars ++ ',' :: Text.decimal p.toNat
  | v6 ip p _ _ => "ipv6,".toList ++ ip.textChars ++ ',' :: Text.decimal p.toNat

def entry (a : SocketAddress) : String := String.ofList a.entryChars

def listText (as : List SocketAddress) : String :=
  String.ofList (Text.join [';'] (as.map entryChars))

/-- The usual form of an address, `address:port`, with brackets around IPv6. -/
def text : SocketAddress → String
  | v4 ip p => String.ofList (ip.textChars ++ ':' :: Text.decimal p.toNat)
  | v6 ip p _ scope =>
    let zone := if scope = 0 then [] else '%' :: Text.decimal scope.toNat
    String.ofList ('[' :: ip.textChars ++ zone ++ "]:".toList ++ Text.decimal p.toNat)

def parseEntry (cs : List Char) : Except StreamError SocketAddress :=
  let fault (f : DescriptorFault) : Except StreamError SocketAddress :=
    .error (.invalidDescriptor (String.ofList cs) f)
  match Text.splitFirst ',' cs with
  | none => fault .missingFamily
  | some (family, rest) =>
    match Text.splitLast ',' rest with
    | none => fault .missingAddressPort
    | some (ip, port) =>
      let v4 := Ipv4.parse? ip
      let v6 := Ipv6.parse? ip
      if v4.isNone ∧ v6.isNone then fault .invalidAddress
      else
        match Text.decimal? 65535 port with
        | none => fault .invalidAddressPort
        | some p =>
          match v4, v6 with
          | some ip, _ =>
            if family = "ipv4".toList then .ok (.v4 ip (UInt16.ofNat p)) else fault .familyMismatch
          | none, some ip =>
            if family = "ipv6".toList then .ok (.v6 ip (UInt16.ofNat p) 0 0)
            else fault .familyMismatch
          | none, none => fault .invalidAddress

/-- Read the list form; the first bad entry decides. -/
def parseList (s : String) : Except StreamError (List SocketAddress) :=
  (Text.split ';' s.toList).mapM parseEntry

end SocketAddress

/-- An expectation written without its port, with the port appended. -/
def withPort (start : String) (port : UInt16) : String :=
  start ++ String.ofList (Text.decimal port.toNat)

end Wirebench

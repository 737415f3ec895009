import Wirebench.Error

namespace Wirebench

/-- The layer a request is meant for, counted from the outside. -/
inductive ControlDepth
  | layer (n : Nat)
  | first
  deriving DecidableEq, Repr

namespace ControlDepth

/-- The depth as the next layer down sees it, unless the request stops here. -/
def descend : ControlDepth → Option ControlDepth
  | layer 0 => none
  | layer (n + 1) => some (layer n)
  | first => some first

/-- The layer that holds the request may answer it. -/
def targetsHere : ControlDepth → Bool
  | layer 0 | first => true
  | layer (_ + 1) => false

end ControlDepth

inductive ControlOption
  | streams
  | localAddr
  | remoteAddr
  | localPort
  | maxWritePacket
  | noDelay
  | sendBreak
  | breaksReceived
  deriving DecidableEq, Repr

namespace ControlOption

def name : ControlOption → String
  | streams => "streams"
  | localAddr => "laddr"
  | remoteAddr => "raddr"
  | localPort => "lport"
  | maxWritePacket => "max_write_packet"
  | noDelay => "nodelay"
  | sendBreak => "send_break"
  | breaksReceived => "breaks_received"

def unsupported (o : ControlOption) : StreamError := .notSupported ("control " ++ o.name)

/-- The value of a switch: `1`, `true` and `on`, or `0`, `false` and `off`. -/
def parseSwitch (o : ControlOption) (value : String) : Except StreamError Bool :=
  if value = "1" ∨ value = "true" ∨ value = "on" then .ok true
  else if value = "0" ∨ value = "false" ∨ value = "off" then .ok false
  else .error (.invalidControlValue o.name value)

end ControlOption

structure ControlRequest where
  depth : ControlDepth
  get : Bool
  option : ControlOption
  value : Option String
  deriving DecidableEq, Repr

namespace ControlRequest

/-- The same request as the next layer down sees it. -/
def descend (r : ControlRequest) : Option ControlRequest :=
  r.depth.descend.map fun depth => { r with depth }

def requireValue (r : ControlRequest) : Except StreamError String :=
  match r.value with
  | some v => .ok v
  | none => .error (.invalidControlValue r.option.name "")

/-- The request and its forms at up to `n` layers below; `none` after the layer that ends it. -/
def chain (r : ControlRequest) : Nat → List (Option ControlRequest)
  | 0 => some r :: if r.descend.isNone then [none] else []
  | n + 1 =>
    some r ::
      match r.descend with
      | some lower => lower.chain n
      | none => [none]

end ControlRequest

structure StreamCounts where
  instreams : UInt16
  ostreams : UInt16
  deriving DecidableEq, Repr

def StreamCounts.text (c : StreamCounts) : String :=
  "instreams=" ++ String.ofList (Text.decimal c.instreams.toNat) ++
    ",ostreams=" ++ String.ofList (Text.decimal c.ostreams.toNat)

end Wirebench

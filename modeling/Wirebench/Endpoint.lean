import Wirebench.Telnet.Layer
import Wirebench.Text.Quoted

namespace Wirebench

def StackState (T : Type) : Nat → Type
  | 0 => Handle T
  | n + 1 => Handle (Telnet.Layer × StackState T n)

variable {T W : Type}

def stackWire (io : Wire T W) : (n : Nat) → Wire (StackState T n) W
  | 0 => io.guarded
  | n + 1 => (Telnet.layerWire (stackWire io n)).guarded

/-- A transport under a handle, with Telnet layers on it, each under a handle of its own. -/
structure Endpoint (T : Type) where
  layers : Nat
  state : StackState T layers

namespace Endpoint

def ofTransport (t : T) : Endpoint T := ⟨0, (⟨true, t⟩ : Handle T)⟩

def addLayer (n : Nat) (s : Telnet.Layer × StackState T n) : Endpoint T :=
  ⟨n + 1, (⟨true, s⟩ : Handle (Telnet.Layer × StackState T n))⟩

def isOpen (e : Endpoint T) : Bool :=
  match e with
  | ⟨0, h⟩ => Handle.isOpen h
  | ⟨_ + 1, h⟩ => Handle.isOpen h

def lift {α : Type} (e : Endpoint T) (r : α × StackState T e.layers × W) : α × Endpoint T × W :=
  (r.1, ⟨e.layers, r.2.1⟩, r.2.2)

def wire (io : Wire T W) : Wire (Endpoint T) W where
  name e := (stackWire io e.layers).name e.state
  read n e w := e.lift ((stackWire io e.layers).read n e.state w)
  write data e w := e.lift ((stackWire io e.layers).write data e.state w)
  writeUrgent data e w := e.lift ((stackWire io e.layers).writeUrgent data e.state w)
  readUrgent n e w := e.lift ((stackWire io e.layers).readUrgent n e.state w)
  control request e w := e.lift ((stackWire io e.layers).control request e.state w)
  close e w := e.lift ((stackWire io e.layers).close e.state w)
  discard e w := (stackWire io e.layers).discard e.state w
  backlog e w := (stackWire io e.layers).backlog e.state w

def stateName (e : Endpoint T) : String := if e.isOpen then "connected" else "closed"

/-- The name and the state of an endpoint for a reader of logs. -/
def describe (io : Wire T W) (e : Endpoint T) : String :=
  "Endpoint \x7b name: " ++ String.ofList (Text.quoted ((wire io).name e).toList) ++
    ", state: " ++ (if e.isOpen then "Connected" else "Closed") ++ " \x7d"

end Endpoint

end Wirebench

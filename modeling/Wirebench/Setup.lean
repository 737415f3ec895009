import Wirebench.Endpoint

namespace Wirebench

/-- A setup on the way: layers on a transport, of which the outermost is negotiating. -/
structure Negotiation (T : Type) where
  layers : Nat
  state : Telnet.Layer × StackState T layers
  config : EndpointConfig
  deadline : Nat
  /-- The offers have been sent. -/
  offered : Bool
  /-- The layers still to come, innermost first. -/
  todo : List EndpointConfig

/-- Telnet layers are put on a connection one after the other, each in its own time limit. -/
inductive Setup (T : Type)
  | negotiating (n : Negotiation T)
  | ended (result : Except StreamError (Endpoint T))

namespace Setup

variable {T W : Type}

/-- The failed layer is dropped, and so is what is below it after it has been closed; whether that
goes well does not matter. -/
def abandon (io : Wire T W) (e : Endpoint T) (reason : String) (w : W) : Setup T × W :=
  let (_, e, w) := (Endpoint.wire io).close e w
  (.ended (.error (.negotiation reason)), (Endpoint.wire io).discard e w)

/-- Wait, unless the deadline has come: then the layer is given up. -/
def wait (io : Wire T W) (now : Nat) (n : Negotiation T) (w : W) : Setup T × W :=
  if n.deadline ≤ now then
    abandon io ⟨n.layers, n.state.2⟩
      ("no answer within " ++
        String.ofList (Text.decimal n.config.connectTimeout.toMilliseconds) ++ "ms") w
  else (.negotiating n, w)

def afterSettle (io : Wire T W) (now : Nat) (n : Negotiation T)
    (next : Endpoint T → W → Setup T × W) :
    Outcome Unit × (Telnet.Layer × StackState T n.layers) × W → Setup T × W
  | (.ok (), s, w) => next (Endpoint.addLayer n.layers s) w
  | (.error e, s, w) => abandon io ⟨n.layers, s.2⟩ e.message w
  | (.waiting, s, w) | (.stalled, s, w) => wait io now { n with state := s } w

/-- Put layers on an endpoint, innermost first, at a given time in nanoseconds. Offers whose write has
to wait count as given up: such a setup only waits for its deadline. -/
def start (io : Wire T W) (now : Nat) : List EndpointConfig → Endpoint T → W → Setup T × W
  | [], e, w => (.ended (.ok e), w)
  | config :: todo, e, w =>
    let deadline := now + config.connectTimeout.toNanoseconds
    match Telnet.begin (stackWire io e.layers) config e.state w with
    | (.ok (), s, w) =>
      afterSettle io now ⟨e.layers, s, config, deadline, true, todo⟩ (start io now todo)
        (Telnet.settle (stackWire io e.layers) s w)
    | (.error err, s, w) => abandon io ⟨e.layers, s.2⟩ err.message w
    | (.waiting, s, w) | (.stalled, s, w) =>
      wait io now ⟨e.layers, s, config, deadline, false, todo⟩ w

/-- Go on with a setup as far as it gets at a given time. An answer whose write had to wait is not
sent any more. -/
def poll (io : Wire T W) (now : Nat) : Setup T → W → Setup T × W
  | .ended r, w => (.ended r, w)
  | .negotiating n, w =>
    if n.offered then
      afterSettle io now n (start io now n.todo)
        (Telnet.settle (stackWire io n.layers) n.state w)
    else wait io now n w

/-- Let go of a setup without closing anything. -/
def discard (io : Wire T W) : Setup T → W → W
  | .ended (.ok e), w => (Endpoint.wire io).discard e w
  | .ended (.error _), w => w
  | .negotiating n, w => (Endpoint.wire io).discard ⟨n.layers, n.state.2⟩ w

def deadline? : Setup T → Option Nat
  | .ended _ => none
  | .negotiating n => some n.deadline

end Setup

end Wirebench

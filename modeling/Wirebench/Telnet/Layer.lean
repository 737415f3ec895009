import Wirebench.Telnet.Negotiator
import Wirebench.Telnet.Parser
import Wirebench.Wire

namespace Wirebench.Telnet

/-- What a layer knows: where its parser stands, its options, the data decoded but not yet read,
the breaks received, and how much it reads at a time. -/
structure Layer where
  parser : Parser
  negotiator : Negotiator
  decoded : List UInt8
  breaks : Nat
  bufferSize : Nat
  deriving DecidableEq, Repr

namespace Layer

/-- A layer that has offered its options. -/
def new (config : EndpointConfig) : Layer where
  parser := .data
  negotiator := .offering (Negotiator.supported config.telnet)
  decoded := []
  breaks := 0
  bufferSize := config.readBufferSize.toNat

def isSettled (l : Layer) : Bool := l.negotiator.isSettled

/-- Take in bytes: data is kept, the commands come back in order. -/
def absorb (l : Layer) (bytes : List UInt8) : Layer × List Command :=
  let (parser, events) := l.parser.feed bytes
  ({ l with parser, decoded := l.decoded ++ dataOf events }, commandsOf events)

/-- Carry out a command; what comes back is the answer to send. -/
def apply (l : Layer) : Command → Layer × Option (List UInt8)
  | .negotiate verb option =>
    let (negotiator, reply) := l.negotiator.handle verb option
    ({ l with negotiator }, reply)
  | .breakSignal => ({ l with breaks := l.breaks + 1 }, none)
  | .subnegotiation _ | .other _ => (l, none)

end Layer

variable {S W : Type}

/-- Carry out commands in order. The first answer that cannot be sent, or has to wait, ends it: what
is left of it and the commands after it are lost. -/
def applyAll (io : Wire S W) : List Command → Layer × S → W → Outcome Unit × (Layer × S) × W
  | [], s, w => (.ok (), s, w)
  | c :: cs, (l, s), w =>
    match l.apply c with
    | (l, none) => applyAll io cs (l, s) w
    | (l, some reply) =>
      match io.writeAll reply s w with
      | (.ok (), s, w) => applyAll io cs (l, s) w
      | (.error e, s, w) => (.error e, (l, s), w)
      | (.waiting, s, w) => (.waiting, (l, s), w)
      | (.stalled, s, w) => (.stalled, (l, s), w)

/-- Read once from the wire below and process what has come. -/
def fill (io : Wire S W) : Layer × S → W → Outcome Unit × (Layer × S) × W
  | (l, s), w =>
    match io.read l.bufferSize s w with
    | (.ok bytes, s, w) =>
      let (l, commands) := l.absorb bytes
      applyAll io commands (l, s) w
    | (.error e, s, w) => (.error e, (l, s), w)
    | (.waiting, s, w) => (.waiting, (l, s), w)
    | (.stalled, s, w) => (.stalled, (l, s), w)

def fillUntil (io : Wire S W) (done : Layer → Bool) :
    Nat → Layer × S → W → Outcome Unit × (Layer × S) × W
  | fuel, s, w =>
    if done s.1 then (.ok (), s, w)
    else
      match fuel with
      | 0 => (.stalled, s, w)
      | fuel + 1 =>
        match fill io s w with
        | (.ok (), s, w) => fillUntil io done fuel s w
        | r => r

/-- The wire of a layer over another wire. Urgent data does not pass through it. -/
def layerWire (io : Wire S W) : Wire (Layer × S) W where
  name s := "telnet(" ++ io.name s.2 ++ ")"
  read n s w :=
    match fillUntil io (fun l => !l.decoded.isEmpty) (io.backlog s.2 w + 1) s w with
    | (.ok (), (l, s), w) =>
      (.ok (l.decoded.take n), ({ l with decoded := l.decoded.drop n }, s), w)
    | (.error e, s, w) => (.error e, s, w)
    | (.waiting, s, w) => (.waiting, s, w)
    | (.stalled, s, w) => (.stalled, s, w)
  write data s w :=
    let (r, t, w) := io.writeAll (escape data) s.2 w
    (r.map fun _ => data.length, (s.1, t), w)
  writeUrgent _ s w := (.error (.notSupported "urgent data"), s, w)
  readUrgent _ s w := (.error (.notSupported "urgent data"), s, w)
  control request s w :=
    if request.option = .sendBreak ∧ request.depth.targetsHere then
      let (r, t, w) := io.writeAll breakBytes s.2 w
      (r.map fun _ => "", (s.1, t), w)
    else if request.option = .breaksReceived ∧ request.depth.targetsHere ∧ request.get then
      (.ok (String.ofList (Text.decimal s.1.breaks)), s, w)
    else
      match request.descend with
      | none => (.error request.option.unsupported, s, w)
      | some lower =>
        let (r, t, w) := io.control lower s.2 w
        (r, (s.1, t), w)
  close s w :=
    let (r, t, w) := io.close s.2 w
    (r, (s.1, t), w)
  discard s w := io.discard s.2 w
  backlog s w := s.1.decoded.length + io.backlog s.2 w

def begin (io : Wire S W) (config : EndpointConfig) (s : S) (w : W) :
    Outcome Unit × (Layer × S) × W :=
  let (r, s, w) := io.writeAll (Negotiator.offers (Negotiator.supported config.telnet)) s w
  (r, (Layer.new config, s), w)

def settle (io : Wire S W) (s : Layer × S) (w : W) : Outcome Unit × (Layer × S) × W :=
  fillUntil io Layer.isSettled (io.backlog s.2 w + 1) s w

end Wirebench.Telnet

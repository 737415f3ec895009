import Wirebench.Network
import Wirebench.Scripted.Device

namespace Wirebench.Scripted

structure Replay where
  device : Device
  reads : List ReadEvent
  /-- The events of urgent reads; without them urgent data is not supported. -/
  urgent : Option (List ReadEvent)
  /-- Whether reads wait after the last event, or find the remote end closed. -/
  hold : Bool

/-- Where replays take place: the record, the connections that a listener hands out, and what is
known of the listener. -/
structure Stage where
  record : Record := []
  addresses : List SocketAddress := []
  incoming : List (Except StreamError Replay) := []
  outgoing : List (Except StreamError Replay) := []
  shutdownError : Option StreamError := none

namespace Stage

def note (s : Stage) (label : String) (e : Entry) : Stage :=
  { s with record := s.record ++ [(label, e)] }

end Stage

namespace Replay

def read (n : Nat) (r : Replay) (s : Stage) : Outcome (List UInt8) × Replay × Stage :=
  match r.reads with
  | e :: es =>
    let (answer, es) := e.take n es
    (.ofExcept answer, { r with reads := es }, s)
  | [] => (if r.hold then .waiting else .error .remoteClosed, r, s)

def write (data : List UInt8) (r : Replay) (s : Stage) : Outcome Nat × Replay × Stage :=
  match r.device.take data with
  | .ok bytes =>
    (.ok bytes.length,
      { r with device := { r.device with written := r.device.written + bytes.length } },
      s.note r.device.label (.wrote bytes))
  | .error e => (.error e, r, s)

def writeUrgent (data : List UInt8) (r : Replay) (s : Stage) : Outcome Unit × Replay × Stage :=
  if r.urgent.isSome then (.ok (), r, s.note r.device.label (.wroteUrgent data))
  else (.error (.notSupported "urgent data"), r, s)

def readUrgent (n : Nat) (r : Replay) (s : Stage) : Outcome (List UInt8) × Replay × Stage :=
  match r.urgent with
  | none => (.error (.notSupported "urgent data"), r, s)
  | some [] => (.waiting, r, s)
  | some (e :: es) =>
    let (answer, es) := e.take n es
    (.ofExcept answer, { r with urgent := some es }, s)

def wire : Wire Replay Stage where
  name r := r.device.name
  read := read
  write := write
  writeUrgent := writeUrgent
  readUrgent := readUrgent
  control request r s :=
    (.ofExcept (r.device.answer request), r, s.note r.device.label (.asked request))
  close r s := (.ofExcept r.device.closing, r, s.note r.device.label .closed)
  discard _ s := s
  backlog r _ := weight r.reads + weight (r.urgent.getD [])

def next : List (Except StreamError Replay) →
    Except StreamError Replay × List (Except StreamError Replay)
  | [] => (.error .closed, [])
  | r :: rest => (r, rest)

/-- The network of one listener, which is known by the descriptor of its transport. -/
def network : Network Descriptor Replay Stage where
  wire := wire
  listen d _ s := (.ok d, s)
  connect d _ s :=
    let (r, rest) := next s.outgoing
    (r, { s.note "" (.connectedFrom d.wire) with outgoing := rest })
  accept d s :=
    let (r, rest) := next s.incoming
    (.ofExcept r, { s.note "" (.accepted d.wire) with incoming := rest })
  connectFrom _ target s :=
    let (r, rest) := next s.outgoing
    (r, { s.note "" (.connectedFrom target.wire) with outgoing := rest })
  addresses _ s := s.addresses
  shutdown _ s :=
    (match s.shutdownError with
      | some e => .error e
      | none => .ok (), s.note "" .shutDown)
  discard _ s := s

end Replay

end Wirebench.Scripted

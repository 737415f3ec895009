import Wirebench.Scripted.Device
import Wirebench.Scripted.Pipe

namespace Wirebench.Scripted

/-- The two devices with the events still to come and the record of both. -/
structure Duet where
  one : Device
  two : Device
  events : List (Side × ReadEvent)
  record : Record := []

namespace Duet

def get (w : Duet) : Side → Device
  | .one => w.one
  | .two => w.two

def set (w : Duet) (side : Side) (d : Device) : Duet :=
  match side with
  | .one => { w with one := d }
  | .two => { w with two := d }

def note (side : Side) (e : Entry) (w : Duet) : Duet :=
  { w with record := (w.get side).note e w.record }

def handle (w : Duet) (side : Side) : PipeHandle := ⟨side, (w.get side).name⟩

def read (n : Nat) (h : PipeHandle) (w : Duet) : Outcome (List UInt8) × PipeHandle × Duet :=
  match w.events with
  | [] => (if h.side = .one then .error .remoteClosed else .waiting, h, w)
  | (side, e) :: rest =>
    if side = h.side then
      match e.take n [] with
      | (r, left) => (.ofExcept r, h, { w with events := left.map (side, ·) ++ rest })
    else (.waiting, h, w)

def write (data : List UInt8) (h : PipeHandle) (w : Duet) : Outcome Nat × PipeHandle × Duet :=
  let d := w.get h.side
  match d.take data with
  | .error e => (.error e, h, w)
  | .ok bytes =>
    (.ok bytes.length, h,
      (w.note h.side (.wrote bytes)).set h.side { d with written := d.written + bytes.length })

def wire : Wire PipeHandle Duet where
  name h := h.name
  read := read
  write := write
  writeUrgent _ h w := (.error (.notSupported "urgent data"), h, w)
  readUrgent _ h w := (.error (.notSupported "urgent data"), h, w)
  control request h w :=
    (.ofExcept ((w.get h.side).answer request), h, w.note h.side (.asked request))
  close h w := (.ofExcept (w.get h.side).closing, h, w.note h.side .closed)
  discard _ w := w
  backlog _ w := weight (w.events.map (·.2))

def feed (w : Duet) (events : List (Side × ReadEvent)) : Duet :=
  { w with events := w.events ++ events }

def setUp (w : Duet) (layersOne layersTwo : Nat) :
    Opening Empty PipeHandle × Opening Empty PipeHandle × Duet :=
  let silent : EndpointConfig := { telnet := ⟨false, false⟩ }
  let (a, w) := Opening.afterSetup wire [] (Setup.start wire 0 (List.replicate layersOne silent)
    (.ofTransport (w.handle .one)) w)
  let (b, w) := Opening.afterSetup wire [] (Setup.start wire 0 (List.replicate layersTwo silent)
    (.ofTransport (w.handle .two)) w)
  (a, b, w)

end Duet

end Wirebench.Scripted

import Wirebench.Network
import Wirebench.Scripted.Device

namespace Wirebench.Scripted

inductive Side
  | one
  | two
  deriving DecidableEq, Repr

namespace Side

def other : Side → Side
  | one => two
  | two => one

@[simp] theorem other_other (a : Side) : a.other.other = a := by
  cases a <;> rfl

theorem other_ne (a : Side) : a.other ≠ a := by
  cases a <;> nofun

theorem eq_other_of_ne {a b : Side} (h : a ≠ b) : a = b.other := by
  cases a <;> cases b <;> first | rfl | exact (h rfl).elim

theorem forall_of_other {P : Side → Prop} (side : Side) (h : P side) (h' : P side.other) :
    ∀ s, P s := by
  intro s
  cases s <;> cases side <;> assumption

end Side

/-- What happens to a stream on its way: a byte is changed, or only a number of bytes arrive. -/
structure PipeFault where
  corrupt : Option (Nat × UInt8) := none
  keep : Option Nat := none
  deriving DecidableEq, Repr

namespace PipeFault

/-- The bytes of a stream with the given offset as they arrive. -/
def deliver (f : PipeFault) (offset : Nat) (bytes : List UInt8) : List UInt8 :=
  let changed :=
    match f.corrupt with
    | none => bytes
    | some (place, mask) =>
      if offset ≤ place then bytes.modify (place - offset) (· ^^^ mask) else bytes
  match f.keep with
  | none => changed
  | some n => changed.take (n - offset)

end PipeFault

structure PipeEnd where
  device : Device
  fault : PipeFault := {}
  /-- Whether the side carries urgent data. -/
  urgent : Bool := false
  /-- The messages that have arrived. -/
  inbox : List (List UInt8) := []
  urgentInbox : List (List UInt8) := []
  closed : Bool := false
  /-- The side has been let go of, so nothing can be sent to it. -/
  gone : Bool := false
  record : Record := []

namespace PipeEnd

def note (p : PipeEnd) (e : Entry) : PipeEnd :=
  { p with record := p.device.note e p.record }

def isDone (p : PipeEnd) : Bool := p.closed || p.gone

end PipeEnd

structure Pipe where
  one : PipeEnd
  two : PipeEnd

namespace Pipe

def get (w : Pipe) : Side → PipeEnd
  | .one => w.one
  | .two => w.two

def set (w : Pipe) (side : Side) (p : PipeEnd) : Pipe :=
  match side with
  | .one => { w with one := p }
  | .two => { w with two := p }

/-- Read from the first of the messages. After the last one the reader waits, unless the writer is
done. -/
def receive (n : Nat) (done : Bool) : List (List UInt8) → Outcome (List UInt8) × List (List UInt8)
  | message :: rest =>
    let (bytes, rest) := takeMessage n message rest
    (.ok bytes, rest)
  | [] => (if done then .error .remoteClosed else .waiting, [])

def read (n : Nat) (side : Side) (w : Pipe) : Outcome (List UInt8) × Pipe :=
  let p := w.get side
  let (r, inbox) := receive n (w.get side.other).isDone p.inbox
  (r, w.set side { p with inbox })

def write (data : List UInt8) (side : Side) (w : Pipe) : Outcome Nat × Pipe :=
  let p := w.get side
  match p.device.take data with
  | .error e => (.error e, w)
  | .ok bytes =>
    let sent := { p.note (.wrote bytes) with
      device := { p.device with written := p.device.written + bytes.length } }
    let w := w.set side sent
    let peer := w.get side.other
    if peer.gone then (.error .remoteClosed, w)
    else
      let message := p.fault.deliver p.device.written bytes
      (.ok bytes.length, w.set side.other { peer with inbox := peer.inbox ++ [message] })

def writeUrgent (data : List UInt8) (side : Side) (w : Pipe) : Outcome Unit × Pipe :=
  let p := w.get side
  if p.urgent then
    let w := w.set side (p.note (.wroteUrgent data))
    let peer := w.get side.other
    if peer.gone then (.error .remoteClosed, w)
    else (.ok (), w.set side.other { peer with urgentInbox := peer.urgentInbox ++ [data] })
  else (.error (.notSupported "urgent data"), w)

def readUrgent (n : Nat) (side : Side) (w : Pipe) : Outcome (List UInt8) × Pipe :=
  let p := w.get side
  if p.urgent then
    let (r, urgentInbox) := receive n (w.get side.other).isDone p.urgentInbox
    (r, w.set side { p with urgentInbox })
  else (.error (.notSupported "urgent data"), w)

def messageWeight (messages : List (List UInt8)) : Nat :=
  messages.foldr (fun m reads => max m.length 1 + reads) 0

end Pipe

structure PipeHandle where
  side : Side
  name : String
  deriving DecidableEq, Repr

namespace Pipe

def handle (w : Pipe) (side : Side) : PipeHandle := ⟨side, (w.get side).device.name⟩

def onSide {α : Type} (op : Side → Pipe → α × Pipe) (h : PipeHandle) (w : Pipe) :
    α × PipeHandle × Pipe :=
  let (r, w) := op h.side w
  (r, h, w)

def wire : Wire PipeHandle Pipe where
  name h := h.name
  read n := onSide (read n)
  write data := onSide (write data)
  writeUrgent data := onSide (writeUrgent data)
  readUrgent n := onSide (readUrgent n)
  control request := onSide fun side w =>
    let p := w.get side
    (.ofExcept (p.device.answer request), w.set side (p.note (.asked request)))
  close := onSide fun side w =>
    let p := w.get side
    (.ofExcept p.device.closing, w.set side { p.note .closed with closed := true })
  discard h w := w.set h.side { w.get h.side with gone := true }
  backlog h w := messageWeight (w.get h.side).inbox + messageWeight (w.get h.side).urgentInbox

/-- A pipe has no listeners, and its connections are there from the start. -/
def network : Network Empty PipeHandle Pipe where
  wire := wire
  listen _ _ w := (.error (.notSupported "listening"), w)
  connect _ _ w := (.error (.notSupported "connecting"), w)
  accept l := nomatch l
  connectFrom l := nomatch l
  addresses l := nomatch l
  shutdown l := nomatch l
  discard l := nomatch l

/-- Put as many Telnet layers on both sides at the same time. -/
def setUp (layers : Nat) (configOne configTwo : EndpointConfig) (w : Pipe) :
    Opening Empty PipeHandle × Opening Empty PipeHandle × Pipe :=
  let configsOne := List.replicate layers configOne
  let configsTwo := List.replicate layers configTwo
  let latest := layers * (configOne.connectTimeout.toNanoseconds +
    configTwo.connectTimeout.toNanoseconds)
  let (a, w) := Opening.afterSetup wire [] (Setup.start wire 0 configsOne
    (.ofTransport (w.handle .one)) w)
  let (b, w) := Opening.afterSetup wire [] (Setup.start wire 0 configsTwo
    (.ofTransport (w.handle .two)) w)
  let (a, b, w, _) := Opening.awaitBoth network false latest 0 a b w
  (a, b, w)

end Pipe

end Wirebench.Scripted

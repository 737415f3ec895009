import Wirebench.Wire

namespace Wirebench.Scripted

inductive Entry
  | wrote (bytes : List UInt8)
  | wroteUrgent (bytes : List UInt8)
  | asked (request : ControlRequest)
  | closed
  | accepted (descriptor : String)
  | connectedFrom (target : String)
  | shutDown
  deriving DecidableEq, Repr

/-- A record of what was done, with the label of the device it was done to. -/
abbrev Record := List (String × Entry)

structure Device where
  name : String := "scripted"
  /-- The label of the device in the record. -/
  label : String := ""
  /-- The most bytes that one write takes. -/
  maxWrite : Option Nat := none
  /-- The number of bytes after which every write fails. -/
  writeFail : Option (Nat × StreamError) := none
  controls : List (ControlOption × Except StreamError String) := []
  closeError : Option StreamError := none
  /-- The number of bytes taken so far. -/
  written : Nat := 0

namespace Device

def note (d : Device) (e : Entry) (r : Record) : Record := r ++ [(d.label, e)]

def take (d : Device) (data : List UInt8) : Except StreamError (List UInt8) :=
  let most := d.maxWrite.getD data.length
  match d.writeFail with
  | none => .ok (data.take most)
  | some (limit, e) =>
    if limit ≤ d.written then .error e else .ok (data.take (min most (limit - d.written)))

/-- The answer to a request; an option without one is not supported. -/
def answer (d : Device) (r : ControlRequest) : Except StreamError String :=
  match d.controls.find? fun c => c.1 = r.option with
  | some (_, a) => a
  | none => .error r.option.unsupported

def closing (d : Device) : Except StreamError Unit :=
  match d.closeError with
  | some e => .error e
  | none => .ok ()

end Device

inductive ReadEvent
  | data (bytes : List UInt8)
  | fail (e : StreamError)
  deriving DecidableEq, Repr

/-- The reads that an event can satisfy, at most. -/
def ReadEvent.weight : ReadEvent → Nat
  | data bytes => max bytes.length 1
  | fail _ => 1

/-- The reads that a list of events can satisfy, at most. -/
def weight (events : List ReadEvent) : Nat := events.foldr (·.weight + ·) 0

/-- Read from the first of some messages; what does not fit stays in front of the others. -/
def takeMessage (n : Nat) (bytes : List UInt8) (rest : List (List UInt8)) :
    List UInt8 × List (List UInt8) :=
  (bytes.take n, if bytes.length ≤ n then rest else bytes.drop n :: rest)

/-- Read from the first of some events; the rest of its data stays in front of the others. -/
def ReadEvent.take (n : Nat) : ReadEvent → List ReadEvent →
    Except StreamError (List UInt8) × List ReadEvent
  | data bytes, rest =>
    (.ok (bytes.take n), if bytes.length ≤ n then rest else .data (bytes.drop n) :: rest)
  | fail e, rest => (.error e, rest)

end Wirebench.Scripted

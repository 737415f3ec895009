import Wirebench.Control

namespace Wirebench

/-- How far an operation has come. -/
inductive Outcome (α : Type)
  /-- It has ended with a value. -/
  | ok (value : α)
  /-- It has ended with an error. -/
  | error (e : StreamError)
  /-- It could go on only after something else has happened, and counts as given up: what it has done
  stays done, and what it still had to write is lost. -/
  | waiting
  /-- It repeats itself without getting on and never ends. -/
  | stalled
  deriving DecidableEq, Repr

namespace Outcome

variable {α β : Type}

def ofExcept : Except StreamError α → Outcome α
  | .ok a => .ok a
  | .error e => .error e

def map (f : α → β) : Outcome α → Outcome β
  | ok a => ok (f a)
  | error e => error e
  | waiting => waiting
  | stalled => stalled

/-- The result of an operation that is given up when it does not end by itself. -/
def orElse (r : Outcome α) (late : Except StreamError α) : Except StreamError α :=
  match r with
  | ok a => .ok a
  | error e => .error e
  | waiting | stalled => late

end Outcome

/-- Operations on a state `S` in a world `W`. -/
structure Wire (S W : Type) where
  name : S → String
  /-- Read at most so many bytes. -/
  read : Nat → S → W → Outcome (List UInt8) × S × W
  /-- Write some of the bytes; the answer is how many were taken. -/
  write : List UInt8 → S → W → Outcome Nat × S × W
  writeUrgent : List UInt8 → S → W → Outcome Unit × S × W
  readUrgent : Nat → S → W → Outcome (List UInt8) × S × W
  control : ControlRequest → S → W → Outcome String × S × W
  close : S → W → Outcome Unit × S × W
  /-- Let go of the wire without closing it. -/
  discard : S → W → W
  /-- A bound on the reads that can succeed before one has to wait. -/
  backlog : S → W → Nat

namespace Wire

variable {S W : Type}

/-- Write all of the data. A write that takes nothing is repeated forever. -/
def writeAll (io : Wire S W) (data : List UInt8) (s : S) (w : W) : Outcome Unit × S × W :=
  match data with
  | [] => (.ok (), s, w)
  | b :: bs =>
    match io.write (b :: bs) s w with
    | (.ok 0, s, w) => (.stalled, s, w)
    | (.ok (n + 1), s, w) => io.writeAll (bs.drop n) s w
    | (.error e, s, w) => (.error e, s, w)
    | (.waiting, s, w) => (.waiting, s, w)
    | (.stalled, s, w) => (.stalled, s, w)
termination_by data.length
decreasing_by simp only [List.length_cons, List.length_drop]; omega

/-- Read until `want` bytes have come in addition to those already there. What has come so far is
kept when the reading has to wait. -/
def readMore (io : Wire S W) (fuel want : Nat) (got : List UInt8) (s : S) (w : W) :
    Outcome (List UInt8) × List UInt8 × S × W :=
  if want = 0 then (.ok got, got, s, w)
  else
    match fuel with
    | 0 => (.stalled, got, s, w)
    | fuel + 1 =>
      match io.read want s w with
      | (.ok bytes, s, w) => io.readMore fuel (want - bytes.length) (got ++ bytes) s w
      | (.error e, s, w) => (.error e, got, s, w)
      | (.waiting, s, w) => (.waiting, got, s, w)
      | (.stalled, s, w) => (.stalled, got, s, w)

/-- Read exactly `n` bytes, of which some may have come before. -/
def readExact (io : Wire S W) (n : Nat) (got : List UInt8) (s : S) (w : W) :
    Outcome (List UInt8) × List UInt8 × S × W :=
  io.readMore (io.backlog s w + 1) (n - got.length) got s w

end Wire

/-- A wire under a handle, which can be closed once. -/
structure Handle (S : Type) where
  isOpen : Bool
  inner : S
  deriving DecidableEq, Repr

namespace Wire

variable {S W α : Type}

/-- An operation on an open handle; a closed one refuses it. -/
def whenOpen (op : S → W → Outcome α × S × W) (h : Handle S) (w : W) : Outcome α × Handle S × W :=
  if h.isOpen then
    let (r, s, w) := op h.inner w
    (r, { h with inner := s }, w)
  else (.error .closed, h, w)

/-- A wire that can be closed: after that it refuses every operation, and closing it again does
nothing. It counts as closed even when closing what is under it fails. -/
def guarded (io : Wire S W) : Wire (Handle S) W where
  name h := io.name h.inner
  read n := whenOpen (io.read n)
  write data := whenOpen (io.write data)
  writeUrgent data := whenOpen (io.writeUrgent data)
  readUrgent n := whenOpen (io.readUrgent n)
  control request := whenOpen (io.control request)
  close h w :=
    if h.isOpen then
      let (r, s, w) := io.close h.inner w
      (r, ⟨false, s⟩, w)
    else (.ok (), h, w)
  discard h w := io.discard h.inner w
  backlog h w := io.backlog h.inner w

end Wire

end Wirebench

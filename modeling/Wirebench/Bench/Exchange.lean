import Wirebench.Bench.Check
import Wirebench.Config.Basic
import Wirebench.Wire

namespace Wirebench.Bench

/-- The two ends of a connection, the one that sends first, with the world they are in and what has
been reported. -/
structure Link (S W : Type) where
  source : S
  sink : S
  world : W
  log : Log

namespace Link

variable {S W : Type}

def swap (l : Link S W) : Link S W := { l with source := l.sink, sink := l.source }

def report (e : Event) (l : Link S W) : Link S W := { l with log := l.log ++ [e] }

end Link

structure Params where
  /-- The largest write; without one it is left to the endpoint. -/
  chunkSize : Option Nat
  /-- The bound on every read. -/
  timeout : Duration
  /-- The size of a random payload for which no other is given. -/
  transferSize : Nat
  /-- Random payloads by their size. -/
  random : Nat → List UInt8

/-- The milliseconds that the report of a timeout names, kept in sixty-four bits. -/
def reportedMilliseconds (d : Duration) : Nat := d.toMilliseconds % UInt64.size

def readTimeout (p : Params) : BenchError :=
  .stageTimeout "read" (reportedMilliseconds p.timeout)

/-- Pieces of `n` bytes, or of one byte when `n` is zero, and a shorter one at the end. -/
def pieces (n : Nat) (data : List UInt8) : List (List UInt8) :=
  match data with
  | [] => []
  | b :: bs => (b :: bs.take (n - 1)) :: pieces n (bs.drop (n - 1))
termination_by data.length
decreasing_by simp only [List.length_cons, List.length_drop]; omega

variable {S W : Type}

/-- The largest write: the smaller of the chunk size and the limit of the sender, where given. -/
def writeLimit (chunkSize answer : Option Nat) : Option Nat :=
  match chunkSize, answer with
  | some c, some m => some (min c m)
  | some c, none => some c
  | none, m => m

/-- The sender's own limit; an answer that is no number counts as none. -/
def packetLimit (answer : Outcome String) : Option Nat :=
  match answer with
  | .ok s => Text.decimal? (UInt64.size - 1) s.toList
  | .error _ | .waiting | .stalled => none

/-- Write pieces one after the other, as far as this goes without a wait. What is left of them comes
back. -/
def writeOn (io : Wire S W) (todo : List (List UInt8)) (s : S) (w : W) :
    Outcome Unit × List (List UInt8) × S × W :=
  match todo with
  | [] => (.ok (), [], s, w)
  | [] :: ps => writeOn io ps s w
  | (b :: bs) :: ps =>
    match io.write (b :: bs) s w with
    | (.ok 0, s, w) => (.stalled, (b :: bs) :: ps, s, w)
    | (.ok (n + 1), s, w) => writeOn io (bs.drop n :: ps) s w
    | (.error e, s, w) => (.error e, (b :: bs) :: ps, s, w)
    | (.waiting, s, w) => (.waiting, (b :: bs) :: ps, s, w)
    | (.stalled, s, w) => (.stalled, (b :: bs) :: ps, s, w)
termination_by todo.flatten.length + todo.length
decreasing_by
  all_goals simp only [List.flatten_cons, List.length_append, List.length_cons, List.length_drop,
    List.length_nil]
  all_goals omega

def readSize (size missing : Nat) : Nat := min missing (min (max size 1) 65536)

/-- Read and compare what is still expected, after so many bytes of a payload of the given size, as
far as this goes without a wait. How many bytes have come by then, and what is expected after them,
comes back. -/
def readOn (io : Wire S W) (size : Nat) :
    (fuel received : Nat) → List UInt8 → S → W →
      Except BenchError Unit × (Nat × List UInt8) × S × W
  | fuel, received, expected, s, w =>
    if expected = [] then (.ok (), (received, []), s, w)
    else
      match fuel with
      | 0 => (.ok (), (received, expected), s, w)
      | fuel + 1 =>
        match io.read (readSize size expected.length) s w with
        | (.ok bytes, s, w) =>
          match expectBytes (expected.take bytes.length) bytes with
          | .ok () =>
            readOn io size fuel (received + bytes.length) (expected.drop bytes.length) s w
          | .error m => (.error (.dataMismatch (m.shift received)), (received, expected), s, w)
        | (.error e, s, w) => (.error (.stream e), (received, expected), s, w)
        | (.waiting, s, w) | (.stalled, s, w) => (.ok (), (received, expected), s, w)

/-- With what a transfer fails when its writer has come so far. -/
def writeFailure? (p : Params) : Outcome Unit → Option BenchError
  | .ok () | .waiting => none
  | .error e => some (.stream e)
  | .stalled => some (readTimeout p)

/-- Writer and reader go on in turns. It takes too long when the reader waits and the writer is done,
or waits without the reader having got on. -/
def takeTurns (io : Wire S W) (p : Params) (size : Nat) (todo : List (List UInt8)) (received : Nat)
    (expected : List UInt8) (source sink : S) (w : W) : Except BenchError Unit × S × S × W :=
  match writeOn io todo source w with
  | (r, todo, source, w) =>
    match writeFailure? p r with
    | some e => (.error e, source, sink, w)
    | none =>
      match readOn io size (io.backlog sink w + 1) received expected sink w with
      | (.error e, _, sink, w) => (.error e, source, sink, w)
      | (.ok (), (received', expected'), sink, w) =>
        if todo = [] ∧ expected' = [] then (.ok (), source, sink, w)
        else if todo ≠ [] ∧ expected'.length < expected.length then
          takeTurns io p size todo received' expected' source sink w
        else (.error (readTimeout p), source, sink, w)
termination_by expected.length
decreasing_by omega

/-- Send data and check that exactly this arrives. -/
def transfer (io : Wire S W) (p : Params) (data : List UInt8) (l : Link S W) :
    Except BenchError Unit × Link S W :=
  let (answer, source, w) := io.control ⟨.first, true, .maxWritePacket, none⟩ l.source l.world
  let chunk := writeLimit p.chunkSize (packetLimit answer)
  let (r, source, sink, w) :=
    takeTurns io p data.length (pieces (chunk.getD data.length) data) 0 data source l.sink w
  (r, ⟨source, sink, w, l.log ++ [.transferStarted data.length chunk]⟩)

def readUrgent (io : Wire S W) (p : Params) :
    (fuel missing : Nat) → List UInt8 → S → W → Except BenchError (List UInt8) × S × W
  | fuel, missing, got, s, w =>
    if missing = 0 then (.ok got, s, w)
    else
      match fuel with
      | 0 => (.error (readTimeout p), s, w)
      | fuel + 1 =>
        match io.readUrgent missing s w with
        | (.ok bytes, s, w) =>
          readUrgent io p fuel (missing - bytes.length) (got ++ bytes) s w
        | (.error e, s, w) => (.error (.stream e), s, w)
        | (.waiting, s, w) | (.stalled, s, w) => (.error (readTimeout p), s, w)

/-- Send urgent data and check that exactly this arrives, urgently. -/
def transferUrgent (io : Wire S W) (p : Params) (data : List UInt8) (l : Link S W) :
    Except BenchError Unit × Link S W :=
  match io.writeUrgent data l.source l.world with
  | (.ok (), source, w) =>
    match readUrgent io p (io.backlog l.sink w + 1) data.length [] l.sink w with
    | (.ok got, sink, w) =>
      ((expectBytes data got).mapError .dataMismatch, ⟨source, sink, w, l.log⟩)
    | (.error e, sink, w) => (.error e, ⟨source, sink, w, l.log⟩)
  | (.error e, source, w) => (.error (.stream e), ⟨source, l.sink, w, l.log⟩)
  | (.waiting, source, w) | (.stalled, source, w) =>
    (.error (readTimeout p), ⟨source, l.sink, w, l.log⟩)

/-- Carry a payload both ways, in a manner given by a function on links. -/
def bothWays (send : Link S W → Except BenchError Unit × Link S W) (l : Link S W) :
    Except BenchError Unit × Link S W :=
  match send (l.report .firstToSecond) with
  | (.error e, l) => (.error e, l)
  | (.ok (), l) =>
    match send (l.report .secondToFirst).swap with
    | (.error e, l) => (.error e, l.swap)
    | (.ok (), l) => (.ok (), l.swap.report .exchangeSucceeded)

def defaultPayload : List UInt8 := "This is a test string!".toUTF8.toList

def defaultUrgentPayload : List UInt8 := "A".toUTF8.toList

def smallChunk : Nat := 64

def smallSize : Nat := 512

/-- Every byte value in turn, so that layers which escape see their special bytes. -/
def smallPayload : List UInt8 := (List.range smallSize).map UInt8.ofNat

inductive Exchange
  | data (payload : List UInt8)
  | urgent (payload : List UInt8)
  | small
  | random (size : Option Nat)
  /-- Fails at once. -/
  | fail (e : BenchError)
  deriving DecidableEq, Repr

namespace Exchange

def name : Exchange → String
  | data _ => "data"
  | urgent _ => "urgent"
  | small => "small"
  | random _ => "random"
  | fail _ => "fail"

def run (io : Wire S W) (p : Params) (l : Link S W) : Exchange → Except BenchError Unit × Link S W
  | data payload => bothWays (transfer io p payload) (l.report (.dataExchange payload))
  | urgent payload => bothWays (transferUrgent io p payload) (l.report (.urgentExchange payload))
  | small =>
    let p := { p with chunkSize := some (p.chunkSize.getD smallChunk) }
    bothWays (transfer io p smallPayload) l
  | random size =>
    let size := size.getD p.transferSize
    bothWays (transfer io p (p.random size)) (l.report (.randomExchange size))
  | fail e => (.error e, l)

end Exchange

end Wirebench.Bench

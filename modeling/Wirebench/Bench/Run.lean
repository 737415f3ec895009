import Wirebench.Bench.Context
import Wirebench.Bench.Exchange
import Wirebench.Bench.Pair

namespace Wirebench.Bench

structure RunState (A T W : Type) where
  label : String
  phase : Phase
  handles : Handles A T
  log : Log
  world : W
  /-- The time in nanoseconds. -/
  now : Nat

structure RunOptions where
  exchange : Exchange
  /-- The largest write of the exchange, in place of that of the context. -/
  chunkSize : Option Nat := none
  /-- The bound on every wait, in place of that of the context. -/
  timeout : Option Duration := none
  /-- Close the pair in the end. -/
  doClose : Bool := true

namespace RunOptions

/-- A largest write of at least one byte. -/
def withChunkSize (o : RunOptions) (size : Nat) : RunOptions :=
  { o with chunkSize := some (max size 1) }

def wait (o : RunOptions) (c : Context) : Duration := o.timeout.getD c.config.waitTimeout

def params (o : RunOptions) (c : Context) (random : Nat → List UInt8) : Params :=
  { chunkSize := o.chunkSize.or (c.config.chunkSize.map UInt64.toNat)
    timeout := o.wait c
    transferSize := c.config.transferSize.toNat
    random }

end RunOptions

/-- A stage of a run. What a failed stage has done stays done. -/
abbrev Stage (A T W : Type) := ExceptT BenchError (StateM (RunState A T W))

namespace Stage

variable {A T W : Type}

def report (e : Event) : Stage A T W Unit :=
  modify fun s => { s with log := s.log ++ [e] }

def advance (next : Phase) : Stage A T W Unit :=
  modify fun s => { s with phase := next, log := s.log ++ [.phaseChanged s.label s.phase next] }

def onWorld {α : Type} (op : W → Except StreamError α × W) : Stage A T W α := do
  let s ← get
  let (r, w) := op s.world
  set { s with world := w }
  match r with
  | .ok a => return a
  | .error e => throw (.stream e)

def judge (r : Except BenchError Unit × Log) : Stage A T W Unit := do
  modify fun s => { s with log := s.log ++ r.2 }
  match r.1 with
  | .ok () => return ()
  | .error e => throw e

def openAcceptor (net : Network A T W) (c : Context) (d : Descriptor) :
    Stage A T W (Acceptor A) := do
  let a ← onWorld (c.openAcceptor net d)
  modify fun s => { s with handles := { s.handles with acceptor := some a } }
  advance .listening
  return a

def openConnector (net : Network A T W) (c : Context) (d : Descriptor) :
    Stage A T W (Acceptor A) := do
  let a ← onWorld (c.openAcceptor net d)
  modify fun s => { s with handles := { s.handles with connector := some a } }
  return a

def acceptorPort (net : Network A T W) (a : Acceptor A) : Stage A T W UInt16 :=
  onWorld fun w => (net.acceptorPort a w, w)

/-- Let one side connect while the other accepts, both within a bound. Of a side that does not get
so far nothing is left. -/
def connect (net : Network A T W) (wait : Duration) (a : Acceptor A)
    (connecting : Nat → W → Opening A T × W) : Stage A T W Unit := do
  let s ← get
  let (one, w) := connecting s.now s.world
  let (one, two, w, now) := Opening.awaitBoth net true (s.now + wait.toNanoseconds) s.now one
    (Network.acceptFrom a) w
  let handles := { s.handles with first := one.endpoint?, second := two.endpoint? }
  set { s with handles, now, world := two.discard net (one.discard net w) }
  match one, two with
  | .opened _, .opened _ => advance .connected
  | .failed _ e, _ | _, .failed _ e => throw (.stream e)
  | _, _ => throw (.stageTimeout "connect" (reportedMilliseconds wait))

/-- One of the ends, which are there once the connection is made. -/
def present (e : Option (Endpoint T)) : Stage A T W (Endpoint T) :=
  match e with
  | some e => return e
  | none => throw (.stream .closed)

/-- Read back on the second end what the first has sent after connecting. -/
def readBack (net : Network A T W) (wait : Duration) (greeting : List UInt8) :
    Stage A T W Unit := do
  let s ← get
  let (r, _, second, w) := (Endpoint.wire net.wire).readExact greeting.length []
    (← present s.handles.second) s.world
  set { s with handles := { s.handles with second := some second }, world := w }
  match r with
  | .ok bytes => judge ((expectBytes greeting bytes).mapError .dataMismatch, [])
  | .error e => throw (.stream e)
  | .waiting | .stalled => throw (.stageTimeout "read" (reportedMilliseconds wait))

/-- Compare the remote address of the first end with what is expected. -/
def expectRemote (net : Network A T W) (expected : String) : Stage A T W Unit := do
  let s ← get
  let io := Endpoint.wire net.wire
  let (r, first, w) := io.control ⟨.first, true, .remoteAddr, none⟩ (← present s.handles.first)
    s.world
  set { s with handles := { s.handles with first := some first }, world := w }
  judge (expectAnswer (io.name first) .remoteAddr expected (r.orElse (.error .closed)))

/-- Compare the local address of the acceptor with what is expected. -/
def expectLocal (net : Network A T W) (a : Acceptor A) (expected : String) :
    Stage A T W Unit := do
  let s ← get
  judge (expectAnswer a.label .localAddr expected
    (net.acceptorControl ⟨.first, true, .localAddr, none⟩ a s.world))

def exchange (net : Network A T W) (c : Context) (o : RunOptions) (random : Nat → List UInt8) :
    Stage A T W Unit := do
  advance .exchanging
  let s ← get
  report (.exchangeStarted s.label o.exchange.name)
  let link : Link (Endpoint T) W :=
    ⟨← present s.handles.first, ← present s.handles.second, s.world, []⟩
  let (r, link) := o.exchange.run (Endpoint.wire net.wire) (o.params c random) link
  modify fun s =>
    { s with
      handles := { s.handles with first := some link.source, second := some link.sink }
      world := link.world }
  judge (r, link.log)
  advance .asserting

end Stage

namespace RunState

variable {A T W : Type}

def start (label : String) (w : W) : RunState A T W :=
  { label, phase := .init, handles := {}, log := [.runStarted label], world := w, now := 0 }

/-- Close all that has been opened, reporting what cannot be closed. -/
def closeHandles (net : Network A T W) (s : RunState A T W) : RunState A T W :=
  let (closings, handles, world) := s.handles.close net s.world
  { s with handles, world, log := s.log ++ handles.closeFailures net closings }

def fail (net : Network A T W) (e : BenchError) (s : RunState A T W) : RunState A T W :=
  let s := closeHandles net { s with log := s.log ++ [.runFailed s.label s.phase e] }
  { s with phase := .closed, log := s.log ++ [.phaseChanged s.label s.phase .closed] }

end RunState

structure Finished (A T W : Type) where
  result : Except BenchError (Pair A T)
  log : Log
  world : W

namespace Finished

variable {A T W : Type}

/-- The pair of a run whose stages have succeeded, closed if that is wanted. -/
def ofPair (net : Network A T W) (doClose : Bool) (p : Pair A T) (log : Log) (w : W) :
    Finished A T W :=
  if doClose then
    match p.close net w with
    | (.ok (), p, more, w) => ⟨.ok p, log ++ more, w⟩
    | (.error e, _, more, w) => ⟨.error (.stream e), log ++ more, w⟩
  else ⟨.ok p, log, w⟩

def conclude (net : Network A T W) (doClose : Bool) :
    Except BenchError UInt16 × RunState A T W → Finished A T W
  | (.error e, s) =>
    let s := s.fail net e
    ⟨.error e, s.log, s.world⟩
  | (.ok port, s) =>
    match Pair.ofHandles? s.label s.phase port s.handles with
    | some p => ofPair net doClose p s.log s.world
    | none =>
      let s := s.closeHandles net
      ⟨.error (.stream .closed), s.log, s.world⟩

end Finished

end Wirebench.Bench

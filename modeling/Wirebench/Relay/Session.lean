import Wirebench.Relay.Escape

namespace Wirebench

/-- The settings of a relay with the state it keeps between sessions. -/
structure Relay (H S W : Type) where
  escape : Option UInt8
  handler : Option (Relay.Handler H S W)
  bufferSize : Nat
  state : Relay.EscapeState
  handlerState : H

namespace Relay

structure Ends (S W : Type) where
  near : S
  far : S
  world : W

variable {H S W : Type}

/-- A relay in its first state; it reads at least one byte at a time. -/
def new (escape : Option UInt8) (handler : Option (Handler H S W)) (bufferSize : Nat) (h : H) :
    Relay H S W :=
  ⟨escape, handler, max bufferSize 1, .normal, h⟩

inductive Round
  | served
  /-- There is nothing to read. -/
  | idle
  | ended (exit : Exit)
  deriving DecidableEq, Repr

/-- The round in which what has been read may have stopped the relay. -/
def Round.ofExit : Option Exit → Round
  | none => served
  | some x => ended x

/-- Read once from the near side and forward what has come. -/
def serveNear (io : Wire S W) (r : Relay H S W) (e : Ends S W) :
    Outcome Round × Relay H S W × Ends S W :=
  match io.read r.bufferSize e.near e.world with
  | (.ok bytes, near, world) =>
    let (x, p) :=
      forward io r.handler r.escape bytes ⟨r.state, [], r.handlerState, e.far, world⟩
    (x.map .ofExit, { r with state := p.escape, handlerState := p.handler },
      ⟨near, p.far, p.world⟩)
  | (.error .remoteClosed, near, world) => (.ok (.ended .nearClosed), r, { e with near, world })
  | (.error err, near, world) => (.error err, r, { e with near, world })
  | (.waiting, near, world) => (.ok .idle, r, { e with near, world })
  | (.stalled, near, world) => (.stalled, r, { e with near, world })

/-- Read once from the far side and pass on what has come. -/
def serveFar (io : Wire S W) (r : Relay H S W) (e : Ends S W) :
    Outcome Round × Relay H S W × Ends S W :=
  match io.read r.bufferSize e.far e.world with
  | (.ok bytes, far, world) =>
    let (x, near, world) := io.writeAll bytes e.near world
    (x.map fun _ => .served, r, ⟨near, far, world⟩)
  | (.error .remoteClosed, far, world) => (.ok (.ended .farClosed), r, { e with far, world })
  | (.error err, far, world) => (.error err, r, { e with far, world })
  | (.waiting, far, world) => (.ok .idle, r, { e with far, world })
  | (.stalled, far, world) => (.stalled, r, { e with far, world })

/-- Serve the near side if it is ready, else the far side. -/
def serve (io : Wire S W) (r : Relay H S W) (e : Ends S W) :
    Outcome Round × Relay H S W × Ends S W :=
  match serveNear io r e with
  | (.ok .idle, r, e) => serveFar io r e
  | x => x

/-- A bound on the reads that both sides can satisfy before something has to come. -/
def backlog (io : Wire S W) (e : Ends S W) : Nat :=
  io.backlog e.near e.world + io.backlog e.far e.world

/-- Serve until the relay stops. A side may take something in and still have nothing to hand out,
as a layer does with commands; that can let the other side go on, so both are asked again. A write
that has to wait holds the relay up. -/
def runFor (io : Wire S W) :
    Nat → Relay H S W → Ends S W → Outcome Exit × Relay H S W × Ends S W
  | 0, r, e => (.stalled, r, e)
  | n + 1, r, e =>
    match serve io r e with
    | (.ok .served, r, e) => runFor io n r e
    | (.ok .idle, r, after) =>
      if backlog io after < backlog io e then runFor io n r after else (.waiting, r, after)
    | (.ok (.ended x), r, e) => (.ok x, r, e)
    | (.error err, r, e) => (.error err, r, e)
    | (.waiting, r, e) => (.waiting, r, e)
    | (.stalled, r, e) => (.stalled, r, e)

/-- A session: every round but the last takes something from what is there to be read. -/
def run (io : Wire S W) (r : Relay H S W) (e : Ends S W) :
    Outcome Exit × Relay H S W × Ends S W :=
  runFor io (backlog io e + 1) r e

end Relay

end Wirebench

import Wirebench.Wire

namespace Wirebench.Relay

inductive Exit
  | quit
  | nearClosed
  | farClosed
  deriving DecidableEq, Repr

/-- Where the escape processing stands between two bytes. -/
inductive EscapeState
  | normal
  | escaped
  | collecting (sequence : List UInt8)
  deriving DecidableEq, Repr

def quitCommand : UInt8 := 113

def breakCommand : UInt8 := 98

def carriageReturn : UInt8 := 13

def lineFeed : UInt8 := 10

def isLineEnd (b : UInt8) : Bool := b = carriageReturn || b = lineFeed

/-- What to do with the commands a relay does not know itself, with a state `H` of its own. -/
structure Handler (H S W : Type) where
  /-- Carry out a command; the answer tells whether to collect a sequence. -/
  command : UInt8 → H → S → W → Outcome Bool × H × S × W
  /-- Take in a collected sequence. -/
  sequence : List UInt8 → H → S → W → Outcome Unit × H × S × W

/-- Everything that escape processing changes: its own state, bytes not yet written, the state of
the handler, and the far side in its world. -/
structure Progress (H S W : Type) where
  escape : EscapeState
  pending : List UInt8
  handler : H
  far : S
  world : W

variable {H S W : Type}

/-- Write the bytes that are not yet written. They are gone afterwards, also when that fails or has to
wait. -/
def flush (io : Wire S W) (p : Progress H S W) : Outcome Unit × Progress H S W :=
  let (r, far, world) := io.writeAll p.pending p.far p.world
  (r, { p with pending := [], far, world })

/-- Send a break to the far side; one that knows no breaks ignores it. -/
def sendBreak (io : Wire S W) (p : Progress H S W) : Outcome Unit × Progress H S W :=
  let (r, far, world) := io.control ⟨.first, false, .sendBreak, none⟩ p.far p.world
  let p := { p with far, world }
  match r with
  | .ok _ | .error (.notSupported _) => (.ok (), p)
  | .error e => (.error e, p)
  | .waiting => (.waiting, p)
  | .stalled => (.stalled, p)

/-- Give a command to the handler; without one it is dropped. -/
def dispatch (handler : Option (Handler H S W)) (c : UInt8) (p : Progress H S W) :
    Outcome Unit × Progress H S W :=
  match handler with
  | none => (.ok (), p)
  | some h =>
    let (r, handler, far, world) := h.command c p.handler p.far p.world
    let p := { p with handler, far, world }
    match r with
    | .ok true => (.ok (), { p with escape := .collecting [] })
    | .ok false => (.ok (), p)
    | .error e => (.error e, p)
    | .waiting => (.waiting, p)
    | .stalled => (.stalled, p)

def deliver (handler : Option (Handler H S W)) (sequence : List UInt8) (p : Progress H S W) :
    Outcome Unit × Progress H S W :=
  match handler with
  | none => (.ok (), p)
  | some h =>
    let (r, handler, far, world) := h.sequence sequence p.handler p.far p.world
    (r, { p with handler, far, world })

/-- Carry out the command after an escape byte. What was forwarded before it is written first. -/
def command (io : Wire S W) (handler : Option (Handler H S W)) (c : UInt8) (p : Progress H S W) :
    Outcome (Option Exit) × Progress H S W :=
  match flush io { p with escape := .normal } with
  | (.ok (), p) =>
    if c = quitCommand then (.ok (some .quit), p)
    else
      let (r, p) := if c = breakCommand then sendBreak io p else dispatch handler c p
      (r.map fun _ => none, p)
  | (.error e, p) => (.error e, p)
  | (.waiting, p) => (.waiting, p)
  | (.stalled, p) => (.stalled, p)

def endSequence (io : Wire S W) (handler : Option (Handler H S W)) (sequence : List UInt8)
    (p : Progress H S W) : Outcome (Option Exit) × Progress H S W :=
  match flush io { p with escape := .normal } with
  | (.ok (), p) =>
    let (r, p) := deliver handler sequence p
    (r.map fun _ => none, p)
  | (.error e, p) => (.error e, p)
  | (.waiting, p) => (.waiting, p)
  | (.stalled, p) => (.stalled, p)

/-- Process one byte; the answer tells whether the relay stops. -/
def stepByte (io : Wire S W) (handler : Option (Handler H S W)) (escape c : UInt8)
    (p : Progress H S W) : Outcome (Option Exit) × Progress H S W :=
  match p.escape with
  | .normal =>
    (.ok none,
      if c = escape then { p with escape := .escaped } else { p with pending := p.pending ++ [c] })
  | .escaped =>
    if c = escape then
      (.ok none, { p with escape := .normal, pending := p.pending ++ [escape] })
    else command io handler c p
  | .collecting sequence =>
    if isLineEnd c then endSequence io handler sequence p
    else (.ok none, { p with escape := .collecting (sequence ++ [c]) })

def stepBytes (io : Wire S W) (handler : Option (Handler H S W)) (escape : UInt8) :
    List UInt8 → Progress H S W → Outcome (Option Exit) × Progress H S W
  | [], p => (.ok none, p)
  | c :: cs, p =>
    match stepByte io handler escape c p with
    | (.ok none, p) => stepBytes io handler escape cs p
    | r => r

/-- Process what has been read from the near side. Without an escape byte it is forwarded as it
is. -/
def forward (io : Wire S W) (handler : Option (Handler H S W)) (escape : Option UInt8)
    (bytes : List UInt8) (p : Progress H S W) : Outcome (Option Exit) × Progress H S W :=
  match escape with
  | none =>
    let (r, p) := flush io { p with pending := bytes }
    (r.map fun _ => none, p)
  | some escape =>
    match stepBytes io handler escape bytes { p with pending := [] } with
    | (.ok none, p) =>
      let (r, p) := flush io p
      (r.map fun _ => none, p)
    | r => r

end Wirebench.Relay

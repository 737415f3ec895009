import Wirebench.Loopback.Network

namespace Wirebench.Loopback

/-- A host with what there is of associations on it. -/
abbrev World (K : Type) := Host × Association.World K

section

variable {S K α C : Type} (sockets : Association.Sockets S K)

/-- An operation on the host alone. -/
def onHost (op : Host → Except StreamError α × Host) (w : World K) :
    Except StreamError (α ⊕ C) × World K :=
  let (r, h) := op w.1
  (r.map .inl, h, w.2)

/-- The distributors go on while somebody waits, also for an association. -/
def settleWaiting (r : Outcome α) (h : Host) : Host :=
  match r with
  | .waiting => h.settle
  | .ok _ | .error _ | .stalled => h

def onEither (op : Connection → Host → Outcome α × Connection × Host)
    (op' : Association.Connection S → Association.World K →
      Outcome α × Association.Connection S × Association.World K) :
    Connection ⊕ Association.Connection S → World K →
      Outcome α × (Connection ⊕ Association.Connection S) × World K
  | .inl c, (h, v) =>
    let (r, c, h) := op c h
    (r, .inl c, h, v)
  | .inr c, (h, v) =>
    let (r, c, v) := op' c v
    (r, .inr c, settleWaiting r h, v)

def wireWith : Wire (Connection ⊕ Association.Connection S) (World K) :=
  let io := Association.wire sockets
  { name := Sum.elim wire.name io.name
    read n := onEither (wire.read n) (io.read n)
    write data := onEither (wire.write data) (io.write data)
    writeUrgent data := onEither (wire.writeUrgent data) (io.writeUrgent data)
    readUrgent n := onEither (wire.readUrgent n) (io.readUrgent n)
    control r := onEither (wire.control r) (io.control r)
    close := onEither wire.close io.close
    discard c w :=
      match c with
      | .inl c => (wire.discard c w.1, w.2)
      | .inr c => (w.1, io.discard c w.2)
    backlog c w :=
      match c with
      | .inl c => wire.backlog c w.1
      | .inr c => io.backlog c w.2 }

/-- Connect to a descriptor for associations, whose port must be known. -/
def connectAssociation (d : Descriptor) (config : EndpointConfig) (w : World K) :
    Except StreamError (Association.Connection S) × World K :=
  match d.port, w.1.locate d.transport with
  | .error e, _ => (.error e, w)
  | .ok _, (.error e, h) => (.error e, h, w.2)
  | .ok port, (.ok a, h) =>
    let (r, kernel) := Association.connect sockets d.transport port a config w.2.kernel
    (r, h, { w.2 with kernel })

def listenAssociation (d : Descriptor) (config : EndpointConfig) (w : World K) :
    Except StreamError (Association.Listener S) × World K :=
  match w.1.locate d.transport with
  | (.error e, h) => (.error e, h, w.2)
  | (.ok a, h) =>
    let (r, v) := Association.listen sockets a config w.2
    (r, h, v)

/-- Connect from a listener for associations, on a socket of its own. -/
def connectFromAssociation (l : Association.Listener S) (target : Descriptor) (w : World K) :
    Except StreamError (Association.Connection S) × World K :=
  if target.protocol = .sctp then connectAssociation sockets target l.config w
  else (.error (target.wrongProtocol "an" .sctp), w)

/-- All transports of a host whose kernel may have sockets for associations. -/
def transports :
    Network (Listener ⊕ Association.Listener S) (Connection ⊕ Association.Connection S)
      (World K) where
  wire := wireWith sockets
  listen d config w :=
    match d.protocol with
    | .tcp | .udp => onHost (listen d config) w
    | .sctp => (listenAssociation sockets d config w).map (·.map .inr) id
  connect d config w :=
    match d.protocol with
    | .tcp | .udp => onHost (connect d config) w
    | .sctp => (connectAssociation sockets d config w).map (·.map .inr) id
  accept l w :=
    match l with
    | .inl l =>
      let (r, h) := accept l w.1
      (r.map .inl, h, w.2)
    | .inr l =>
      let (r, v) := Association.accept sockets l w.2
      (r.map .inr, settleWaiting r w.1, v)
  connectFrom l target w :=
    match l with
    | .inl l => onHost (connectFrom l target) w
    | .inr l => (connectFromAssociation sockets l target w).map (·.map .inr) id
  addresses l w :=
    match l with
    | .inl l => addresses l w.1
    | .inr l => Association.addresses sockets l w.2
  shutdown l w :=
    match l with
    | .inl l => (.ok (), shutDown l w.1, w.2)
    | .inr l => (.ok (), w.1, Association.shutDown sockets l w.2)
  discard l w :=
    match l with
    | .inl l => (discardListener l w.1, w.2)
    | .inr l => (w.1, Association.shutDown sockets l w.2)

end

end Wirebench.Loopback

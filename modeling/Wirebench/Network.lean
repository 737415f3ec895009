import Wirebench.Acceptor
import Wirebench.Setup

namespace Wirebench

/-- The transports of a world `W`, with listeners of type `A` and connections of type `T`. -/
structure Network (A T W : Type) where
  wire : Wire T W
  listen : Descriptor → EndpointConfig → W → Except StreamError A × W
  connect : Descriptor → EndpointConfig → W → Except StreamError T × W
  accept : A → W → Outcome T × W
  /-- Connect from the socket of a listener. -/
  connectFrom : A → Descriptor → W → Except StreamError T × W
  addresses : A → W → List SocketAddress
  shutdown : A → W → Except StreamError Unit × W
  /-- Let go of a listener without shutting it down. -/
  discard : A → W → W

/-- A connection being opened. Once it is open a greeting is written to it. -/
inductive Opening (A T : Type)
  | accepting (listener : A) (todo : List EndpointConfig)
  | settingUp (s : Setup T) (greeting : List UInt8)
  /-- Open, with a greeting that does not get away. -/
  | stuck (e : Endpoint T)
  | opened (e : Endpoint T)
  /-- Failed; when it was the greeting that failed, there is an open endpoint. -/
  | failed (endpoint : Option (Endpoint T)) (fault : StreamError)

namespace Opening

variable {A T W : Type}

def endpoint? : Opening A T → Option (Endpoint T)
  | stuck e | opened e => some e
  | failed e _ => e
  | accepting .. | settingUp .. => none

def fault? : Opening A T → Option StreamError
  | failed _ f => some f
  | accepting .. | settingUp .. | stuck _ | opened _ => none

def isOver : Opening A T → Bool
  | opened _ | failed .. => true
  | accepting .. | settingUp .. | stuck _ => false

def deadline? : Opening A T → Option Nat
  | settingUp s _ => s.deadline?
  | accepting .. | stuck _ | opened _ | failed .. => none

def load : Opening A T → Nat
  | accepting _ todo => todo.length
  | settingUp (.negotiating n) _ => n.todo.length + 1
  | settingUp (.ended _) _ | stuck _ | opened _ | failed .. => 0

/-- Write the greeting when the setup has ended well. -/
def afterSetup (io : Wire T W) (greeting : List UInt8) : Setup T × W → Opening A T × W
  | (.ended (.ok e), w) =>
    match (Endpoint.wire io).writeAll greeting e w with
    | (.ok (), e, w) => (.opened e, w)
    | (.error err, e, w) => (.failed (some e) err, w)
    | (.waiting, e, w) | (.stalled, e, w) => (.stuck e, w)
  | (.ended (.error err), w) => (.failed none err, w)
  | (.negotiating n, w) => (.settingUp (.negotiating n) greeting, w)

/-- Go on with an opening as far as it gets at a given time. -/
def poll (net : Network A T W) (now : Nat) : Opening A T → W → Opening A T × W
  | accepting l todo, w =>
    match net.accept l w with
    | (.ok t, w) => afterSetup net.wire [] (Setup.start net.wire now todo (.ofTransport t) w)
    | (.error e, w) => (.failed none e, w)
    | (.waiting, w) | (.stalled, w) => (.accepting l todo, w)
  | settingUp s greeting, w => afterSetup net.wire greeting (s.poll net.wire now w)
  | stuck e, w => (.stuck e, w)
  | opened e, w => (.opened e, w)
  | failed e f, w => (.failed e f, w)

def discard (net : Network A T W) : Opening A T → W → W
  | settingUp s _, w => s.discard net.wire w
  | accepting .. , w | stuck _, w | opened _, w | failed .., w => w

/-- Let go of everything, also of an endpoint that is open. -/
def discardAll (net : Network A T W) (o : Opening A T) (w : W) : W :=
  match o.endpoint? with
  | some e => (Endpoint.wire net.wire).discard e w
  | none => o.discard net w

/-- Wait for one opening, no longer than up to a limit; the time at which it is left comes last. -/
def await (net : Network A T W) (limit now : Nat) (o : Opening A T) (w : W) :
    Opening A T × W × Nat :=
  match o.poll net now w with
  | (o, w) =>
    if o.isOver then (o, w, now)
    else
      match o.deadline? with
      | none => (o, w, limit)
      | some d =>
        if d ≤ limit then
          let (o, w) := o.poll net d w
          (o, w, d)
        else (o, w, limit)

/-- Nothing is left to wait for: both are over, or one has failed and the first failure counts. -/
def bothOver (strict : Bool) (a b : Opening A T) : Bool :=
  (a.isOver && b.isOver) || (strict && (a.fault?.isSome || b.fault?.isSome))

/-- Poll the first and then the second, for a number of rounds or until both are over. -/
def rounds (net : Network A T W) (strict : Bool) (now : Nat) :
    Nat → Opening A T → Opening A T → W → Opening A T × Opening A T × W
  | 0, a, b, w => (a, b, w)
  | n + 1, a, b, w =>
    if bothOver strict a b then (a, b, w)
    else
      match a.poll net now w with
      | (a, w) =>
        if bothOver strict a b then (a, b, w)
        else
          match b.poll net now w with
          | (b, w) => rounds net strict now n a b w

/-- Rounds enough for all answers to be exchanged: in each one a side takes in all that has come,
and a layer changes each direction of its two options a few times at most. -/
def roundsFor (a b : Opening A T) : Nat := 16 * (a.load + b.load + 1)

def earliest : Option Nat → Option Nat → Option Nat
  | some m, some n => some (min m n)
  | some m, none => some m
  | none, n => n

/-- Wait for two openings, no longer than up to a limit. When neither gets on, time goes on to the
next deadline; at each deadline one of them ends, so there are at most `jumps` of them. -/
def awaitBothFrom (net : Network A T W) (strict : Bool) (limit : Nat) :
    (jumps : Nat) → Nat → Opening A T → Opening A T → W → Opening A T × Opening A T × W × Nat
  | 0, now, a, b, w => (a, b, w, now)
  | jumps + 1, now, a, b, w =>
    match rounds net strict now (roundsFor a b) a b w with
    | (a, b, w) =>
      if bothOver strict a b then (a, b, w, now)
      else
        match earliest a.deadline? b.deadline? with
        | none => (a, b, w, limit)
        | some d =>
          if d ≤ limit then awaitBothFrom net strict limit jumps d a b w else (a, b, w, limit)

def awaitBoth (net : Network A T W) (strict : Bool) (limit now : Nat) (a b : Opening A T) (w : W) :
    Opening A T × Opening A T × W × Nat :=
  awaitBothFrom net strict limit (a.load + b.load + 1) now a b w

end Opening

namespace Network

variable {A T W : Type}

def openAcceptor (net : Network A T W) (d : Descriptor) (config : EndpointConfig) (w : W) :
    Except StreamError (Acceptor A) × W :=
  match net.listen d.bottom config w with
  | (.ok l, w) => (.ok (Acceptor.new d config l), w)
  | (.error e, w) => (.error e, w)

/-- Open a connection to a descriptor, whose port must be filled in. -/
def openConnection (net : Network A T W) (now : Nat) (d : Descriptor) (config : EndpointConfig)
    (greeting : List UInt8) (w : W) : Opening A T × W :=
  if d.isPortPending then
    (.failed none (.invalidDescriptor d.wire .portNotFilledIn), w)
  else
    match net.connect d.bottom config w with
    | (.ok t, w) =>
      Opening.afterSetup net.wire greeting
        (Setup.start net.wire now (List.replicate d.filters.length config) (.ofTransport t) w)
    | (.error e, w) => (.failed none e, w)

/-- Put layers on a transport, innermost first, and wait for them to be settled. -/
def setUp (net : Network A T W) (configs : List EndpointConfig) (t : T) (w : W) :
    Opening A T × W :=
  let (o, w) :=
    Opening.afterSetup net.wire [] (Setup.start net.wire 0 configs (.ofTransport t) w)
  let (o, w, _) := o.await net (o.deadline?.getD 0) 0 w
  (o, w)

def acceptFrom (a : Acceptor A) : Opening A T :=
  match a.route with
  | .ok (l, todo) => .accepting l todo
  | .error e => .failed none e

/-- Connect from an acceptor to a target with the same stack. -/
def connectFromAcceptor (net : Network A T W) (now : Nat) (a : Acceptor A) (target : Descriptor)
    (w : W) : Opening A T × W :=
  match a.dial target with
  | .ok (l, lower, todo) =>
    match net.connectFrom l lower w with
    | (.ok t, w) =>
      Opening.afterSetup net.wire [] (Setup.start net.wire now todo (.ofTransport t) w)
    | (.error e, w) => (.failed none e, w)
  | .error e => (.failed none e, w)

def acceptorAddresses (net : Network A T W) (a : Acceptor A) (w : W) : List SocketAddress :=
  net.addresses a.listener w

def acceptorPort (net : Network A T W) (a : Acceptor A) (w : W) : Except StreamError UInt16 :=
  Acceptor.firstPort (net.acceptorAddresses a w)

def acceptorControl (net : Network A T W) (r : ControlRequest) (a : Acceptor A) (w : W) :
    Except StreamError String :=
  a.control (net.acceptorAddresses a w) r

/-- Close an endpoint. A closing that does not come to an end is given up. -/
def closeEndpoint (net : Network A T W) (e : Endpoint T) (w : W) :
    Except StreamError Unit × Endpoint T × W :=
  let (r, e, w) := (Endpoint.wire net.wire).close e w
  (r.orElse (.ok ()), e, w)

/-- Stop listening; closing again does nothing. -/
def closeAcceptor (net : Network A T W) (a : Acceptor A) (w : W) :
    Except StreamError Unit × Acceptor A × W :=
  if a.isOpen then
    let (r, w) := net.shutdown a.listener w
    (r, a.closed, w)
  else (.ok (), a, w)

end Network

end Wirebench

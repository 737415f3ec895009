import Wirebench.Config.Basic
import Wirebench.Telnet.Command

namespace Wirebench.Telnet

inductive Mode
  | off
  | offered
  | on
  deriving DecidableEq, Repr

/-- Agree to a direction being used; the flag tells whether that is to be answered. -/
def Mode.accept : Mode → Mode × Bool
  | off => (on, true)
  | offered | on => (on, false)

/-- Give a direction up; the flag tells whether that is to be answered. -/
def Mode.refuse : Mode → Mode × Bool
  | on => (off, true)
  | off | offered => (off, false)

/-- A supported option with the modes of its two directions. -/
structure OptionState where
  code : UInt8
  own : Mode
  peer : Mode
  deriving DecidableEq, Repr

/-- The supported options in increasing order of their codes. -/
structure Negotiator where
  options : List OptionState
  deriving DecidableEq, Repr

namespace Negotiator

def supported (config : TelnetConfig) : List UInt8 :=
  (if config.binary then [optionBinary] else []) ++
    (if config.suppressGoAhead then [optionSuppressGoAhead] else [])

def offering (codes : List UInt8) : Negotiator :=
  ⟨codes.map fun code => ⟨code, .offered, .offered⟩⟩

def offers (codes : List UInt8) : List UInt8 :=
  codes.flatMap fun code => negotiation .willUse code ++ negotiation .doUse code

/-- Every offer has been answered. -/
def isSettled (n : Negotiator) : Bool :=
  n.options.all fun o => o.own ≠ .offered && o.peer ≠ .offered

def find? (n : Negotiator) (code : UInt8) : Option OptionState :=
  n.options.find? fun o => o.code = code

/-- Put an option's new state in the place of its old one. -/
def update (n : Negotiator) (o : OptionState) : Negotiator :=
  ⟨n.options.map fun p => if p.code = o.code then o else p⟩

/-- Take in a command; what comes back is the answer to send. -/
def handle (n : Negotiator) (verb : Verb) (code : UInt8) : Negotiator × Option (List UInt8) :=
  match n.find? code with
  | none =>
    match verb with
    | .doUse => (n, some (negotiation .wontUse code))
    | .willUse => (n, some (negotiation .dontUse code))
    | .dontUse | .wontUse => (n, none)
  | some o =>
    match verb with
    | .doUse =>
      (n.update { o with own := o.own.accept.1 },
        if o.own.accept.2 then some (negotiation .willUse code) else none)
    | .willUse =>
      (n.update { o with peer := o.peer.accept.1 },
        if o.peer.accept.2 then some (negotiation .doUse code) else none)
    | .dontUse =>
      (n.update { o with own := o.own.refuse.1 },
        if o.own.refuse.2 then some (negotiation .wontUse code) else none)
    | .wontUse =>
      (n.update { o with peer := o.peer.refuse.1 },
        if o.peer.refuse.2 then some (negotiation .dontUse code) else none)

end Negotiator

end Wirebench.Telnet

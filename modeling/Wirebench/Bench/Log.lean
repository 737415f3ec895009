import Wirebench.Bench.Error
import Wirebench.Control
import Wirebench.Descriptor.Basic
import Wirebench.Text.Quoted

namespace Wirebench.Bench

inductive Phase
  | init
  | listening
  | connected
  | exchanging
  | asserting
  | closed
  deriving DecidableEq, Repr

def Phase.name : Phase → String
  | init => "init"
  | listening => "listening"
  | connected => "connected"
  | exchanging => "exchanging"
  | asserting => "asserting"
  | closed => "closed"

inductive Event
  | contextShutDown
  | runStarted (test : String)
  | phaseChanged (test : String) (source target : Phase)
  | connecting (target : Descriptor) (port : UInt16)
  | connectingFromAcceptor (target : Descriptor) (port : UInt16)
  | exchangeStarted (test exchange : String)
  | runFailed (test : String) (phase : Phase) (e : BenchError)
  | pairClosed (test : String)
  | pairDropped (test : String)
  | endpointCloseFailed (name : String) (e : StreamError)
  | acceptorCloseFailed (descriptor : Descriptor) (e : StreamError)
  | controlQueried (label : String) (option : ControlOption) (actual : String)
  | dataExchange (payload : List UInt8)
  | urgentExchange (payload : List UInt8)
  | randomExchange (size : Nat)
  | firstToSecond
  | secondToFirst
  | exchangeSucceeded
  | transferStarted (size : Nat) (chunk : Option Nat)
  deriving DecidableEq, Repr

abbrev Log := List Event

/-- A payload in a log: short texts are quoted, of other data the size is given. -/
def payloadText (payload : List UInt8) : String :=
  let size := String.ofList (Text.decimal payload.length) ++ " bytes"
  if payload.length ≤ 32 then
    match String.fromUTF8? (ByteArray.mk payload.toArray) with
    | some s => String.ofList (Text.quoted s.toList)
    | none => size
  else size

def chunkText : Option Nat → String
  | some n => "Some(" ++ String.ofList (Text.decimal n) ++ ")"
  | none => "None"

namespace Event

def message : Event → String
  | contextShutDown => "library context shut down"
  | runStarted _ => "harness start"
  | phaseChanged .. => "harness state"
  | connecting .. => "connecting"
  | connectingFromAcceptor .. => "connecting from acceptor"
  | exchangeStarted .. => "running exchange"
  | runFailed .. => "harness failed"
  | pairClosed _ => "harness closed"
  | pairDropped _ => "accept pair dropped without close"
  | endpointCloseFailed .. | acceptorCloseFailed .. => "close during cleanup failed"
  | controlQueried .. => "control query"
  | dataExchange _ => "data exchange"
  | urgentExchange _ => "urgent exchange"
  | randomExchange _ => "random exchange"
  | firstToSecond => "  testing io1 to io2"
  | secondToFirst => "  testing io2 to io1"
  | exchangeSucceeded => "  Success!"
  | transferStarted .. => "data transfer"

def fields : Event → List (String × String)
  | contextShutDown | firstToSecond | secondToFirst | exchangeSucceeded => []
  | runStarted test | pairClosed test | pairDropped test => [("test", test)]
  | phaseChanged test source target =>
    [("test", test), ("from", source.name), ("to", target.name)]
  | connecting target port | connectingFromAcceptor target port =>
    [("target", target.wire), ("port", String.ofList (Text.decimal port.toNat))]
  | exchangeStarted test exchange => [("test", test), ("exchange", exchange)]
  | runFailed test phase e =>
    [("test", test), ("state", phase.name), ("code", e.code), ("error", e.message)]
  | endpointCloseFailed name e => [("endpoint", name), ("error", e.message)]
  | acceptorCloseFailed descriptor e => [("acceptor", descriptor.wire), ("error", e.message)]
  | controlQueried label option actual =>
    [("on", label), ("option", option.name), ("actual", actual)]
  | dataExchange payload | urgentExchange payload => [("payload", payloadText payload)]
  | randomExchange size => [("bytes", String.ofList (Text.decimal size))]
  | transferStarted size chunk =>
    [("bytes", String.ofList (Text.decimal size)), ("chunk", chunkText chunk)]

end Event

end Wirebench.Bench

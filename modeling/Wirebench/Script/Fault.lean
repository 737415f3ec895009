import Wirebench.Bench.Error
import Wirebench.Json.Basic

namespace Wirebench.Script

def decodeStreamError (j : Json) : Option StreamError := do
  let text (key : String) := j.get Json.string? key
  match ← text "kind" with
  | "invalid_descriptor" =>
    return .invalidDescriptor (← text "descriptor") (.custom (← text "reason"))
  | "unsupported_protocol" => return .unsupportedProtocol (← text "text")
  | "protocol_unavailable" => return .protocolUnavailable (← text "text")
  | "listen_failed" => return .listenFailed (← text "address") (← text "reason")
  | "connect_failed" => return .connectFailed (← text "address") (← text "reason")
  | "resolve" => return .unresolved (← text "text")
  | "timeout" => return .timeout (← j.get Json.nat? "ms")
  | "negotiation" => return .negotiation (← text "text")
  | "closed" => return .closed
  | "remote_closed" => return .remoteClosed
  | "not_supported" => return .notSupported (← text "text")
  | "invalid_control_value" => return .invalidControlValue (← text "option") (← text "value")
  | "context_shutdown" => return .contextShutdown
  | "io" => return .io (← text "text")
  | _ => none

def decodeBenchError (j : Json) : Option BenchError := do
  let text (key : String) := j.get Json.string? key
  match ← text "kind" with
  | "mismatch" => return .mismatch ⟨← text "what", ← text "expected", ← text "actual"⟩
  | "byte" =>
    return .dataMismatch (.byte (← j.get Json.nat? "offset") (← j.get Json.uint8? "expected")
      (← j.get Json.uint8? "actual"))
  | "length" =>
    return .dataMismatch (.length (← j.get Json.nat? "expected") (← j.get Json.nat? "actual"))
  | "stage_timeout" => return .stageTimeout (← text "stage") (← j.get Json.nat? "ms")
  | "already_initialized" => return .alreadyInitialized
  | _ => return .stream (← decodeStreamError j)

def faultFields (code message : String) : List (String × Json) :=
  [("error", .string code), ("message", .string message)]

def streamFaultFields (e : StreamError) : List (String × Json) := faultFields e.code e.message

def benchFaultFields (e : BenchError) : List (String × Json) := faultFields e.code e.message

end Wirebench.Script

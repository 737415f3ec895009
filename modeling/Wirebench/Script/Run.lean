import Wirebench.Bench.Accept
import Wirebench.Config.Coding
import Wirebench.Script.Bytes
import Wirebench.Script.Fault

namespace Wirebench.Script

/-- An exchange with its payload, as far as one is given. -/
def decodeExchange (j : Json) : Option Bench.Exchange := do
  match ← j.get Json.string? "kind" with
  | "data" => return .data (← j.getD decodeBytes "payload" Bench.defaultPayload)
  | "urgent" => return .urgent (← j.getD decodeBytes "payload" Bench.defaultUrgentPayload)
  | "small" => return .small
  | "random" => return .random (← j.get? Json.nat? "size")
  | "fail" => return .fail (← j.get decodeBenchError "error")
  | _ => none

def decodeContext (j : Json) : Option Bench.Context := do
  let config ← j.getD BenchConfig.decode "config" {}
  match ← j.get? Json.uint64? "wait_ms" with
  | some ms => return { config := config.withWaitTimeout (.ofMilliseconds ms) }
  | none => return { config }

def decodeRunOptions (j : Json) : Option Bench.RunOptions := do
  let options : Bench.RunOptions :=
    { exchange := ← j.get decodeExchange "exchange"
      timeout := (← j.get? Json.uint64? "timeout_ms").map .ofMilliseconds
      doClose := ← j.getD Json.bool? "do_close" true }
  return ((← j.get? Json.nat? "chunk_size").map options.withChunkSize).getD options

/-- A run of two descriptors; a descriptor that is no such thing is an error of its own. -/
def decodeAcceptRun (j : Json) : Option (Except StreamError Bench.AcceptRun) := do
  let run := Bench.AcceptRun.parse (← j.get Json.string? "connect") (← j.get Json.string? "accept")
    (← decodeRunOptions j)
  let greeting ← j.getD decodeBytes "dummy" []
  let expectedRemote ← j.get? Json.string? "expected_raddr"
  let expectedLocal ← j.get? Json.string? "expected_acc_laddr"
  return run.map fun r => { r with greeting, expectedRemote, expectedLocal }

def decodeAcceptConnectRun (j : Json) : Option (Except StreamError Bench.AcceptConnectRun) := do
  let text (key : String) := j.get Json.string? key
  return Bench.AcceptConnectRun.parse (← text "accept") (← text "connector") (← text "target")
    (← decodeRunOptions j)

end Wirebench.Script

import Wirebench.Script.Step
import Wirebench.Scripted.Commands
import Wirebench.Scripted.Pipe
import Wirebench.Scripted.Replay

namespace Wirebench.Script

def decodeReadEvent (j : Json) : Option Scripted.ReadEvent :=
  match j.field? "data", j.field? "fail", j.field? "close" with
  | some d, _, _ => (decodeBytes d).map .data
  | none, some e, _ => (decodeStreamError e).map .fail
  | none, none, some (.bool true) => some (.fail .remoteClosed)
  | none, none, _ => none

/-- The answer of a device to one option; options that are not known are skipped. -/
def decodeAnswer (f : String × Json) :
    Option (Option (ControlOption × Except StreamError String)) := do
  let answer ←
    match f.2 with
    | .string s => pure (Except.ok s)
    | e => (decodeStreamError e).map Except.error
  return (ControlOption.all.find? fun o => o.name = f.1).map fun o => (o, answer)

def decodeAnswers : Json → Option (List (ControlOption × Except StreamError String))
  | .object fields => (fields.mapM decodeAnswer).map fun answers => answers.filterMap id
  | _ => none

def decodeWriteFail (j : Json) : Option (Nat × StreamError) := do
  return (← j.get Json.nat? "after", ← j.get decodeStreamError "error")

/-- A device with a default name and its label in the record. -/
def decodeDevice (name label : String) (j : Json) : Option Scripted.Device := do
  return { name := ← j.getD Json.string? "name" name, label,
           maxWrite := ← j.get? Json.nat? "max_write",
           writeFail := ← j.get? decodeWriteFail "write_fail",
           controls := ← j.getD decodeAnswers "controls" [],
           closeError := ← j.get? decodeStreamError "close_error" }

def decodeReplay (label : String) (j : Json) : Option Scripted.Replay := do
  return { device := ← decodeDevice "scripted" label j,
           reads := ← j.getD (Json.list? decodeReadEvent) "reads" [],
           urgent := ← j.get? (Json.list? decodeReadEvent) "urgent",
           hold := (← j.getD Json.string? "end" "") = "hold" }

/-- A connection that a scripted listener hands out, or its failure. -/
def decodeArrival (j : Json) : Option (Except StreamError Scripted.Replay) :=
  match j.field? "fail" with
  | some e => (decodeStreamError e).map .error
  | none => (decodeReplay "" j).map .ok

def decodeCorruption (j : Json) : Option (Nat × UInt8) := do
  return (← j.get Json.nat? "offset", ← j.get Json.uint8? "xor")

def decodePipeEnd (name : String) (urgent : Bool) (j : Json) : Option Scripted.PipeEnd := do
  return { device := ← decodeDevice name "" j, urgent,
           fault := ⟨← j.get? decodeCorruption "corrupt", ← j.get? Json.nat? "keep"⟩ }

def decodeCommands (j : Json) : Option Scripted.Commands := do
  let bytes (key : String) := j.getD (Json.list? Json.uint8?) key []
  return { collect := ← bytes "collect", echo := ← bytes "echo", fail := ← bytes "fail",
           echoSequences := ← j.getD Json.bool? "echo_multi" false,
           quiet := ← j.getD Json.bool? "quiet" false }

def decodeEndpointConfig (j : Json) : Option EndpointConfig := do
  let base : EndpointConfig := {}
  let timeout := (← j.get? Json.uint64? "connect_timeout_ms").map Duration.ofMilliseconds
  return { base with
           connectTimeout := timeout.getD base.connectTimeout
           readBufferSize := ← j.getD Json.uint64? "read_buffer_size" base.readBufferSize
           telnet := ⟨← j.getD Json.bool? "sga" true, ← j.getD Json.bool? "binary" true⟩ }

/-- An entry of a record; of what was written only the length may be wanted. -/
def encodeEntry (lengths : Bool) : Scripted.Entry → List (String × Json)
  | .wrote bs => [if lengths then ("write_len", .nat bs.length) else ("write", encodeBytes bs)]
  | .wroteUrgent bs => [("urgent", encodeBytes bs)]
  | .asked r =>
    [("control", .string r.option.name), ("get", .bool r.get), ("depth", encodeDepth r.depth),
      ("value", .ofString? r.value)]
  | .closed => [("close", .bool true)]
  | .accepted d => [("accept", .string d)]
  | .connectedFrom t => [("connect_from", .string t)]
  | .shutDown => [("shutdown", .bool true)]

def encodeRecord (lengths : Bool) (r : Scripted.Record) : Json :=
  .array (r.map fun e => .object (encodeEntry lengths e.2))

/-- A record in which every entry carries the label of its device. -/
def encodeLabelled (r : Scripted.Record) : Json :=
  .array (r.map fun e => .object (("on", .string e.1) :: encodeEntry false e.2))

def encodeCommandEntry : Scripted.CommandEntry → Json
  | .command c => .object [("escape", .nat c.toNat)]
  | .sequence bs => .object [("multi", encodeBytes bs)]

end Wirebench.Script

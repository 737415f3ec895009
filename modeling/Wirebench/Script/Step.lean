import Wirebench.Bench.Check
import Wirebench.Config.Coding
import Wirebench.Network
import Wirebench.Script.Bytes
import Wirebench.Script.Fault

namespace Wirebench.Script

/-- What an assertion expects: a text, or the start of an address with a port. -/
inductive Expectation
  /-- The text; the port of the script is put in for `$PORT`. -/
  | text (s : String)
  /-- The start of an address; without a port it is that of the script. -/
  | address (start : String) (port : Option UInt16)
  deriving DecidableEq, Repr

def Expectation.resolve (port : UInt16) : Expectation → String
  | text s => s.replace "$PORT" (String.ofList (Text.decimal port.toNat))
  | address start p => withPort start (p.getD port)

inductive Query
  | control (r : ControlRequest)
  | expect (depth : ControlDepth) (option : ControlOption) (e : Expectation)
  | close
  | state
  deriving DecidableEq, Repr

inductive EndpointStep
  | read (n : Nat)
  | readExact (n : Nat)
  | write (data : List UInt8)
  | writeAll (data : List UInt8)
  | writeUrgent (data : List UInt8)
  | readUrgent (n : Nat)
  | query (q : Query)
  deriving DecidableEq, Repr

inductive AcceptorStep
  | port
  | addresses
  | query (q : Query)
  deriving DecidableEq, Repr

inductive Report
  | done
  | data (bytes : List UInt8)
  | count (n : Nat)
  | value (s : String)
  | port (p : UInt16)
  | text (s : String)
  | endpoint (state : String) (isOpen : Bool) (name description : String)
  | acceptor (isOpen : Bool) (descriptor description : String)
  | failed (e : BenchError)
  /-- The step has not ended in its time. -/
  | pending
  /-- There is nothing to do the step with. -/
  | absent
  deriving DecidableEq, Repr

namespace Report

def ofExcept {α : Type} (report : α → Report) : Except StreamError α → Report
  | .ok a => report a
  | .error e => .failed (.stream e)

def ofOutcome {α : Type} (report : α → Report) : Outcome α → Report
  | .ok a => report a
  | .error e => .failed (.stream e)
  | .waiting | .stalled => pending

def ofCheck : Except BenchError Unit → Report
  | .ok () => done
  | .error e => failed e

end Report

variable {A T W : Type}

/-- Carry out a step on an endpoint, in a script with a given port. -/
def EndpointStep.perform (io : Wire T W) (port : UInt16) (step : EndpointStep) (e : Endpoint T)
    (w : W) : Report × Bench.Log × Endpoint T × W :=
  let wire := Endpoint.wire io
  match step with
  | read n =>
    let (r, e, w) := wire.read n e w
    (.ofOutcome .data r, [], e, w)
  | readExact n =>
    let (r, _, e, w) := wire.readExact n [] e w
    (.ofOutcome .data r, [], e, w)
  | write data =>
    let (r, e, w) := wire.write data e w
    (.ofOutcome .count r, [], e, w)
  | writeAll data =>
    let (r, e, w) := wire.writeAll data e w
    (.ofOutcome (fun _ => .done) r, [], e, w)
  | writeUrgent data =>
    let (r, e, w) := wire.writeUrgent data e w
    (.ofOutcome (fun _ => .done) r, [], e, w)
  | readUrgent n =>
    let (r, e, w) := wire.readUrgent n e w
    (.ofOutcome .data r, [], e, w)
  | query (.control request) =>
    let (r, e, w) := wire.control request e w
    (.ofOutcome .value r, [], e, w)
  | query (.expect depth option expected) =>
    match wire.control ⟨depth, true, option, none⟩ e w with
    | (.waiting, e, w) | (.stalled, e, w) => (.pending, [], e, w)
    | (.ok actual, e, w) =>
      let (r, log) := expectAnswer (wire.name e) option (expected.resolve port) (.ok actual)
      (.ofCheck r, log, e, w)
    | (.error fault, e, w) => (.failed (.stream fault), [], e, w)
  | query .close =>
    let (r, e, w) := wire.close e w
    (.ofOutcome (fun _ => .done) r, [], e, w)
  | query .state => (.endpoint e.stateName e.isOpen (wire.name e) (e.describe io), [], e, w)

/-- Carry out a step on an acceptor, in a script with a given port. -/
def AcceptorStep.perform (net : Network A T W) (port : UInt16) (step : AcceptorStep)
    (a : Acceptor A) (w : W) : Report × Bench.Log × Acceptor A × W :=
  match step with
  | .port => (.ofExcept .port (net.acceptorPort a w), [], a, w)
  | addresses => (.text (SocketAddress.listText (net.acceptorAddresses a w)), [], a, w)
  | query (.control request) => (.ofExcept .value (net.acceptorControl request a w), [], a, w)
  | query (.expect depth option expected) =>
    let (r, log) := expectAnswer (a.label) option (expected.resolve port)
      (net.acceptorControl ⟨depth, true, option, none⟩ a w)
    (.ofCheck r, log, a, w)
  | query .close =>
    let (r, a, w) := net.closeAcceptor a w
    (.ofExcept (fun _ => .done) r, [], a, w)
  | query .state => (.acceptor a.isOpen a.descriptor.wire a.describe, [], a, w)

def decodeDepth : Json → Option ControlDepth
  | .string "first" => some .first
  | j => j.nat?.map .layer

def encodeDepth : ControlDepth → Json
  | .layer n => .nat n
  | .first => .string "first"

def decodeOption (j : Json) : Option ControlOption := j.string?.bind ControlOption.ofKey?

/-- A request to the outermost layer for a value, as far as nothing else is said. -/
def decodeRequest (j : Json) : Option ControlRequest := do
  return { depth := ← j.getD decodeDepth "depth" (.layer 0), get := ← j.getD Json.bool? "get" true,
           option := ← j.get decodeOption "option", value := ← j.get? Json.string? "value" }

def decodeQuery (name : String) (j : Json) : Option Query := do
  match name with
  | "control" => return .control (← decodeRequest j)
  | "close" => return .close
  | "state" => return .state
  | "assert_control" =>
    return .expect (← j.getD decodeDepth "depth" (.layer 0)) (← j.get decodeOption "option")
      (.text (← j.get Json.string? "expected"))
  | "assert_addr" =>
    return .expect (← j.getD decodeDepth "depth" (.layer 0)) (← j.get decodeOption "option")
      (.address (← j.get Json.string? "prefix") (← j.get? Json.uint16? "port"))
  | _ => none

def EndpointStep.decode (j : Json) : Option EndpointStep := do
  match ← j.get Json.string? "do" with
  | "read" => return .read (← j.get Json.nat? "n")
  | "read_exact" => return .readExact (← j.get Json.nat? "n")
  | "write" => return .write (← j.get decodeBytes "data")
  | "write_all" => return .writeAll (← j.get decodeBytes "data")
  | "write_urgent" => return .writeUrgent (← j.get decodeBytes "data")
  | "read_urgent" => return .readUrgent (← j.get Json.nat? "n")
  | name => return .query (← decodeQuery name j)

def AcceptorStep.decode (j : Json) : Option AcceptorStep := do
  match ← j.get Json.string? "do" with
  | "port" => return .port
  | "addrs" => return .addresses
  | name => return .query (← decodeQuery name j)

def Report.encode : Report → List (String × Json)
  | done => [("ok", .bool true)]
  | data bytes => [("data", encodeBytes bytes)]
  | count n => [("n", .nat n)]
  | value s => [("value", .string s)]
  | port p => [("port", .nat p.toNat)]
  | text s => [("text", .string s)]
  | endpoint state isOpen name description =>
    [("state", .string state), ("open", .bool isOpen), ("name", .string name),
      ("debug", .string description)]
  | acceptor isOpen descriptor description =>
    [("open", .bool isOpen), ("descriptor", .string descriptor), ("debug", .string description)]
  | failed e => benchFaultFields e
  | pending => [("pending", .bool true)]
  | absent => [("absent", .bool true)]

end Wirebench.Script

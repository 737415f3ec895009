import Wirebench.Config.Basic
import Wirebench.Control
import Wirebench.Descriptor.Parser
import Wirebench.Duration.Parser
import Wirebench.Json.Basic

namespace Wirebench

namespace Json

/-- The fields of a record in the order of their names: by name from an object, by position from an
array that has no more elements than the record. -/
def record? (names : List String) : Json → Option (List (Option Json))
  | object fields => some (names.map fun name => (object fields).field? name)
  | array items =>
    if items.length ≤ names.length then
      some (items.map some ++ List.replicate (names.length - items.length) none)
    else none
  | _ => none

def required {α : Type} (decode : Json → Option α) : Option Json → Option α
  | some j => decode j
  | none => none

def defaulted {α : Type} (value : α) (decode : Json → Option α) : Option Json → Option α
  | some j => decode j
  | none => some value

def nullable {α : Type} (decode : Json → Option α) : Json → Option (Option α)
  | null => some none
  | j => (decode j).map some

/-- One of several names, as a string or as the only key of an object whose value is null. -/
def variant? {α : Type} (ofName : String → Option α) : Json → Option α
  | string s => ofName s
  | object [(name, null)] => ofName name
  | _ => none

end Json

namespace Humantime

def encode (form : Humantime) (d : Duration) : Json := .string (form.format d)

def decode (form : Humantime) (j : Json) : Option Duration := j.string?.bind form.parse

end Humantime

namespace Protocol

def encode (p : Protocol) : Json := .string p.token

def decode (j : Json) : Option Protocol := j.variant? ofToken?

end Protocol

namespace Filter

def encode (f : Filter) : Json := .string f.token

def decode (j : Json) : Option Filter := j.variant? ofToken?

end Filter

namespace Descriptor

def encode (d : Descriptor) : Json := .string d.wire

def decode (j : Json) : Option Descriptor := j.string?.bind fun s => (parse s).toOption

end Descriptor

namespace ControlDepth

def encode : ControlDepth → Json
  | layer n => .object [("Layer", .nat n)]
  | first => .string "First"

def decode : Json → Option ControlDepth
  | .object [("Layer", n)] => (n.natUpTo? (UInt64.size - 1)).map layer
  | j => j.variant? fun s => if s = "First" then some first else none

end ControlDepth

namespace ControlOption

def key : ControlOption → String
  | streams => "streams"
  | localAddr => "local_addr"
  | remoteAddr => "remote_addr"
  | localPort => "local_port"
  | maxWritePacket => "max_write_packet"
  | noDelay => "no_delay"
  | sendBreak => "send_break"
  | breaksReceived => "breaks_received"

def all : List ControlOption :=
  [streams, localAddr, remoteAddr, localPort, maxWritePacket, noDelay, sendBreak, breaksReceived]

def ofKey? (s : String) : Option ControlOption := all.find? fun o => o.key = s

def encode (o : ControlOption) : Json := .string o.key

def decode (j : Json) : Option ControlOption := j.variant? ofKey?

end ControlOption

namespace StreamCounts

def encode (c : StreamCounts) : Json :=
  .object [("instreams", .nat c.instreams.toNat), ("ostreams", .nat c.ostreams.toNat)]

def decode (j : Json) : Option StreamCounts :=
  match j.record? ["instreams", "ostreams"] with
  | some [i, o] => do return ⟨← Json.required Json.uint16? i, ← Json.required Json.uint16? o⟩
  | _ => none

end StreamCounts

namespace SctpConfig

def encode (c : SctpConfig) : Json :=
  .object [("instreams", .nat c.instreams.toNat), ("ostreams", .nat c.ostreams.toNat)]

def decode (j : Json) : Option SctpConfig :=
  match j.record? ["instreams", "ostreams"] with
  | some [i, o] => do return ⟨← Json.required Json.uint16? i, ← Json.required Json.uint16? o⟩
  | _ => none

end SctpConfig

namespace TelnetConfig

def encode (c : TelnetConfig) : Json :=
  .object [("suppress_go_ahead", .bool c.suppressGoAhead), ("binary", .bool c.binary)]

def decode (j : Json) : Option TelnetConfig :=
  match j.record? ["suppress_go_ahead", "binary"] with
  | some [s, b] => do return ⟨← Json.required Json.bool? s, ← Json.required Json.bool? b⟩
  | _ => none

end TelnetConfig

namespace EndpointConfig

def fieldNames : List String := ["connect_timeout", "read_buffer_size", "sctp", "telnet"]

def encodeWith (form : Humantime) (c : EndpointConfig) : Json :=
  .object [("connect_timeout", form.encode c.connectTimeout),
    ("read_buffer_size", .nat c.readBufferSize.toNat), ("sctp", c.sctp.encode),
    ("telnet", c.telnet.encode)]

def decodeWith (form : Humantime) (j : Json) : Option EndpointConfig :=
  let base : EndpointConfig := {}
  match j.record? fieldNames with
  | some [timeout, size, sctp, telnet] => do
    return {
      connectTimeout := ← Json.defaulted base.connectTimeout form.decode timeout
      readBufferSize := ← Json.defaulted base.readBufferSize Json.uint64? size
      sctp := ← Json.defaulted base.sctp SctpConfig.decode sctp
      telnet := ← Json.defaulted base.telnet TelnetConfig.decode telnet }
  | _ => none

def encode : EndpointConfig → Json := encodeWith .standard

def decode : Json → Option EndpointConfig := decodeWith .standard

end EndpointConfig

namespace BenchConfig

def fieldNames : List String := ["wait_timeout", "chunk_size", "io_size", "log_filter", "endpoint"]

def encodeWith (form : Humantime) (c : BenchConfig) : Json :=
  .object [("wait_timeout", form.encode c.waitTimeout),
    ("chunk_size", (c.chunkSize.map fun n => Json.nat n.toNat).getD .null),
    ("io_size", .nat c.transferSize.toNat), ("log_filter", .string c.logFilter),
    ("endpoint", c.endpoint.encodeWith form)]

def decodeWith (form : Humantime) (j : Json) : Option BenchConfig :=
  let base : BenchConfig := {}
  match j.record? fieldNames with
  | some [wait, chunk, size, filter, endpoint] => do
    return {
      waitTimeout := ← Json.defaulted base.waitTimeout form.decode wait
      chunkSize := ← Json.defaulted none (Json.nullable Json.uint64?) chunk
      transferSize := ← Json.defaulted base.transferSize Json.uint64? size
      logFilter := ← Json.defaulted base.logFilter Json.string? filter
      endpoint := ← Json.defaulted base.endpoint (EndpointConfig.decodeWith form) endpoint }
  | _ => none

def encode : BenchConfig → Json := encodeWith .standard

def decode : Json → Option BenchConfig := decodeWith .standard

end BenchConfig

end Wirebench

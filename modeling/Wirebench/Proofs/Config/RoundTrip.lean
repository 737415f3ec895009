import Wirebench.Config.Coding
import Wirebench.Proofs.Duration.RoundTrip
import Wirebench.Proofs.Json.RoundTrip

namespace Wirebench

namespace Json

theorem natUpTo?_nat {n limit : Nat} (h : n ≤ limit) : natUpTo? limit (nat n) = some n := by
  have hnat : nat? (integer n) = some n := by
    rw [nat?, if_pos (Int.natCast_nonneg n), Int.toNat_natCast]
  rw [natUpTo?, nat, hnat, Option.bind_some, if_pos h]

theorem uint16?_nat (n : UInt16) : uint16? (nat n.toNat) = some n := by
  rw [uint16?, natUpTo?_nat (Nat.le_of_lt_succ n.toNat_lt), Option.map_some, UInt16.ofNat_toNat]

theorem uint64?_nat (n : UInt64) : uint64? (nat n.toNat) = some n := by
  rw [uint64?, natUpTo?_nat (Nat.le_sub_one_of_lt n.toNat_lt), Option.map_some,
    UInt64.ofNat_toNat]

end Json

variable {form : Humantime}

theorem Humantime.Documented.decode_encode (h : form.Documented) (d : Duration) :
    form.decode (form.encode d) = some d := h.parse_format d

namespace SctpConfig

theorem decode_encode (c : SctpConfig) : decode c.encode = some c := by
  have hfields : c.encode.record? ["instreams", "ostreams"] =
    some [some (.nat c.instreams.toNat), some (.nat c.ostreams.toNat)] := rfl
  rw [decode, hfields]
  simp only [Json.required, Json.uint16?_nat]
  rfl

theorem isPlain_encode (c : SctpConfig) : c.encode.IsPlain :=
  have hnames : ["instreams", "ostreams"].Nodup := by decide
  ⟨hnames, trivial, trivial, trivial⟩

end SctpConfig

namespace TelnetConfig

theorem decode_encode (c : TelnetConfig) : decode c.encode = some c := rfl

theorem isPlain_encode (c : TelnetConfig) : c.encode.IsPlain :=
  have hnames : ["suppress_go_ahead", "binary"].Nodup := by decide
  ⟨hnames, trivial, trivial, trivial⟩

end TelnetConfig

namespace EndpointConfig

theorem decode_encode (h : form.Documented) (c : EndpointConfig) :
    decodeWith form (c.encodeWith form) = some c := by
  have hfields : (c.encodeWith form).record? fieldNames =
    some [some (form.encode c.connectTimeout), some (.nat c.readBufferSize.toNat),
      some c.sctp.encode, some c.telnet.encode] := rfl
  rw [decodeWith, hfields]
  simp only [Json.defaulted, h.decode_encode, Json.uint64?_nat, SctpConfig.decode_encode,
    TelnetConfig.decode_encode]
  rfl

theorem isPlain_encode (form : Humantime) (c : EndpointConfig) : (c.encodeWith form).IsPlain :=
  have hnames : fieldNames.Nodup := by decide
  ⟨hnames, trivial, trivial, c.sctp.isPlain_encode, c.telnet.isPlain_encode, trivial⟩

end EndpointConfig

namespace BenchConfig

theorem nullable_chunkSize (size : Option UInt64) :
    Json.nullable Json.uint64? ((size.map fun n => Json.nat n.toNat).getD .null) = some size := by
  cases size with
  | none => rfl
  | some n =>
    have hnullable : Json.nullable Json.uint64? (.nat n.toNat) =
      (Json.uint64? (.nat n.toNat)).map some := rfl
    rw [Option.map_some, Option.getD_some, hnullable, Json.uint64?_nat, Option.map_some]

theorem decode_encode (h : form.Documented) (c : BenchConfig) :
    decodeWith form (c.encodeWith form) = some c := by
  have hfields : (c.encodeWith form).record? fieldNames =
    some [some (form.encode c.waitTimeout),
      some ((c.chunkSize.map fun n => Json.nat n.toNat).getD .null),
      some (.nat c.transferSize.toNat), some (.string c.logFilter),
      some (c.endpoint.encodeWith form)] := rfl
  rw [decodeWith, hfields]
  simp only [Json.defaulted, h.decode_encode, nullable_chunkSize, Json.uint64?_nat,
    EndpointConfig.decode_encode h, Json.string?]
  rfl

theorem isPlain_encode (form : Humantime) (c : BenchConfig) : (c.encodeWith form).IsPlain := by
  have hchunk : ((c.chunkSize.map fun n => Json.nat n.toNat).getD .null).IsPlain := by
    cases c.chunkSize <;> trivial
  have hnames : fieldNames.Nodup := by decide
  exact ⟨hnames, trivial, hchunk, trivial, trivial, c.endpoint.isPlain_encode form, trivial⟩

end BenchConfig

end Wirebench

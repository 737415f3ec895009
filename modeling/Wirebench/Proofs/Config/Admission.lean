import Wirebench.Config.Coding
import Wirebench.Proofs.Loopback.Progress

namespace Wirebench

/-- The configurations that are made from the default one by telling a builder some settings. -/
inductive EndpointConfig.Built : EndpointConfig → Prop
  | new : Built {}
  | connectTimeout {c : EndpointConfig} (h : Built c) (timeout : Duration) :
      Built (c.withConnectTimeout timeout)
  | readBufferSize {c : EndpointConfig} (h : Built c) (size : UInt64) :
      Built (c.withReadBufferSize size)
  | sctpStreams {c : EndpointConfig} (h : Built c) (instreams ostreams : UInt16) :
      Built (c.withSctpStreams instreams ostreams)
  | telnet {c : EndpointConfig} (h : Built c) (telnet : TelnetConfig) : Built (c.withTelnet telnet)

namespace EndpointConfig

theorem max_one (size : UInt64) : max size 1 = if size ≤ 1 then 1 else size := rfl

theorem built_iff (c : EndpointConfig) : c.Built ↔ 1 ≤ c.readBufferSize := by
  constructor
  · intro h
    induction h with
    | new => decide
    | connectTimeout _ _ ih => exact ih
    | readBufferSize _ size _ =>
      rw [withReadBufferSize, max_one]
      split
      · exact UInt64.le_refl 1
      · next hlarge => exact UInt64.le_of_lt (UInt64.not_le.1 hlarge)
    | sctpStreams _ _ _ ih => exact ih
    | telnet _ _ ih => exact ih
  · intro h
    obtain ⟨timeout, size, sctp, telnet⟩ := c
    -- A builder that is told every setting once leaves the size as it is.
    have hsize : max size 1 = size := by
      rw [max_one]
      split
      · next hsmall => exact UInt64.le_antisymm h hsmall
      · rfl
    have hbuilt := (((Built.new.connectTimeout timeout).readBufferSize size).sctpStreams
      sctp.instreams sctp.ostreams).telnet telnet
    simp only [withConnectTimeout, withReadBufferSize, withSctpStreams, withTelnet, hsize] at hbuilt
    exact hbuilt

end EndpointConfig

namespace Json

/-- What a value says about a field of a record. -/
def recordField? (names : List String) (name : String) (j : Json) : Option Json :=
  ((j.record? names).bind fun values => values[names.idxOf name]?).join

theorem uint64?_eq_some_zero {j : Json} : j.uint64? = some 0 ↔ j = nat 0 := by
  constructor
  · intro h
    obtain ⟨n, hn, hzero⟩ := Option.map_eq_some_iff.1 h
    obtain ⟨k, hk, hlimit⟩ := Option.bind_eq_some_iff.1 hn
    split at hlimit
    · next hle =>
      have hkn : k = n := Option.some.inj hlimit
      have hlt : n < UInt64.size := Nat.lt_of_le_pred (by decide) (hkn ▸ hle)
      have hn0 : n = 0 := (UInt64.toNat_ofNat_of_lt' hlt).symm.trans (congrArg UInt64.toNat hzero)
      cases j with
      | integer i =>
        rw [nat?] at hk
        split at hk
        · next hi =>
          have hik : i.toNat = k := Option.some.inj hk
          have hi0 : i = 0 := by omega
          rw [hi0]
          rfl
        · cases hk
      | null | bool | real | string | array | object => cases hk
    · cases hlimit
  · intro h
    rw [h]
    rfl

theorem recordField?_eq {names : List String} {j : Json} {values : List (Option Json)}
    (h : j.record? names = some values) (name : String) :
    j.recordField? names name = (values[names.idxOf name]?).join := by
  rw [recordField?, h, Option.bind_some]

end Json

namespace EndpointConfig

/-- The value says that the buffer is empty. -/
def EmptyBufferIn (j : Json) : Prop :=
  j.recordField? fieldNames "read_buffer_size" = some (.nat 0)

theorem readBufferSize_decode {j : Json} {c : EndpointConfig} (h : decode j = some c) :
    c.readBufferSize = 0 ↔ EmptyBufferIn j := by
  rw [decode, decodeWith] at h
  split at h
  · next timeout size sctp telnet hrecord =>
    obtain ⟨t, -, h⟩ := Option.bind_eq_some_iff.1 h
    obtain ⟨n, hn, h⟩ := Option.bind_eq_some_iff.1 h
    obtain ⟨s, -, h⟩ := Option.bind_eq_some_iff.1 h
    obtain ⟨k, -, h⟩ := Option.bind_eq_some_iff.1 h
    have hc : c.readBufferSize = n := by
      cases h
      rfl
    have hfield : j.recordField? fieldNames "read_buffer_size" = size :=
      Json.recordField?_eq hrecord _
    rw [hc, EmptyBufferIn, hfield]
    cases size with
    | none =>
      have hdefault : n = defaultReadBuffer := (Option.some.inj hn).symm
      rw [hdefault]
      exact ⟨fun hzero => absurd hzero (by decide), fun hempty => by cases hempty⟩
    | some size =>
      have hn : size.uint64? = some n := hn
      constructor
      · intro hzero
        rw [Json.uint64?_eq_some_zero.1 (hn.trans (congrArg some hzero))]
      · intro hzero
        rw [Option.some.inj hzero] at hn
        exact (Option.some.inj hn).symm
  · cases h

end EndpointConfig

theorem BenchConfig.readBufferSize_decode {j : Json} {c : BenchConfig} (h : decode j = some c) :
    c.endpoint.readBufferSize = 0 ↔
      ∃ e, j.recordField? fieldNames "endpoint" = some e ∧ EndpointConfig.EmptyBufferIn e := by
  rw [decode, decodeWith] at h
  split at h
  · next wait chunk size filter endpoint hrecord =>
    obtain ⟨t, -, h⟩ := Option.bind_eq_some_iff.1 h
    obtain ⟨k, -, h⟩ := Option.bind_eq_some_iff.1 h
    obtain ⟨n, -, h⟩ := Option.bind_eq_some_iff.1 h
    obtain ⟨f, -, h⟩ := Option.bind_eq_some_iff.1 h
    obtain ⟨e, he, h⟩ := Option.bind_eq_some_iff.1 h
    have hc : c.endpoint = e := by
      cases h
      rfl
    have hfield : j.recordField? fieldNames "endpoint" = endpoint := Json.recordField?_eq hrecord _
    rw [hc, hfield]
    cases endpoint with
    | none =>
      have hdefault : e.readBufferSize = defaultReadBuffer :=
        congrArg EndpointConfig.readBufferSize (Option.some.inj he).symm
      rw [hdefault]
      exact ⟨fun hzero => absurd hzero (by decide), fun ⟨_, hempty, _⟩ => by cases hempty⟩
    | some endpoint =>
      rw [EndpointConfig.readBufferSize_decode (j := endpoint) he]
      constructor
      · exact fun hempty => ⟨endpoint, rfl, hempty⟩
      · rintro ⟨_, ⟨⟩, hempty⟩
        exact hempty
  · cases h

namespace EndpointConfig

/-- What is made with a configuration gets on. -/
structure GetsOn (c : EndpointConfig) : Prop where
  /-- Over a socket of which a write takes something, but no more than the buffer may hold. -/
  socket : ∀ {S W : Type} {io : Wire S W} {I : S → W → Prop}, io.Takes I →
    ∀ {s w}, I s w → ∀ isOpen data,
      let r := (io.watched.capped c.readBufferSize.toNat).guarded.writeAll data ⟨isOpen, s⟩ ([], w)
      r.1 ≠ .stalled ∧ r.2.2.1.length ≤ data.length
  /-- Over a stream of a host. -/
  stream : ∀ {x h}, Loopback.StreamOf c.readBufferSize.toNat x h → ∀ isOpen data,
    let r := Loopback.wire.watched.guarded.writeAll data ⟨isOpen, x⟩ ([], h)
    r.1 ≠ .stalled ∧ r.2.2.1.length ≤ data.length
  /-- A layer reads for at least one byte at a time. -/
  fill : ∀ {S W : Type} {io : Wire S W} {l : Telnet.Layer}, l.Made io c → ∀ s w,
    ∃ n r more, 0 < n ∧ (Telnet.fill io.watched (l, s) ([], w)).2.2.1 = .read n r :: more ∧
      ∀ call ∈ more, call.isWrite
  /-- Neither the offers of a layer nor the wait for the answers go on forever. -/
  negotiation : ∀ {S W : Type} {io : Wire S W} {I : S → W → Prop}, io.GetsOn I →
    ∀ {s w}, I s w → (Telnet.begin io c s w).1 ≠ .stalled ∧
      ∀ {l : Telnet.Layer}, l.Made io c → (Telnet.settle io (l, s) w).1 ≠ .stalled
  /-- Any number of layers on a transport that gets on. -/
  stack : ∀ {T W : Type} {io : Wire T W} {I : T → W → Prop}, io.GetsOn I →
    ∀ n, (stackWire io n).GetsOn (StackState.On c.readBufferSize.toNat I n)
  readExact : ∀ {T W : Type} {io : Wire T W} {I : T → W → Prop}, io.GetsOn I →
    ∀ n k got {s w}, StackState.On c.readBufferSize.toNat I n s w →
      ((stackWire io n).readExact k got s w).1 ≠ .stalled
  /-- Any number of layers on a stream of a host. -/
  host : ∀ n, (stackWire Loopback.wire n).GetsOn (StackState.On c.readBufferSize.toNat
    (Loopback.StreamOf c.readBufferSize.toNat) n)

/-- What is made with a configuration does not get on. -/
structure Spins (c : EndpointConfig) : Prop where
  stream : ∀ {x h}, Loopback.StreamOf c.readBufferSize.toNat x h → ∀ data, data ≠ [] →
    (Loopback.wire.guarded.writeAll data ⟨true, x⟩ h).1 = .stalled
  fill : ∀ {S W : Type} {io : Wire S W} {l : Telnet.Layer}, l.Made io c → ∀ s w,
    ∃ r more, (Telnet.fill io.watched (l, s) ([], w)).2.2.1 = .read 0 r :: more ∧
      ∀ call ∈ more, call.isWrite
  layer : ∀ {S W : Type} {io : Wire S W} {l : Telnet.Layer}, l.Made io c →
    ∀ {s w}, io.read 0 s w = (.ok [], s, w) →
      (l.isSettled = false → (Telnet.settle io (l, s) w).1 = .stalled) ∧
        (l.decoded = [] → ∀ n, ((Telnet.layerWire io).read n (l, s) w).1 = .stalled)
  /-- What has come on a stream of a host is never read. -/
  host : ∀ {l : Telnet.Layer}, l.Made Loopback.wire c → ∀ {i : Nat} {e h}, h.ends[i]? = some e →
    e.inbox ≠ [] → l.decoded = [] → ∀ name n,
      ((Telnet.layerWire Loopback.wire).read n (l, ⟨name, .stream i⟩) h).1 = .stalled

theorem writeAll_within {S W : Type} {io : Wire S (List Call × W)} {I : S → List Call × W → Prop}
    (h : io.Takes I) (hnotes : io.NotesWrites) {s : S} {w : W} (hI : I s ([], w))
    (data : List UInt8) :
    (io.writeAll data s ([], w)).1 ≠ .stalled ∧
      (io.writeAll data s ([], w)).2.2.1.length ≤ data.length := by
  obtain ⟨more, hmore, hlength, -⟩ := hnotes.writeAll data s ([], w)
  refine ⟨(h.writeAll data hI).moves, ?_⟩
  rw [hmore, List.nil_append]
  exact hlength

theorem getsOn {c : EndpointConfig} (hc : 1 ≤ c.readBufferSize) : c.GetsOn := by
  have hpos : 0 < c.readBufferSize.toNat := UInt64.le_iff_toNat_le.1 hc
  exact {
    socket := by
      intro S W io I h s w hI isOpen data
      exact writeAll_within (h.watched.capped hpos).guarded
        ((io.notesWrites_watched.capped _).guarded) hI data
    stream := by
      intro x h hx isOpen data
      exact writeAll_within (Loopback.getsOn_stream hpos).toTakes.watched.guarded
        Loopback.wire.notesWrites_watched.guarded hx data
    fill := by
      intro S W io l hl s w
      obtain ⟨r, more, hmore, hwrites⟩ := Telnet.record_fill io l s [] w
      exact ⟨l.bufferSize, r, more, hl.bufferSize ▸ hpos, hmore, hwrites⟩
    negotiation := by
      intro S W io I h s w hI
      refine ⟨(h.writeAll _ hI).moves, fun {l} hl => ?_⟩
      have hx : Telnet.Layer.On c.readBufferSize.toNat I (l, s) w := ⟨hl.bufferSize, hI⟩
      exact (Telnet.advances_settle h hpos hx).moves
    stack := by
      intro T W io I h n
      exact h.stack hpos n
    readExact := by
      intro T W io I h n k got s w hs
      exact ((h.stack hpos n).readExact k got hs).moves
    host := (Loopback.getsOn_stream hpos).stack hpos }

theorem spins {c : EndpointConfig} (hc : c.readBufferSize = 0) : c.Spins := by
  have hzero : c.readBufferSize.toNat = 0 := congrArg UInt64.toNat hc
  have hlayer {S W : Type} {io : Wire S W} {l : Telnet.Layer} (hl : l.Made io c) {s : S} {w : W}
      (hread : io.read 0 s w = (.ok [], s, w)) (hdecoded : l.decoded = []) (n : Nat) :
      ((Telnet.layerWire io).read n (l, s) w).1 = .stalled := by
    rw [← hzero, ← hl.bufferSize] at hread
    have hdone : (!l.decoded.isEmpty) = false := by rw [hdecoded]; rfl
    simp only [Telnet.layerWire]
    rw [Telnet.fillUntil_stalled (x := (l, s)) hread hdone]
  constructor
  · intro x h hx data hdata
    obtain ⟨name, _⟩ := x
    obtain ⟨i, e, rfl, hi, hmax, -⟩ := hx
    apply Wire.writeAll_stalled hdata
    have htake : (e.take data).length = 0 := by
      rw [Loopback.StreamEnd.take, hmax, hzero]
      rfl
    have hwrite := Loopback.write_stream hi name data
    rw [htake] at hwrite
    exact congrArg Prod.fst hwrite
  · intro S W io l hl s w
    obtain ⟨r, more, hmore, hwrites⟩ := Telnet.record_fill io l s [] w
    rw [hl.bufferSize, hzero] at hmore
    exact ⟨r, more, hmore, hwrites⟩
  · intro S W io l hl s w hread
    refine ⟨fun hsettled => ?_, hlayer hl hread⟩
    rw [← hzero, ← hl.bufferSize] at hread
    rw [Telnet.settle, Telnet.fillUntil_stalled (x := (l, s)) hread hsettled]
  · intro l hl i e h hi hinbox hdecoded name n
    exact hlayer hl (Loopback.read_nothing hi hinbox name) hdecoded n

end EndpointConfig

/-- With a buffer of at least one byte, what is made with a configuration gets on; with an empty one
it does not. Connections over TCP are streams with that buffer. Builders give buffers at least one
byte. Configurations that are read from JSON values have an empty buffer if and only if the value
says so. -/
theorem admission_decides_progress (c : EndpointConfig) :
    (1 ≤ c.readBufferSize → c.GetsOn) ∧ (c.readBufferSize = 0 → c.Spins) ∧
      (∀ d h x h', d.protocol = .tcp → h.opposite.length = h.ends.length →
        Loopback.connect d c h = (.ok x, h') →
          Loopback.StreamOf c.readBufferSize.toNat x h') ∧
      (c.Built ↔ 1 ≤ c.readBufferSize) ∧
      (∀ j, EndpointConfig.decode j = some c →
        (c.readBufferSize = 0 ↔ EndpointConfig.EmptyBufferIn j)) ∧
      ∀ j b, BenchConfig.decode j = some b → b.endpoint = c →
        (c.readBufferSize = 0 ↔
          ∃ e, j.recordField? BenchConfig.fieldNames "endpoint" = some e ∧
            EndpointConfig.EmptyBufferIn e) := by
  refine ⟨EndpointConfig.getsOn, EndpointConfig.spins, ?_, c.built_iff,
    fun j => EndpointConfig.readBufferSize_decode, ?_⟩
  · intro d h x h' hd hpaired hx
    exact Loopback.streamOf_connect hd hpaired hx
  · intro j b hb hc
    rw [← hc]
    exact BenchConfig.readBufferSize_decode hb

/-- A configuration that says that the buffer is empty, and nothing else. -/
def emptyBuffer : Json := .object [("read_buffer_size", .nat 0)]

/-- A host on which somebody listens for streams. -/
def listening : Loopback.Host where
  isUp := true
  listeners := [{ address := .loopback 4001, maxWrite := 16 }]

def toListener : Descriptor := .plain .tcp (some "127.0.0.1") (some 4001)

theorem admission_decides_progress_emptyBuffer :
    (∃ c, EndpointConfig.decode emptyBuffer = some c ∧ c.Spins) ∧
      (∃ c, EndpointConfig.decode (.object []) = some c ∧ c.GetsOn) ∧
      (∃ c, BenchConfig.decode (.object [("endpoint", emptyBuffer)]) = some c ∧
        c.endpoint.Spins) ∧
      ∃ x h, Loopback.connect toListener { readBufferSize := 0 } listening = (.ok x, h) ∧
        Loopback.StreamOf 0 x h := by
  obtain ⟨-, hspins, hconnect, -, hdecode, hbench⟩ :=
    admission_decides_progress { readBufferSize := 0 }
  obtain ⟨hgetsOn, -⟩ := admission_decides_progress {}
  have hempty : EndpointConfig.decode emptyBuffer = some { readBufferSize := 0 } := rfl
  have hdefault : EndpointConfig.decode (.object []) = some {} := rfl
  have hendpoint : BenchConfig.decode (.object [("endpoint", emptyBuffer)]) =
    some { endpoint := { readBufferSize := 0 } } := rfl
  refine ⟨⟨_, hempty, hspins ((hdecode _ hempty).2 rfl)⟩, ⟨_, hdefault, hgetsOn (by decide)⟩,
    ⟨_, hendpoint, hspins ((hbench _ _ hendpoint rfl).2 ⟨emptyBuffer, rfl, rfl⟩)⟩, ?_⟩
  have hok : (Loopback.connect toListener { readBufferSize := 0 } listening).1.isOk = true := by
    decide +kernel
  cases hc : Loopback.connect toListener { readBufferSize := 0 } listening with
  | mk r h =>
    rw [hc] at hok
    cases r with
    | ok x => exact ⟨x, h, rfl, hconnect _ _ _ _ rfl rfl hc⟩
    | error => cases hok

/-- The configuration is let in although its buffer is empty, and a stream that is made with it
takes nothing of what is written to it, over and over again. -/
theorem emptyBuffer_spins : ∃ c, EndpointConfig.decode emptyBuffer = some c ∧
    ¬1 ≤ c.readBufferSize ∧
      let r := Loopback.connect toListener c listening
      r.1.toOption.map (fun x => (Loopback.wire.guarded.writeAll [97] ⟨true, x⟩ r.2).1) =
        some .stalled := by
  refine ⟨{ readBufferSize := 0 }, rfl, by decide, ?_⟩
  decide +kernel

end Wirebench

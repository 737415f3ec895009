import Wirebench.Duration.Basic

namespace Wirebench

structure SctpConfig where
  instreams : UInt16 := 1
  ostreams : UInt16 := 1
  deriving DecidableEq, Repr

structure TelnetConfig where
  suppressGoAhead : Bool := true
  binary : Bool := true
  deriving DecidableEq, Repr

def defaultTimeoutMilliseconds : UInt64 := 10000

def defaultReadBuffer : UInt64 := 4096

def datagramLimit : Nat := 65507

def defaultTransferSize : UInt64 := 1000

def defaultLogFilter : String := "streamio_harness=info,streamio_net=info"

structure EndpointConfig where
  connectTimeout : Duration := .ofMilliseconds defaultTimeoutMilliseconds
  readBufferSize : UInt64 := defaultReadBuffer
  sctp : SctpConfig := {}
  telnet : TelnetConfig := {}
  deriving DecidableEq, Repr

namespace EndpointConfig

def withConnectTimeout (c : EndpointConfig) (timeout : Duration) : EndpointConfig :=
  { c with connectTimeout := timeout }

/-- A read buffer of at least one byte. -/
def withReadBufferSize (c : EndpointConfig) (size : UInt64) : EndpointConfig :=
  { c with readBufferSize := max size 1 }

def withSctpStreams (c : EndpointConfig) (instreams ostreams : UInt16) : EndpointConfig :=
  { c with sctp := ⟨instreams, ostreams⟩ }

def withTelnet (c : EndpointConfig) (telnet : TelnetConfig) : EndpointConfig :=
  { c with telnet }

end EndpointConfig

structure BenchConfig where
  waitTimeout : Duration := .ofMilliseconds defaultTimeoutMilliseconds
  chunkSize : Option UInt64 := none
  transferSize : UInt64 := defaultTransferSize
  logFilter : String := defaultLogFilter
  endpoint : EndpointConfig := {}
  deriving DecidableEq, Repr

namespace BenchConfig

/-- One bound for every wait of the bench and of its endpoints. -/
def withWaitTimeout (c : BenchConfig) (timeout : Duration) : BenchConfig :=
  { c with waitTimeout := timeout, endpoint := { c.endpoint with connectTimeout := timeout } }

/-- Chunks of at least one byte. -/
def withChunkSize (c : BenchConfig) (size : UInt64) : BenchConfig :=
  { c with chunkSize := some (max size 1) }

def withTransferSize (c : BenchConfig) (size : UInt64) : BenchConfig :=
  { c with transferSize := size }

end BenchConfig

end Wirebench

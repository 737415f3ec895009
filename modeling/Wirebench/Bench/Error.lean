import Wirebench.Error

namespace Wirebench

structure Mismatch where
  what : String
  expected : String
  actual : String
  deriving DecidableEq, Repr

def Mismatch.message (m : Mismatch) : String :=
  m.what ++ " mismatch: expected '" ++ m.expected ++ "', got '" ++ m.actual ++ "'"

/-- Data that differs from what was sent: in a byte, or only in its length. -/
inductive DataMismatch
  | byte (offset : Nat) (expected actual : UInt8)
  | length (expected actual : Nat)
  deriving DecidableEq, Repr

namespace DataMismatch

def byteText (b : UInt8) : String := "0x" ++ String.ofList (Text.padded 16 2 b.toNat)

def message : DataMismatch → String
  | byte offset expected actual =>
    "Mismatch on byte " ++ String.ofList (Text.decimal offset) ++ ", expected " ++
      byteText expected ++ ", got " ++ byteText actual
  | length expected actual =>
    "Length mismatch, expected " ++ String.ofList (Text.decimal expected) ++ " bytes, got " ++
      String.ofList (Text.decimal actual)

/-- The mismatch of a piece as one of the whole in which the piece begins at an offset. -/
def shift (start : Nat) : DataMismatch → DataMismatch
  | byte offset expected actual => byte (start + offset) expected actual
  | length expected actual => length expected actual

end DataMismatch

inductive BenchError
  | stream (e : StreamError)
  | mismatch (m : Mismatch)
  | dataMismatch (m : DataMismatch)
  | stageTimeout (stage : String) (milliseconds : Nat)
  | alreadyInitialized
  deriving DecidableEq, Repr

namespace BenchError

def message : BenchError → String
  | stream e => e.message
  | mismatch m => m.message
  | dataMismatch m => m.message
  | stageTimeout stage ms =>
    "Timed out during " ++ stage ++ " after " ++ String.ofList (Text.decimal ms) ++ "ms"
  | alreadyInitialized => "Library context already initialised"

def code : BenchError → String
  | stream e => e.code
  | mismatch _ => "MISMATCH"
  | dataMismatch _ => "DATA_MISMATCH"
  | stageTimeout .. => "TIMEOUT"
  | alreadyInitialized => "ALREADY_INITIALIZED"

def isAssertion : BenchError → Bool
  | mismatch _ | dataMismatch _ => true
  | _ => false

end BenchError

end Wirebench

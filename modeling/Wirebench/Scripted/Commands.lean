import Wirebench.Relay.Escape

namespace Wirebench.Scripted

inductive CommandEntry
  | command (c : UInt8)
  | sequence (bytes : List UInt8)
  deriving DecidableEq, Repr

/-- How a handler deals with commands: which of them begin a sequence, which are sent on to the far
side, and which fail. -/
structure Commands where
  collect : List UInt8
  echo : List UInt8
  fail : List UInt8
  /-- Sequences are sent on to the far side. -/
  echoSequences : Bool
  /-- Sequences are ignored altogether. -/
  quiet : Bool
  deriving DecidableEq, Repr

namespace Commands

variable {S W : Type}

def command (script : Commands) (io : Wire S W) (c : UInt8) (record : List CommandEntry) (far : S)
    (w : W) : Outcome Bool × List CommandEntry × S × W :=
  let record := record ++ [.command c]
  if c ∈ script.fail then
    (.error (.notSupported ("escape " ++ String.ofList (Text.decimal c.toNat))), record, far, w)
  else if c ∈ script.echo then
    let (r, far, w) := io.writeAll [c] far w
    (r.map fun _ => script.collect.contains c, record, far, w)
  else (.ok (script.collect.contains c), record, far, w)

def sequence (script : Commands) (io : Wire S W) (bytes : List UInt8)
    (record : List CommandEntry) (far : S) (w : W) : Outcome Unit × List CommandEntry × S × W :=
  if script.quiet then (.ok (), record, far, w)
  else
    let record := record ++ [.sequence bytes]
    if script.echoSequences then
      let (r, far, w) := io.writeAll bytes far w
      (r, record, far, w)
    else (.ok (), record, far, w)

def handler (script : Commands) (io : Wire S W) : Relay.Handler (List CommandEntry) S W where
  command := script.command io
  sequence := script.sequence io

end Commands

end Wirebench.Scripted

import Wirebench.Descriptor.Basic
import Wirebench.Text.Blank
import Wirebench.Text.Split

namespace Wirebench.Descriptor

/-- The filters that a field list begins with, and the fields after them. -/
def takeFilters : List (List Char) → List Filter × List (List Char)
  | [] => ([], [])
  | field :: fields =>
    match Filter.ofToken? (String.ofList field) with
    | some f => ((f :: (takeFilters fields).1), (takeFilters fields).2)
    | none => ([], field :: fields)

/-- An empty port field is pending; any other must be a number of sixteen bits. -/
def readPort (field : List Char) : Except DescriptorFault (Option UInt16) :=
  if field.isEmpty then .ok none
  else
    match Text.decimal? 65535 field with
    | some n => .ok (some (UInt16.ofNat n))
    | none => .error (.invalidPort (String.ofList field))

def readAddress : List (List Char) → Except DescriptorFault (Option String × Option UInt16)
  | [] => .error .missingPort
  | [port] => do return (none, ← readPort port)
  | [host, port] =>
    if host.isEmpty then .error .emptyHost
    else do return (some (String.ofList host), ← readPort port)
  | _ => .error .tooManyFields

def fields (s : String) : List (List Char) := (Text.split ',' s.toList).map Text.trim

/-- Read the wire form, with blanks allowed around every field. -/
def parse (s : String) : Except StreamError Descriptor :=
  let (filters, rest) := takeFilters (fields s)
  match rest with
  | [] => .error (.invalidDescriptor s .missingProtocol)
  | token :: rest =>
    if token.isEmpty then .error (.invalidDescriptor s .missingProtocol)
    else if '(' ∈ token then .error (.invalidDescriptor s .protocolOptions)
    else do
      let protocol ← Protocol.parse (String.ofList token)
      match readAddress rest with
      | .ok (host, port) => .ok ⟨filters, ⟨protocol, host, port⟩⟩
      | .error fault => .error (.invalidDescriptor s fault)

end Wirebench.Descriptor

import Wirebench.Json.Basic

namespace Wirebench.Script

def hexBytes? : List Char → Option (List UInt8)
  | [] => some []
  | [_] => none
  | a :: b :: cs => do
    let high ← Text.digitValue? 16 a
    let low ← Text.digitValue? 16 b
    return UInt8.ofNat (high * 16 + low) :: (← hexBytes? cs)

def hexChars (bs : List UInt8) : List Char := bs.flatMap fun b => Text.padded 16 2 b.toNat

def decodeBytes (j : Json) : Option (List UInt8) :=
  match j with
  | .string s => hexBytes? s.toList
  | j => do
    let unit ← hexBytes? (← j.get Json.string? "repeat").toList
    return (List.replicate (← j.get Json.nat? "times") unit).flatten

/-- The sum of the bytes, each multiplied by its position from one on, modulo 65521. -/
def weightedSum (bs : List UInt8) : Nat :=
  (bs.foldl (fun (place, sum) b => (place + 1, (sum + place * b.toNat) % 65521)) (1, 0)).2

def fullLength : Nat := 1024

def encodeBytes (bs : List UInt8) : Json :=
  let hex (bs : List UInt8) : Json := .string (String.ofList (hexChars bs))
  if bs.length ≤ fullLength then hex bs
  else
    .object [("len", .nat bs.length), ("head", hex (bs.take 16)),
      ("tail", hex (bs.drop (bs.length - 16))), ("sum", .nat (weightedSum bs))]

end Wirebench.Script

import Wirebench.Address.Ip

namespace Wirebench.Ipv4

/-- A number up to a limit: hexadecimal after `0x`, octal after another zero, else decimal. -/
def readNumber? (limit : Nat) : List Char → Option Nat
  | [] => none
  | '0' :: x :: cs =>
    if (x = 'x' ∨ x = 'X') ∧ cs ≠ [] then (Text.readDigits 16 limit 0 cs).toOption
    else (Text.readDigits 8 limit 0 (x :: cs)).toOption
  | cs => (Text.readDigits 10 limit 0 cs).toOption

/-- The number that some parts make up in so many octets: one octet for each part but the last,
which takes the others. -/
def readParts? : (octets : Nat) → List (List Char) → Option Nat
  | 0, _ | _ + 1, [] => none
  | n + 1, [last] => readNumber? (Nat.pow 256 (n + 1) - 1) last
  | n + 1, part :: parts => do
    return (← readNumber? 255 part) * Nat.pow 256 n + (← readParts? n parts)

def ofNat (n : Nat) : Ipv4 :=
  ⟨UInt8.ofNat (n / 16777216), UInt8.ofNat (n / 65536), UInt8.ofNat (n / 256), UInt8.ofNat n⟩

def ofShorthand? (cs : List Char) : Option Ipv4 :=
  (readParts? 4 (Text.split '.' cs)).map ofNat

end Wirebench.Ipv4

import Wirebench.Text.Numeral
import Wirebench.Text.Split

namespace Wirebench

structure Ipv4 where
  a : UInt8
  b : UInt8
  c : UInt8
  d : UInt8
  deriving DecidableEq, Repr

namespace Ipv4

def octets (ip : Ipv4) : List UInt8 := [ip.a, ip.b, ip.c, ip.d]

def unspecified : Ipv4 := ⟨0, 0, 0, 0⟩

def localhost : Ipv4 := ⟨127, 0, 0, 1⟩

def textChars (ip : Ipv4) : List Char :=
  Text.join ['.'] (ip.octets.map fun o => Text.decimal o.toNat)

/-- One to three digits without a superfluous zero, of value at most 255. -/
def readOctet? (cs : List Char) : Option UInt8 :=
  if cs.isEmpty ∨ 3 < cs.length ∨ (cs.head? = some '0' ∧ 1 < cs.length) then none
  else ((Text.readDigits 10 255 0 cs).toOption).map UInt8.ofNat

def parse? (cs : List Char) : Option Ipv4 :=
  match Text.split '.' cs with
  | [a, b, c, d] => do
    return ⟨← readOctet? a, ← readOctet? b, ← readOctet? c, ← readOctet? d⟩
  | _ => none

/-- The two sixteen-bit words of an address, most significant octet first. -/
def words (ip : Ipv4) : List UInt16 :=
  [ip.a.toUInt16 * 256 + ip.b.toUInt16, ip.c.toUInt16 * 256 + ip.d.toUInt16]

def ofWords (hi lo : UInt16) : Ipv4 :=
  ⟨(hi / 256).toUInt8, hi.toUInt8, (lo / 256).toUInt8, lo.toUInt8⟩

end Ipv4

/-- Eight sixteen-bit words, most significant first. -/
structure Ipv6 where
  w0 : UInt16
  w1 : UInt16
  w2 : UInt16
  w3 : UInt16
  w4 : UInt16
  w5 : UInt16
  w6 : UInt16
  w7 : UInt16
  deriving DecidableEq, Repr

namespace Ipv6

def words (ip : Ipv6) : List UInt16 :=
  [ip.w0, ip.w1, ip.w2, ip.w3, ip.w4, ip.w5, ip.w6, ip.w7]

def ofWords? : List UInt16 → Option Ipv6
  | [w0, w1, w2, w3, w4, w5, w6, w7] => some ⟨w0, w1, w2, w3, w4, w5, w6, w7⟩
  | _ => none

@[simp] theorem ofWords?_words (ip : Ipv6) : ofWords? ip.words = some ip := rfl

def unspecified : Ipv6 := ⟨0, 0, 0, 0, 0, 0, 0, 0⟩

/-- The IPv4 address that an address of the form `::ffff:a.b.c.d` carries. -/
def mapped? (ip : Ipv6) : Option Ipv4 :=
  if ip.w0 = 0 ∧ ip.w1 = 0 ∧ ip.w2 = 0 ∧ ip.w3 = 0 ∧ ip.w4 = 0 ∧ ip.w5 = 0xffff then
    some (Ipv4.ofWords ip.w6 ip.w7)
  else none

def zeroRun : List UInt16 → Nat
  | [] => 0
  | w :: ws => if w = 0 then zeroRun ws + 1 else 0

/-- Start and length of the longest run of zeros, the first of the longest. -/
def longestZeroRun : List UInt16 → Nat × Nat
  | [] => (0, 0)
  | w :: ws =>
    if (longestZeroRun ws).2 ≤ zeroRun (w :: ws) then (0, zeroRun (w :: ws))
    else ((longestZeroRun ws).1 + 1, (longestZeroRun ws).2)

def groups (ws : List UInt16) : List Char :=
  Text.join [':'] (ws.map fun w => Text.hexadecimal w.toNat)

/-- Lower-case groups with the longest run of two or more zeros as `::`, or the mapped form. -/
def textChars (ip : Ipv6) : List Char :=
  match ip.mapped? with
  | some v4 => "::ffff:".toList ++ v4.textChars
  | none =>
    let run := longestZeroRun ip.words
    if 2 ≤ run.2 then
      groups (ip.words.take run.1) ++ [':', ':'] ++ groups (ip.words.drop (run.1 + run.2))
    else groups ip.words

def readGroup? (cs : List Char) : Option UInt16 :=
  if cs.isEmpty ∨ 4 < cs.length then none
  else ((Text.readDigits 16 65535 0 cs).toOption).map UInt16.ofNat

/-- The words of a list of groups, of which the last may be an IPv4 address if `tail` allows it. -/
def readWords? (tail : Bool) : List (List Char) → Option (List UInt16)
  | [] => some []
  | [g] =>
    match readGroup? g with
    | some w => some [w]
    | none => if tail then (Ipv4.parse? g).map Ipv4.words else none
  | g :: gs => do return (← readGroup? g) :: (← readWords? tail gs)

/-- The words on one side of `::`, where nothing may stand. -/
def readSide? (tail : Bool) (cs : List Char) : Option (List UInt16) :=
  if cs.isEmpty then some [] else readWords? tail (Text.split ':' cs)

/-- The texts before and after the first `::`. -/
def splitElision : List Char → Option (List Char × List Char)
  | [] => none
  | ':' :: ':' :: cs => some ([], cs)
  | c :: cs => (splitElision cs).map fun p => (c :: p.1, p.2)

/-- Read eight groups, or fewer around one `::` that stands for at least one zero group. -/
def parse? (cs : List Char) : Option Ipv6 :=
  match splitElision cs with
  | none => do ofWords? (← readSide? true cs)
  | some (left, right) => do
    let ls ← readSide? false left
    let rs ← readSide? true right
    if ls.length + rs.length ≤ 7 then
      ofWords? (ls ++ List.replicate (8 - (ls.length + rs.length)) 0 ++ rs)
    else none

end Ipv6

end Wirebench

import Wirebench.Address.Basic

namespace Wirebench.PackedAddresses

def familyV4 : Nat := 2

def familyV6 : Nat := 10

def littleEndian : List UInt8 → Nat
  | [] => 0
  | b :: bs => b.toNat + 256 * littleEndian bs

def bigEndian (bs : List UInt8) : Nat := littleEndian bs.reverse

def toLittleEndian : Nat → Nat → List UInt8
  | 0, _ => []
  | n + 1, v => UInt8.ofNat v :: toLittleEndian n (v / 256)

def wordsOf : List UInt8 → List UInt16
  | hi :: lo :: bs => (hi.toUInt16 * 256 + lo.toUInt16) :: wordsOf bs
  | _ => []

/-- The record at the front of a buffer, with the bytes after it. -/
def readRecord? : List UInt8 → Option (SocketAddress × List UInt8)
  | f0 :: f1 :: p0 :: p1 :: rest =>
    let port := UInt16.ofNat (bigEndian [p0, p1])
    let family := littleEndian [f0, f1]
    if family = familyV4 ∧ 12 ≤ rest.length then
      match rest with
      | a :: b :: c :: d :: _ => some (.v4 ⟨a, b, c, d⟩ port, rest.drop 12)
      | _ => none
    else if family = familyV6 ∧ 24 ≤ rest.length then
      (Ipv6.ofWords? (wordsOf ((rest.drop 4).take 16))).map fun ip =>
        (.v6 ip port 0 (UInt32.ofNat (littleEndian ((rest.drop 20).take 4))), rest.drop 24)
    else none
  | _ => none

def readRecords : Nat → List UInt8 → List SocketAddress
  | 0, _ => []
  | count + 1, bytes =>
    match readRecord? bytes with
    | some (a, rest) => a :: readRecords count rest
    | none => []

/-- The addresses of a packed list; a buffer without its header has none. -/
def decode (bytes : List UInt8) : List SocketAddress :=
  if bytes.length < 8 then []
  else readRecords (littleEndian ((bytes.drop 4).take 4)) (bytes.drop 8)

/-- A record, with the bytes that an IPv4 record carries unused. -/
def writeRecord (unused : List UInt8) : SocketAddress → List UInt8
  | .v4 ip p =>
    toLittleEndian 2 familyV4 ++ (toLittleEndian 2 p.toNat).reverse ++ ip.octets ++ unused
  | .v6 ip p flow scope =>
    toLittleEndian 2 familyV6 ++ (toLittleEndian 2 p.toNat).reverse ++
      (toLittleEndian 4 flow.toNat).reverse ++
      ip.words.flatMap (fun w => (toLittleEndian 2 w.toNat).reverse) ++
      toLittleEndian 4 scope.toNat

end Wirebench.PackedAddresses

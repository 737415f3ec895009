import Mathlib.Algebra.Group.Nat.Defs
import Mathlib.Data.List.Basic
import Wirebench.Address.Packed

namespace Wirebench

namespace SocketAddress

def flow : SocketAddress → UInt32
  | v4 .. => 0
  | v6 _ _ flow _ => flow

/-- The address without flow information, which is skipped in a packed list. -/
def flowless : SocketAddress → SocketAddress
  | v4 ip p => v4 ip p
  | v6 ip p _ scope => v6 ip p 0 scope

theorem flowless_eq_self_iff (a : SocketAddress) : a.flowless = a ↔ a.flow = 0 := by
  cases a with
  | v4 ip p => exact iff_of_true rfl rfl
  | v6 ip p flow scope =>
    constructor
    · intro h
      cases h
      rfl
    · rintro rfl
      rfl

end SocketAddress

namespace PackedAddresses

@[simp] theorem length_toLittleEndian (n v : Nat) : (toLittleEndian n v).length = n := by
  induction n generalizing v with
  | zero => rfl
  | succ n ih => rw [toLittleEndian, List.length_cons, ih]

theorem littleEndian_lt (bytes : List UInt8) : littleEndian bytes < 256 ^ bytes.length := by
  induction bytes with
  | nil => exact Nat.one_pos
  | cons b bytes ih =>
    have hb := b.toNat_lt
    rw [littleEndian, List.length_cons, Nat.pow_succ]
    omega

theorem littleEndian_toLittleEndian {n v : Nat} (h : v < 256 ^ n) :
    littleEndian (toLittleEndian n v) = v := by
  induction n generalizing v with
  | zero => exact (Nat.lt_one_iff.1 h).symm
  | succ n ih =>
    have hrest : v / 256 < 256 ^ n := by
      rw [Nat.pow_succ] at h
      exact Nat.div_lt_of_lt_mul (Nat.mul_comm _ _ ▸ h)
    rw [toLittleEndian, littleEndian, ih hrest, UInt8.toNat_ofNat']
    exact Nat.mod_add_div v 256

theorem toLittleEndian_littleEndian (bytes : List UInt8) :
    toLittleEndian bytes.length (littleEndian bytes) = bytes := by
  induction bytes with
  | nil => rfl
  | cons b bytes ih =>
    have hb := b.toNat_lt
    have hfirst : (b.toNat + 256 * littleEndian bytes) % 256 = b.toNat := by omega
    have hrest : (b.toNat + 256 * littleEndian bytes) / 256 = littleEndian bytes := by omega
    rw [List.length_cons, littleEndian, toLittleEndian, hrest, ih]
    congr 1
    apply UInt8.toNat_inj.1
    rw [UInt8.toNat_ofNat', hfirst]

theorem toLittleEndian_ofNat {bytes : List UInt8} (h : bytes.length = 4) :
    toLittleEndian 4 (UInt32.ofNat (littleEndian bytes)).toNat = bytes := by
  have hlt : littleEndian bytes < 256 ^ 4 := h ▸ littleEndian_lt bytes
  rw [UInt32.toNat_ofNat_of_lt' hlt, ← h, toLittleEndian_littleEndian]

def wordBytes (w : UInt16) : List UInt8 := (toLittleEndian 2 w.toNat).reverse

theorem ofNat_wordBytes (w : UInt16) : UInt16.ofNat (bigEndian (wordBytes w)) = w := by
  have hlt : w.toNat < 256 ^ 2 := w.toNat_lt
  rw [bigEndian, wordBytes, List.reverse_reverse, littleEndian_toLittleEndian hlt,
    UInt16.ofNat_toNat]

theorem wordBytes_ofNat (hi lo : UInt8) :
    wordBytes (UInt16.ofNat (bigEndian [hi, lo])) = [hi, lo] := by
  have hlt : littleEndian [lo, hi] < 256 ^ 2 := littleEndian_lt [lo, hi]
  have hbytes : toLittleEndian 2 (littleEndian [lo, hi]) = [lo, hi] :=
    toLittleEndian_littleEndian [lo, hi]
  have hreverse : bigEndian [hi, lo] = littleEndian [lo, hi] := rfl
  rw [wordBytes, hreverse, UInt16.toNat_ofNat_of_lt' hlt, hbytes]
  rfl

theorem wordsOf_cons_cons (hi lo : UInt8) (bytes : List UInt8) :
    wordsOf (hi :: lo :: bytes) = UInt16.ofNat (bigEndian [hi, lo]) :: wordsOf bytes := by
  have hvalue : bigEndian [hi, lo] = lo.toNat + 256 * (hi.toNat + 256 * 0) := rfl
  have hplace : (256 : UInt16).toNat = 256 := rfl
  have hhi := hi.toNat_lt
  have hlo := lo.toNat_lt
  rw [wordsOf]
  congr 1
  apply UInt16.toNat_inj.1
  simp only [UInt16.toNat_add, UInt16.toNat_mul, UInt8.toNat_toUInt16, UInt16.toNat_ofNat', hplace,
    hvalue]
  omega

theorem wordsOf_flatMap (words : List UInt16) : wordsOf (words.flatMap wordBytes) = words := by
  induction words with
  | nil => rfl
  | cons w words ih =>
    rw [List.flatMap_cons]
    show wordsOf (_ :: _ :: words.flatMap wordBytes) = w :: words
    rw [wordsOf_cons_cons, ih]
    congr 1
    exact ofNat_wordBytes w

theorem flatMap_wordsOf {n : Nat} {bytes : List UInt8} (h : bytes.length = 2 * n) :
    (wordsOf bytes).flatMap wordBytes = bytes := by
  induction n generalizing bytes with
  | zero =>
    obtain rfl := List.length_eq_zero_iff.1 h
    rfl
  | succ n ih =>
    match bytes with
    | [] => cases h
    | [_] =>
      rw [List.length_singleton] at h
      omega
    | hi :: lo :: bytes =>
      have hrest : bytes.length = 2 * n := by
        rw [List.length_cons, List.length_cons] at h
        omega
      rw [wordsOf_cons_cons, List.flatMap_cons, wordBytes_ofNat, ih hrest]
      rfl

theorem words_of_ofWords? {words : List UInt16} {ip : Ipv6} (h : Ipv6.ofWords? words = some ip) :
    ip.words = words := by
  unfold Ipv6.ofWords? at h
  split at h
  · cases h
    rfl
  · cases h

/-- A record as it stands in a buffer. The unused bytes are those of an IPv4 record. -/
structure Slot where
  address : SocketAddress
  unused : List UInt8
  length_unused : unused.length = 8

def Slot.bytes (s : Slot) : List UInt8 := writeRecord s.unused s.address

theorem length_flatMap_wordBytes (words : List UInt16) :
    (words.flatMap wordBytes).length = 2 * words.length := by
  induction words with
  | nil => rfl
  | cons w words ih =>
    rw [List.flatMap_cons, List.length_append, ih, wordBytes, List.length_reverse,
      length_toLittleEndian, List.length_cons]
    omega

theorem readRecord?_v4 (p₀ p₁ : UInt8) (ip : Ipv4) {unused : List UInt8} (h : unused.length = 8)
    (rest : List UInt8) :
    readRecord? (2 :: 0 :: p₀ :: p₁ :: ip.a :: ip.b :: ip.c :: ip.d :: (unused ++ rest)) =
      some (.v4 ip (UInt16.ofNat (bigEndian [p₀, p₁])), rest) := by
  have htail : (ip.octets ++ unused).length = 12 := by
    rw [List.length_append, h]
    rfl
  have hlen : 12 ≤ (ip.octets ++ unused ++ rest).length := by
    rw [List.length_append, htail]
    exact Nat.le_add_right 12 _
  have hend : (ip.octets ++ unused ++ rest).drop 12 = rest := List.drop_left' htail
  rw [readRecord?.eq_def]
  dsimp only
  rw [if_pos ⟨rfl, hlen⟩]
  exact congrArg (fun rest => some (_, rest)) hend

theorem readRecord?_v6 (p₀ p₁ : UInt8) {flow words scope : List UInt8} (hflow : flow.length = 4)
    (hwords : words.length = 16) (hscope : scope.length = 4) (rest : List UInt8) :
    readRecord? (10 :: 0 :: p₀ :: p₁ :: (flow ++ (words ++ (scope ++ rest)))) =
      (Ipv6.ofWords? (wordsOf words)).map fun ip =>
        (.v6 ip (UInt16.ofNat (bigEndian [p₀, p₁])) 0 (UInt32.ofNat (littleEndian scope)),
          rest) := by
  have hlen : 24 ≤ (flow ++ (words ++ (scope ++ rest))).length := by
    simp only [List.length_append, hflow, hwords, hscope]
    omega
  have hfour : (flow ++ (words ++ (scope ++ rest))).drop 4 = words ++ (scope ++ rest) :=
    List.drop_left' hflow
  have htwenty : (flow ++ (words ++ (scope ++ rest))).drop (4 + 16) = scope ++ rest := by
    rw [← List.drop_drop, hfour, List.drop_left' hwords]
  have hend : (flow ++ (words ++ (scope ++ rest))).drop (4 + 16 + 4) = rest := by
    rw [← List.drop_drop, htwenty, List.drop_left' hscope]
  rw [readRecord?.eq_def]
  dsimp only
  rw [if_neg (fun h => absurd h.1 (by decide)), if_pos ⟨rfl, hlen⟩, hfour, htwenty, hend,
    List.take_left' hwords, List.take_left' hscope]

theorem readRecord?_bytes (s : Slot) (rest : List UInt8) :
    readRecord? (s.bytes ++ rest) = some (s.address.flowless, rest) := by
  obtain ⟨address, unused, hunused⟩ := s
  cases address with
  | v4 ip p =>
    have hport := ofNat_wordBytes p
    show readRecord? (2 :: 0 :: _ :: _ :: ip.a :: ip.b :: ip.c :: ip.d :: (unused ++ rest)) = _
    rw [readRecord?_v4 _ _ ip hunused]
    exact congrArg (fun p => some (SocketAddress.v4 ip p, rest)) hport
  | v6 ip p flow scope =>
    let flowBytes := (toLittleEndian 4 flow.toNat).reverse
    let scopeBytes := toLittleEndian 4 scope.toNat
    have hflow : flowBytes.length = 4 := rfl
    have hwords : (ip.words.flatMap wordBytes).length = 16 := length_flatMap_wordBytes ip.words
    have hport := ofNat_wordBytes p
    have hscope : UInt32.ofNat (littleEndian scopeBytes) = scope := by
      have hlt : scope.toNat < 256 ^ 4 := scope.toNat_lt
      rw [littleEndian_toLittleEndian hlt, UInt32.ofNat_toNat]
    have hshape : Slot.bytes ⟨.v6 ip p flow scope, unused, hunused⟩ ++ rest =
        10 :: 0 :: _ :: _ :: (flowBytes ++ (ip.words.flatMap wordBytes ++ (scopeBytes ++ rest))) :=
      rfl
    rw [hshape, readRecord?_v6 _ _ hflow hwords rfl, wordsOf_flatMap, Ipv6.ofWords?_words, hscope]
    exact congrArg (fun p => some (SocketAddress.v6 ip p 0 scope, rest)) hport

theorem family_bytes {f₀ f₁ : UInt8} {family : Nat} (h : littleEndian [f₀, f₁] = family) :
    f₀ = UInt8.ofNat family ∧ f₁ = UInt8.ofNat (family / 256) := by
  have hbytes : toLittleEndian 2 (littleEndian [f₀, f₁]) = [f₀, f₁] :=
    toLittleEndian_littleEndian [f₀, f₁]
  rw [h] at hbytes
  cases hbytes
  exact ⟨rfl, rfl⟩

theorem exists_front {n : Nat} {bytes : List UInt8} (h : n ≤ bytes.length) :
    ∃ front back, bytes = front ++ back ∧ front.length = n :=
  ⟨bytes.take n, bytes.drop n, (List.take_append_drop n bytes).symm, List.length_take_of_le h⟩

theorem exists_slot_v4 {p₀ p₁ : UInt8} {tail rest : List UInt8} {a : SocketAddress}
    (hlen : 12 ≤ tail.length) (h : readRecord? (2 :: 0 :: p₀ :: p₁ :: tail) = some (a, rest)) :
    ∃ s : Slot, s.address.flowless = a ∧ 2 :: 0 :: p₀ :: p₁ :: tail = s.bytes ++ rest := by
  obtain ⟨octets, tail, rfl, hoctets⟩ := exists_front (Nat.le_trans (by decide : 4 ≤ 12) hlen)
  match octets with
  | [a, b, c, d] =>
    rw [List.length_append] at hlen
    have hlen₁ : 8 ≤ tail.length := Nat.le_of_add_le_add_left hlen
    obtain ⟨unused, tail, rfl, hunused⟩ := exists_front hlen₁
    have hread := readRecord?_v4 p₀ p₁ ⟨a, b, c, d⟩ hunused tail
    obtain ⟨rfl, rfl⟩ := Prod.mk.inj (Option.some.inj (hread.symm.trans h))
    refine ⟨⟨.v4 ⟨a, b, c, d⟩ _, unused, hunused⟩, rfl, ?_⟩
    exact congrArg (2 :: 0 :: · ++ [a, b, c, d] ++ unused ++ tail) (wordBytes_ofNat p₀ p₁).symm

theorem exists_slot_v6 {p₀ p₁ : UInt8} {tail rest : List UInt8} {a : SocketAddress}
    (hlen : 24 ≤ tail.length) (h : readRecord? (10 :: 0 :: p₀ :: p₁ :: tail) = some (a, rest)) :
    ∃ s : Slot, s.address.flowless = a ∧ 10 :: 0 :: p₀ :: p₁ :: tail = s.bytes ++ rest := by
  obtain ⟨flow, tail, rfl, hflow⟩ := exists_front (Nat.le_trans (by decide : 4 ≤ 24) hlen)
  rw [List.length_append, hflow] at hlen
  have hlen₁ : 20 ≤ tail.length := Nat.le_of_add_le_add_left hlen
  obtain ⟨words, tail, rfl, hwords⟩ := exists_front (Nat.le_trans (by decide : 16 ≤ 20) hlen₁)
  rw [List.length_append, hwords] at hlen₁
  have hlen₂ : 4 ≤ tail.length := Nat.le_of_add_le_add_left hlen₁
  obtain ⟨scope, tail, rfl, hscope⟩ := exists_front hlen₂
  rw [readRecord?_v6 p₀ p₁ hflow hwords hscope] at h
  obtain ⟨ip, hip, hread⟩ := Option.map_eq_some_iff.1 h
  obtain ⟨rfl, rfl⟩ := Prod.mk.inj hread
  have hflowBytes : (toLittleEndian 4 (UInt32.ofNat (bigEndian flow)).toNat).reverse = flow := by
    rw [bigEndian, toLittleEndian_ofNat ((List.length_reverse).trans hflow), List.reverse_reverse]
  refine ⟨⟨.v6 ip _ (UInt32.ofNat (bigEndian flow)) _, List.replicate 8 0, rfl⟩, rfl, ?_⟩
  show _ = toLittleEndian 2 familyV6 ++ wordBytes _ ++ (toLittleEndian 4 _).reverse ++
    ip.words.flatMap wordBytes ++ toLittleEndian 4 _ ++ tail
  rw [wordBytes_ofNat, hflowBytes, words_of_ofWords? hip, flatMap_wordsOf (n := 8) hwords,
    toLittleEndian_ofNat hscope]
  simp only [List.append_assoc]
  rfl

theorem exists_slot_of_readRecord? {bytes rest : List UInt8} {a : SocketAddress}
    (h : readRecord? bytes = some (a, rest)) :
    ∃ s : Slot, s.address.flowless = a ∧ bytes = s.bytes ++ rest := by
  match bytes with
  | [] | [_] | [_, _] | [_, _, _] => cases h
  | f₀ :: f₁ :: p₀ :: p₁ :: tail =>
    by_cases hv4 : littleEndian [f₀, f₁] = familyV4 ∧ 12 ≤ tail.length
    · obtain ⟨rfl, rfl⟩ := family_bytes hv4.1
      exact exists_slot_v4 hv4.2 h
    by_cases hv6 : littleEndian [f₀, f₁] = familyV6 ∧ 24 ≤ tail.length
    · obtain ⟨rfl, rfl⟩ := family_bytes hv6.1
      exact exists_slot_v6 hv6.2 h
    · rw [readRecord?.eq_def] at h
      dsimp only at h
      rw [if_neg hv4, if_neg hv6] at h
      cases h

theorem readRecord?_append {bytes rest : List UInt8} {a : SocketAddress}
    (h : readRecord? bytes = some (a, rest)) (more : List UInt8) :
    readRecord? (bytes ++ more) = some (a, rest ++ more) := by
  obtain ⟨s, rfl, rfl⟩ := exists_slot_of_readRecord? h
  rw [List.append_assoc, readRecord?_bytes]

theorem readRecords_append (count : Nat) (bytes more : List UInt8) :
    readRecords count bytes <+: readRecords count (bytes ++ more) := by
  induction count generalizing bytes with
  | zero => exact List.prefix_refl []
  | succ count ih =>
    rw [readRecords, readRecords]
    cases h : readRecord? bytes with
    | none => exact List.nil_prefix
    | some x =>
      obtain ⟨a, rest⟩ := x
      rw [readRecord?_append h]
      exact (List.prefix_cons_inj a).2 (ih rest)

theorem readRecords_bytes (slots : List Slot) (rest : List UInt8) :
    readRecords slots.length (slots.flatMap Slot.bytes ++ rest) =
      slots.map fun s => s.address.flowless := by
  induction slots with
  | nil => rfl
  | cons s slots ih =>
    rw [List.length_cons, List.flatMap_cons, List.append_assoc, readRecords, readRecord?_bytes,
      List.map_cons]
    exact congrArg (_ :: ·) ih

/-- What is read from any buffer are the records at its front, as many as there are to be or up to a
place where no record stands. -/
theorem exists_slots (count : Nat) (bytes : List UInt8) :
    ∃ (slots : List Slot) (rest : List UInt8), bytes = slots.flatMap Slot.bytes ++ rest ∧
      readRecords count bytes = (slots.map fun s => s.address.flowless) ∧ slots.length ≤ count ∧
      (slots.length < count → readRecord? rest = none) := by
  induction count generalizing bytes with
  | zero => exact ⟨[], bytes, rfl, rfl, Nat.le_refl 0, nofun⟩
  | succ count ih =>
    rw [readRecords]
    cases h : readRecord? bytes with
    | none => exact ⟨[], bytes, rfl, rfl, Nat.zero_le _, fun _ => h⟩
    | some x =>
      obtain ⟨a, tail⟩ := x
      obtain ⟨s, rfl, rfl⟩ := exists_slot_of_readRecord? h
      obtain ⟨slots, rest, rfl, hread, hcount, hend⟩ := ih tail
      refine ⟨s :: slots, rest, ?_, ?_, Nat.succ_le_succ hcount, fun h => hend ?_⟩
      · rw [List.flatMap_cons, List.append_assoc]
      · exact congrArg (_ :: ·) hread
      · exact Nat.lt_of_succ_lt_succ h

/-- How many addresses a buffer says it has. -/
def announced (bytes : List UInt8) : Nat := littleEndian ((bytes.drop 4).take 4)

/-- A buffer with the number of an association, a count, and records. -/
def pack (association count : UInt32) (slots : List Slot) : List UInt8 :=
  toLittleEndian 4 association.toNat ++ toLittleEndian 4 count.toNat ++ slots.flatMap Slot.bytes

variable {header bytes : List UInt8}

theorem announced_header (h : header.length = 8) (tail : List UInt8) :
    announced (header ++ tail) = announced header := by
  have hrest : 4 ≤ (header.drop 4).length := by
    rw [List.length_drop]
    omega
  rw [announced, announced, List.drop_append_of_le_length (by rw [h]; decide),
    List.take_append_of_le_length hrest]

theorem decode_header (h : header.length = 8) (tail : List UInt8) :
    decode (header ++ tail) = readRecords (announced header) tail := by
  have hlen : ¬(header ++ tail).length < 8 := by
    rw [List.length_append, h]
    omega
  rw [decode, if_neg hlen, List.drop_left' h, ← announced, announced_header h]

theorem decode_short (h : bytes.length < 8) : decode bytes = [] := by
  rw [decode, if_pos h]

theorem announced_pack (association count : UInt32) (slots : List Slot) (rest : List UInt8) :
    announced (pack association count slots ++ rest) = count.toNat := by
  have hlt : count.toNat < 256 ^ 4 := count.toNat_lt
  exact littleEndian_toLittleEndian hlt

theorem decode_pack (association count : UInt32) (slots : List Slot) (rest : List UInt8) :
    decode (pack association count slots ++ rest) =
      readRecords count.toNat (slots.flatMap Slot.bytes ++ rest) := by
  have hheader : (toLittleEndian 4 association.toNat ++ toLittleEndian 4 count.toNat).length = 8 :=
    rfl
  rw [← announced_pack association count slots rest, pack, List.append_assoc, decode_header hheader,
    announced_header hheader]

theorem decode_append (bytes more : List UInt8) : decode bytes <+: decode (bytes ++ more) := by
  by_cases hlen : bytes.length < 8
  · rw [decode_short hlen]
    exact List.nil_prefix
  · obtain ⟨header, tail, rfl, hheader⟩ := exists_front (Nat.not_lt.1 hlen)
    rw [List.append_assoc, decode_header hheader, decode_header hheader]
    exact readRecords_append _ tail more

theorem exists_decoded (bytes : List UInt8) :
    ∃ (slots : List Slot) (rest : List UInt8),
      bytes = bytes.take 8 ++ (slots.flatMap Slot.bytes ++ rest) ∧
      decode bytes = (slots.map fun s => s.address.flowless) ∧ slots.length ≤ announced bytes ∧
      (slots.length < announced bytes → readRecord? rest = none) := by
  by_cases hlen : bytes.length < 8
  · have htake : bytes.take 8 = bytes := List.take_of_length_le (Nat.le_of_lt hlen)
    refine ⟨[], [], ?_, decode_short hlen, Nat.zero_le _, fun _ => rfl⟩
    rw [htake]
    exact (List.append_nil bytes).symm
  · obtain ⟨header, tail, rfl, hheader⟩ := exists_front (Nat.not_lt.1 hlen)
    rw [List.take_left' hheader, decode_header hheader, announced_header hheader]
    obtain ⟨slots, rest, rfl, hdecoded⟩ := exists_slots (announced header) tail
    exact ⟨slots, rest, rfl, hdecoded⟩

theorem map_flowless_eq_iff (slots : List Slot) :
    (slots.map fun s => s.address.flowless) = slots.map Slot.address ↔
      ∀ s ∈ slots, s.address.flow = 0 := by
  rw [List.map_inj_left]
  simp only [SocketAddress.flowless_eq_self_iff]

/-- A packed list is read back whatever association it is of, whatever its unused bytes are and
whatever comes after it, and as it was if and only if no address has flow information. From any
buffer at all no more addresses are read than it says it has; they are those of whole records, which
stand in it one after another right after the header; and a part of it that is cut off at any place
gives the first of them. -/
theorem decode_inverts_pack {association count : UInt32} {slots : List Slot}
    (hcount : count.toNat = slots.length) (rest bytes : List UInt8) :
    decode (pack association count slots ++ rest) = (slots.map fun s => s.address.flowless) ∧
      (decode (pack association count slots ++ rest) = slots.map Slot.address ↔
        ∀ s ∈ slots, s.address.flow = 0) ∧
      (decode bytes).length ≤ announced bytes ∧
      (∃ (found : List Slot) (after : List UInt8),
        bytes = bytes.take 8 ++ (found.flatMap Slot.bytes ++ after) ∧
        decode bytes = (found.map fun s => s.address.flowless) ∧
        (found.length < announced bytes → readRecord? after = none)) ∧
      ∀ n, decode (bytes.take n) <+: decode bytes := by
  have hread : decode (pack association count slots ++ rest) =
      slots.map fun s => s.address.flowless := by
    rw [decode_pack, hcount, readRecords_bytes]
  obtain ⟨found, after, hbytes, hdecode, hfound, hend⟩ := exists_decoded bytes
  refine ⟨hread, ?_, ?_, ⟨found, after, hbytes, hdecode, hend⟩, fun n => ?_⟩
  · rw [hread, map_flowless_eq_iff]
  · rw [hdecode, List.length_map]
    exact hfound
  · have hcut := decode_append (bytes.take n) (bytes.drop n)
    rwa [List.take_append_drop] at hcut

/-- An address of each family, with unused bytes that are not zero, before the beginning of another
record. -/
theorem decode_inverts_pack_bothFamilies :
    let slots : List Slot := [⟨.v4 .localhost 3023, [1, 2, 3, 4, 5, 6, 7, 8], rfl⟩,
      ⟨.v6 ⟨0xfe80, 0, 0, 0, 0, 0, 0, 1⟩ 1 0 3, List.replicate 8 0, rfl⟩]
    (2 : UInt32).toNat = slots.length ∧
      decode (pack 0xfffffffb 2 slots ++ [2, 0, 1]) = slots.map Slot.address := by
  intro slots
  have hflow : ∀ s ∈ slots, s.address.flow = 0 := by decide
  exact ⟨rfl, (decode_inverts_pack rfl [2, 0, 1] []).2.1.2 hflow⟩

end PackedAddresses

end Wirebench

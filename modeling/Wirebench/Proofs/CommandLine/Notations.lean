import Wirebench.CommandLine.Escape
import Wirebench.Proofs.Text.Positional

namespace Wirebench.CommandLine

variable {c : Char} {cs : List Char} {b v : UInt8} {bs : List UInt8} {s : String}

inductive EscapeNotation
  | character
  | control
  | number
  deriving DecidableEq

/-- An argument, as it is in UTF-8, stands for a byte in some notation. -/
inductive Denotes : EscapeNotation → String → UInt8 → Prop
  | character {s : String} {b : UInt8} : s.toUTF8 = [b].toByteArray → Denotes .character s b
  /-- After a caret, the upper case of a byte counts from `@` on. -/
  | control {s : String} {b u : UInt8} : s.toUTF8 = ['^'.toUInt8, b].toByteArray →
    (Char.ofUInt8 b).toUpper = Char.ofUInt8 u → '@'.toUInt8 ≤ u → u ≤ '_'.toUInt8 →
    Denotes .control s (u - '@'.toUInt8)
  | number {s : String} {digits : List Char} {v : UInt8} : s.toList = '0' :: 'x' :: digits →
    Text.IsNumeral 16 digits v.toNat → Denotes .number s v

/-- The argument that a fault names. -/
def EscapeFault.text : EscapeFault → String
  | noControlCharacter text | unknownNotation text | badNumber text _ => text

theorem utf8EncodeChar_of_byteOf? (h : byteOf? c = some b) : String.utf8EncodeChar c = [b] := by
  rw [byteOf?] at h
  split at h
  · next hlt =>
    cases h
    exact if_pos (Nat.le_of_lt_succ hlt)
  · cases h

theorem utf8EncodeChar_of_byteOf?_eq_none (h : byteOf? c = none) :
    ∃ x y more, String.utf8EncodeChar c = x :: y :: more ∧ 128 ≤ x := by
  have hlarge : ¬c.val.toNat ≤ 127 := by
    intro hle
    have hlt : c.toNat < 128 := Nat.lt_succ_of_le hle
    rw [byteOf?, if_pos hlt] at h
    cases h
  rw [String.utf8EncodeChar, if_neg hlarge]
  split
  · refine ⟨_, _, _, rfl, UInt8.le_iff_toNat_le.2 ?_⟩
    rw [UInt8.toNat_ofNat']
    show 128 ≤ _
    omega
  · split
    · refine ⟨_, _, _, rfl, UInt8.le_iff_toNat_le.2 ?_⟩
      rw [UInt8.toNat_ofNat']
      show 128 ≤ _
      omega
    · refine ⟨_, _, _, rfl, UInt8.le_iff_toNat_le.2 ?_⟩
      rw [UInt8.toNat_ofNat']
      show 128 ≤ _
      omega

theorem toNat_ofUInt8 (b : UInt8) : (Char.ofUInt8 b).toNat = b.toNat := UInt8.toNat_toUInt32 b

theorem eq_ofUInt8_of_byteOf? (h : byteOf? c = some b) : c = Char.ofUInt8 b := by
  rw [byteOf?] at h
  split at h
  · next hlt =>
    cases h
    apply Char.toNat_inj.1
    rw [toNat_ofUInt8, UInt8.toNat_ofNat', Nat.mod_eq_of_lt (Nat.lt_trans hlt (by decide))]
  · cases h

/-- The first byte is a character, or the first character has more bytes. -/
theorem first_of_flatMap (h : cs.flatMap String.utf8EncodeChar = b :: bs) :
    ∃ c rest, cs = c :: rest ∧
      (byteOf? c = some b ∧ rest.flatMap String.utf8EncodeChar = bs ∨ 128 ≤ b ∧ bs ≠ []) := by
  cases cs with
  | nil => cases h
  | cons c rest =>
    refine ⟨c, rest, rfl, ?_⟩
    rw [List.flatMap_cons] at h
    cases hc : byteOf? c with
    | some b' =>
      rw [utf8EncodeChar_of_byteOf? hc] at h
      cases h
      exact .inl ⟨rfl, rfl⟩
    | none =>
      obtain ⟨x, y, more, hbytes, hx⟩ := utf8EncodeChar_of_byteOf?_eq_none hc
      rw [hbytes] at h
      cases h
      exact .inr ⟨hx, List.cons_ne_nil _ _⟩

theorem flatMap_cons_of_byteOf? (h : byteOf? c = some b) (cs : List Char) :
    (c :: cs).flatMap String.utf8EncodeChar = b :: cs.flatMap String.utf8EncodeChar := by
  rw [List.flatMap_cons, utf8EncodeChar_of_byteOf? h]
  rfl

theorem flatMap_eq_singleton_iff :
    cs.flatMap String.utf8EncodeChar = [b] ↔ ∃ c, cs = [c] ∧ byteOf? c = some b := by
  constructor
  · intro h
    obtain ⟨c, rest, rfl, ⟨hc, hrest⟩ | ⟨-, hmore⟩⟩ := first_of_flatMap h
    · have hnil : rest = [] := List.eq_nil_iff_forall_not_mem.2 fun d hd =>
        String.utf8EncodeChar_ne_nil (List.flatMap_eq_nil_iff.1 hrest d hd)
      exact ⟨c, by rw [hnil], hc⟩
    · exact (hmore rfl).elim
  · rintro ⟨c, rfl, hc⟩
    exact flatMap_cons_of_byteOf? hc []

theorem toUTF8_eq_iff : s.toUTF8 = bs.toByteArray ↔ s.toList.flatMap String.utf8EncodeChar = bs := by
  have hbytes : s.toUTF8 = (s.toList.flatMap String.utf8EncodeChar).toByteArray := by
    rw [String.toUTF8_eq_toByteArray]
    exact (congrArg String.toByteArray s.ofList_toList).symm.trans String.toByteArray_ofList
  rw [hbytes, List.toByteArray_inj]

theorem toUTF8_eq_singleton_iff :
    s.toUTF8 = [b].toByteArray ↔ ∃ c, s.toList = [c] ∧ byteOf? c = some b := by
  rw [toUTF8_eq_iff, flatMap_eq_singleton_iff]

theorem toUTF8_eq_caret_iff : s.toUTF8 = ['^'.toUInt8, b].toByteArray ↔
    ∃ c, s.toList = ['^', c] ∧ byteOf? c = some b := by
  rw [toUTF8_eq_iff]
  constructor
  · intro h
    obtain ⟨caret, rest, hchars, ⟨hcaret, hrest⟩ | ⟨hlarge, -⟩⟩ := first_of_flatMap h
    · obtain ⟨c, rfl, hc⟩ := flatMap_eq_singleton_iff.1 hrest
      obtain rfl := eq_ofUInt8_of_byteOf? hcaret
      exact ⟨c, hchars, hc⟩
    · exact absurd hlarge (by decide)
  · rintro ⟨c, hchars, hc⟩
    have hcaret : byteOf? '^' = some '^'.toUInt8 := rfl
    rw [hchars, flatMap_cons_of_byteOf? hcaret, flatMap_cons_of_byteOf? hc]
    rfl

theorem toUpper_ofUInt8 (b : UInt8) :
    (Char.ofUInt8 b).toUpper = Char.ofUInt8 (upperCase b) := by
  have hval : (Char.ofUInt8 b).val.toNat = b.toNat := toNat_ofUInt8 b
  have hlow : 'a'.val ≤ (Char.ofUInt8 b).val ↔ 97 ≤ b := by
    rw [UInt32.le_iff_toNat_le, UInt8.le_iff_toNat_le, hval]
    rfl
  have hhigh : (Char.ofUInt8 b).val ≤ 'z'.val ↔ b ≤ 122 := by
    rw [UInt32.le_iff_toNat_le, UInt8.le_iff_toNat_le, hval]
    rfl
  rw [upperCase]
  by_cases h : 97 ≤ b ∧ b ≤ 122
  · have hletter : (Char.ofUInt8 b).toUpper = ⟨_, _⟩ := dif_pos ⟨hlow.2 h.1, hhigh.2 h.2⟩
    rw [if_pos h, hletter]
    apply Char.toNat_inj.1
    rw [toNat_ofUInt8, UInt8.toNat_sub_of_le _ _ (UInt8.le_trans (by decide) h.1)]
    show ((Char.ofUInt8 b).val + ('A'.val - 'a'.val)).toNat = b.toNat - 32
    have hshift : ('A'.val - 'a'.val).toNat = 2 ^ 32 - 32 := rfl
    have hleast : 97 ≤ b.toNat := UInt8.le_iff_toNat_le.1 h.1
    have hlt := b.toNat_lt
    rw [UInt32.toNat_add, hval, hshift]
    omega
  · rw [if_neg h]
    exact dif_neg fun hrange => h ⟨hlow.1 hrange.1, hhigh.1 hrange.2⟩

theorem ofUInt8_inj {a b : UInt8} (h : Char.ofUInt8 a = Char.ofUInt8 b) : a = b := by
  apply UInt8.toNat_inj.1
  rw [← toNat_ofUInt8, h, toNat_ofUInt8]

theorem controlOf?_eq_some_iff : controlOf? b = some v ↔
    ∃ u, (Char.ofUInt8 b).toUpper = Char.ofUInt8 u ∧ '@'.toUInt8 ≤ u ∧ u ≤ '_'.toUInt8 ∧
      u - '@'.toUInt8 = v := by
  have hupper := toUpper_ofUInt8 b
  rw [controlOf?]
  constructor
  · intro h
    split at h
    · next hrange =>
      exact ⟨upperCase b, hupper, hrange.1, hrange.2, Option.some.inj h⟩
    · cases h
  · rintro ⟨u, hu, hlow, hhigh, rfl⟩
    obtain rfl := ofUInt8_inj (hupper.symm.trans hu)
    exact if_pos ⟨hlow, hhigh⟩

theorem escapeNumber_eq_ok_iff : escapeNumber cs = .ok v ↔
    ∃ digits, cs = '0' :: 'x' :: digits ∧ Text.IsNumeral 16 digits v.toNat := by
  have hread {digits : List Char} {n : Nat} :
      Text.readNumeral 16 255 digits = .ok n ↔ Text.IsNumeral 16 digits n ∧ n ≤ 255 :=
    Text.readNumeral_eq_ok_iff (by decide)
  have hlimit : v.toNat ≤ 255 := Nat.le_of_lt_succ v.toNat_lt
  rw [escapeNumber.eq_def]
  split
  · next digits =>
    cases hn : Text.readNumeral 16 255 digits with
    | ok n =>
      obtain ⟨hdigits, hle⟩ := hread.1 hn
      have hsame : (UInt8.ofNat n).toNat = n := UInt8.toNat_ofNat_of_lt' (Nat.lt_succ_of_le hle)
      constructor
      · rintro ⟨⟩
        exact ⟨digits, rfl, hsame.symm ▸ hdigits⟩
      · rintro ⟨_, ⟨⟩, hv⟩
        obtain rfl := Except.ok.inj (hn.symm.trans (hread.2 ⟨hv, hlimit⟩))
        simp only [UInt8.ofNat_toNat]
    | error cause =>
      constructor
      · rintro ⟨⟩
      · rintro ⟨_, ⟨⟩, hv⟩
        cases hn.symm.trans (hread.2 ⟨hv, hlimit⟩)
  · next hother =>
    constructor
    · rintro ⟨⟩
    · rintro ⟨digits, hcs, -⟩
      exact (hother digits hcs).elim

/-- What the arguments of each notation look like. -/
inductive HasForm : EscapeNotation → List Char → UInt8 → Prop
  | character {c : Char} {b : UInt8} : byteOf? c = some b → HasForm .character [c] b
  | control {c : Char} {b v : UInt8} : byteOf? c = some b → controlOf? b = some v →
    HasForm .control ['^', c] v
  | number {d : Char} {digits : List Char} {v : UInt8} :
    Text.IsNumeral 16 (d :: digits) v.toNat → HasForm .number ('0' :: 'x' :: d :: digits) v

variable {m n : EscapeNotation} {u : UInt8}

theorem hasForm_iff : HasForm n s.toList v ↔ Denotes n s v := by
  constructor
  · intro h
    generalize hcs : s.toList = cs at h
    cases h with
    | character hb => exact .character (toUTF8_eq_singleton_iff.2 ⟨_, hcs, hb⟩)
    | control hb hv =>
      obtain ⟨u, hu, hlow, hhigh, rfl⟩ := controlOf?_eq_some_iff.1 hv
      exact .control (toUTF8_eq_caret_iff.2 ⟨_, hcs, hb⟩) hu hlow hhigh
    | number hdigits => exact .number hcs hdigits
  · intro h
    cases h with
    | character hbytes =>
      obtain ⟨c, hcs, hb⟩ := toUTF8_eq_singleton_iff.1 hbytes
      exact hcs ▸ .character hb
    | control hbytes hu hlow hhigh =>
      obtain ⟨c, hcs, hb⟩ := toUTF8_eq_caret_iff.1 hbytes
      exact hcs ▸ .control hb (controlOf?_eq_some_iff.2 ⟨_, hu, hlow, hhigh, rfl⟩)
    | number hcs hdigits =>
      obtain ⟨d, digits, rfl⟩ := List.exists_cons_of_ne_nil hdigits.ne_nil
      exact hcs ▸ .number hdigits

theorem parseEscape_eq_ok_iff : parseEscape cs = .ok v ↔ ∃ n, HasForm n cs v := by
  constructor
  · intro h
    rw [parseEscape.eq_def] at h
    split at h
    · split at h
      · next hb =>
        cases h
        exact ⟨_, .character hb⟩
      · obtain ⟨digits, hcs, -⟩ := escapeNumber_eq_ok_iff.1 h
        cases hcs
    · split at h
      · next hb =>
        split at h
        · next hv =>
          cases h
          exact ⟨_, .control hb hv⟩
        · cases h
      · obtain ⟨digits, hcs, -⟩ := escapeNumber_eq_ok_iff.1 h
        cases hcs
    · obtain ⟨digits, rfl, hdigits⟩ := escapeNumber_eq_ok_iff.1 h
      obtain ⟨d, digits, rfl⟩ := List.exists_cons_of_ne_nil hdigits.ne_nil
      exact ⟨_, .number hdigits⟩
  · rintro ⟨n, h⟩
    cases h with
    | character hb => simp only [parseEscape, hb]
    | control hb hv => simp only [parseEscape, hb, hv]
    | number hdigits => exact escapeNumber_eq_ok_iff.2 ⟨_, rfl, hdigits⟩

theorem HasForm.unique (h : HasForm m cs u) (h' : HasForm n cs v) : m = n ∧ u = v := by
  have hsame : u = v :=
    Except.ok.inj ((parseEscape_eq_ok_iff.2 ⟨m, h⟩).symm.trans (parseEscape_eq_ok_iff.2 ⟨n, h'⟩))
  refine ⟨?_, hsame⟩
  cases h with
  | character => cases h'; rfl
  | control => cases h'; rfl
  | number => cases h'; rfl

theorem text_of_escapeNumber {e : EscapeFault} (h : escapeNumber cs = .error e) :
    e.text = String.ofList cs := by
  rw [escapeNumber.eq_def] at h
  split at h
  · split at h
    · cases h
    · cases h
      rfl
  · cases h
    rfl

theorem text_of_parseEscape {e : EscapeFault} (h : parseEscape cs = .error e) :
    e.text = String.ofList cs := by
  rw [parseEscape.eq_def] at h
  split at h
  · split at h
    · cases h
    · exact text_of_escapeNumber h
  · split at h
    · split at h
      · cases h
      · cases h
        rfl
    · exact text_of_escapeNumber h
  · exact text_of_escapeNumber h

/-- An argument is read as a byte if and only if it denotes that byte in one of the three notations.
No argument is in two of them or denotes two bytes. Any other argument is a fault, which names the
whole of it. -/
theorem parseEscape_accepts_notations (s : String) :
    (∀ v, parseEscape s.toList = .ok v ↔ ∃ n, Denotes n s v) ∧
      (∀ m n u v, Denotes m s u → Denotes n s v → m = n ∧ u = v) ∧
      ((∀ n v, ¬Denotes n s v) → ∃ e, parseEscape s.toList = .error e ∧ e.text = s) := by
  have hread (v : UInt8) : parseEscape s.toList = .ok v ↔ ∃ n, Denotes n s v := by
    simp only [parseEscape_eq_ok_iff, hasForm_iff]
  refine ⟨hread, fun m n u v h h' => (hasForm_iff.2 h).unique (hasForm_iff.2 h'), ?_⟩
  intro hnone
  cases hs : parseEscape s.toList with
  | ok v =>
    obtain ⟨n, hv⟩ := (hread v).1 hs
    exact (hnone n v hv).elim
  | error e => exact ⟨e, rfl, (text_of_parseEscape hs).trans s.ofList_toList⟩

/-- A number with a sign, zeros and digits of both cases. -/
example : parseEscape "0x+00aB".toList = .ok 0xab := by
  rfl

end Wirebench.CommandLine

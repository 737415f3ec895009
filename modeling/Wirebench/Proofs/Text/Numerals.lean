import Mathlib.Algebra.Group.Nat.Defs
import Wirebench.Text.Numeral

namespace Wirebench.Text

variable {base limit n : Nat} {c : Char}

theorem toNat_digitChar : ∀ d < 36, (digitChar d).toNat = if d < 10 then 48 + d else 87 + d := by
  decide

theorem digitValue?_digitChar {d : Nat} (hd : d < base) (hbase : base ≤ 36) :
    digitValue? base (digitChar d) = some d := by
  have hchar := toNat_digitChar d (by omega)
  rw [digitValue?, hchar]
  by_cases h : d < 10
  · have hfigure : 48 ≤ 48 + d ∧ 48 + d ≤ 57 := by omega
    simp only [h, ↓reduceIte, if_pos hfigure, Nat.add_sub_cancel_left, hd]
  · have hfigure : ¬(48 ≤ 87 + d ∧ 87 + d ≤ 57) := by omega
    have hletter : 97 ≤ 87 + d ∧ 87 + d ≤ 122 := by omega
    simp only [h, ↓reduceIte, if_neg hfigure, if_pos hletter, Nat.add_sub_cancel_left, hd]

theorem numeral_of_lt (h : n < base) : numeral base n = [digitChar n] := by
  rw [numeral, dif_neg (by omega)]

theorem numeral_of_le (hbase : 2 ≤ base) (h : base ≤ n) :
    numeral base n = numeral base (n / base) ++ [digitChar (n % base)] := by
  rw [numeral, dif_pos ⟨hbase, h⟩]

theorem exists_of_mem_numeral (hbase : 2 ≤ base) (h : c ∈ numeral base n) :
    ∃ d < base, c = digitChar d := by
  induction n using Nat.strongRecOn with
  | _ n ih =>
    rcases Nat.lt_or_ge n base with hlt | hge
    · rw [numeral_of_lt hlt, List.mem_singleton] at h
      exact ⟨n, hlt, h⟩
    · rw [numeral_of_le hbase hge, List.mem_append, List.mem_singleton] at h
      rcases h with h | h
      · exact ih (n / base) (Nat.div_lt_self (by omega) hbase) h
      · exact ⟨n % base, Nat.mod_lt n (by omega), h⟩

theorem notMem_numeral (hbase : 2 ≤ base) (hle : base ≤ 36) (hc : digitValue? 36 c = none) :
    c ∉ numeral base n := by
  intro h
  obtain ⟨d, hd, rfl⟩ := exists_of_mem_numeral hbase h
  rw [digitValue?_digitChar (by omega) (by omega)] at hc
  cases hc

theorem notMem_decimal (hc : digitValue? 36 c = none) (n : Nat) : c ∉ decimal n :=
  notMem_numeral (by decide) (by decide) hc

theorem notMem_hexadecimal (hc : digitValue? 36 c = none) (n : Nat) : c ∉ hexadecimal n :=
  notMem_numeral (by decide) (by decide) hc

theorem isEmpty_numeral (base n : Nat) : (numeral base n).isEmpty = false :=
  List.isEmpty_eq_false_iff.2 (numeral_ne_nil base n)

theorem readDigits_numeral (hbase : 2 ≤ base) (hle : base ≤ 36) (hn : n ≤ limit) :
    readDigits base limit 0 (numeral base n) = .ok n := by
  induction n using Nat.strongRecOn with
  | _ n ih =>
    rcases Nat.lt_or_ge n base with hlt | hge
    · rw [numeral_of_lt hlt, readDigits, digitValue?_digitChar hlt hle]
      simp only [Nat.zero_mul, Nat.zero_add, Nat.not_lt.2 hn, ↓reduceIte, readDigits]
    · have hdiv : n / base < n := Nat.div_lt_self (by omega) hbase
      have hmod : n % base < base := Nat.mod_lt n (by omega)
      have hsum : n / base * base + n % base = n := Nat.div_add_mod' n base
      rw [numeral_of_le hbase hge, readDigits_append, ih (n / base) hdiv (by omega)]
      rw [Except.bind, readDigits, digitValue?_digitChar hmod hle]
      simp only [hsum, Nat.not_lt.2 hn, ↓reduceIte, readDigits]

theorem readDigits_of_mem {cs : List Char} (h : c ∈ cs) (hc : digitValue? base c = none)
    (v : Nat) : (readDigits base limit v cs).toOption = none := by
  induction cs generalizing v with
  | nil => exact (List.not_mem_nil h).elim
  | cons b cs ih =>
    rw [readDigits]
    rcases List.mem_cons.1 h with rfl | h
    · rw [hc]
      rfl
    · cases digitValue? base b with
      | none => rfl
      | some d =>
        dsimp only
        split
        · rfl
        · exact ih h _

/-- A numeral does not begin with a sign, so that it is read as it stands. -/
theorem readNumeral_numeral (hbase : 2 ≤ base) (hle : base ≤ 36) (hn : n ≤ limit) :
    readNumeral base limit (numeral base n) = .ok n := by
  have hread := readDigits_numeral hbase hle hn
  have hplus : '+' ∉ numeral base n := notMem_numeral hbase hle (by decide)
  have hne := numeral_ne_nil base n
  cases hcs : numeral base n with
  | nil => exact (hne hcs).elim
  | cons c cs =>
    rw [hcs] at hread hplus
    have hc : c ≠ '+' := fun h => hplus (h ▸ List.mem_cons_self)
    rw [← hread, readNumeral]
    · exact nofun
    · intro h
      exact hc (List.cons.inj h).1
    · intro ds h
      exact hc (List.cons.inj h).1

theorem decimal?_decimal (hn : n ≤ limit) : decimal? limit (decimal n) = some n := by
  rw [decimal?, decimal, readNumeral_numeral (by decide) (by decide) hn]
  rfl

theorem decimal?_port (p : UInt16) : decimal? 65535 (decimal p.toNat) = some p.toNat :=
  decimal?_decimal (Nat.le_of_lt_succ p.toNat_lt)

theorem length_numeral_le (hbase : 2 ≤ base) {k : Nat} (hn : n < base ^ (k + 1)) :
    (numeral base n).length ≤ k + 1 := by
  induction k generalizing n with
  | zero =>
    rw [Nat.zero_add, Nat.pow_one] at hn
    rw [numeral_of_lt hn]
    exact Nat.le_refl 1
  | succ k ih =>
    rcases Nat.lt_or_ge n base with hlt | hge
    · rw [numeral_of_lt hlt, List.length_singleton]
      omega
    · rw [numeral_of_le hbase hge, List.length_append, List.length_singleton]
      have hdiv : n / base < base ^ (k + 1) := by
        rw [Nat.div_lt_iff_lt_mul (by omega), ← Nat.pow_succ]
        exact hn
      exact Nat.succ_le_succ (ih hdiv)

/-- Only zero has a numeral that begins with a zero. -/
theorem head?_numeral_ne (hbase : 2 ≤ base) (hle : base ≤ 36) (hn : 0 < n) :
    (numeral base n).head? ≠ some '0' := by
  induction n using Nat.strongRecOn with
  | _ n ih =>
    rcases Nat.lt_or_ge n base with hlt | hge
    · rw [numeral_of_lt hlt, List.head?_cons]
      intro h
      have hzero := digitValue?_digitChar hlt hle
      rw [Option.some.inj h, show '0' = digitChar 0 by decide,
        digitValue?_digitChar (by omega) hle] at hzero
      exact Nat.ne_of_gt hn (Option.some.inj hzero).symm
    · have hdiv : n / base < n := Nat.div_lt_self hn hbase
      have hpos : 0 < n / base := Nat.div_pos hge (by omega)
      have hfirst := ih (n / base) hdiv hpos
      obtain ⟨c, cs, hcs⟩ := List.exists_cons_of_ne_nil (numeral_ne_nil base (n / base))
      rw [numeral_of_le hbase hge]
      rwa [hcs] at hfirst ⊢

end Wirebench.Text

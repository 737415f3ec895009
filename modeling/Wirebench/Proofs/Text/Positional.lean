import Mathlib.Data.Nat.Digits.Defs
import Wirebench.Proofs.Text.Numerals

namespace Wirebench.Text

variable {base limit n v : Nat} {c : Char} {cs : List Char} {ds : List Nat}

/-- Characters are digits of a base with these values. -/
def Digits (base : Nat) (cs : List Char) (ds : List Nat) : Prop :=
  List.Forall₂ (fun c d => digitValue? base c = some d) cs ds

/-- The texts for a number in a base. Of its digits, of which there must be one, the first counts
most. -/
inductive IsNumeral (base : Nat) : List Char → Nat → Prop
  | plain {cs : List Char} {ds : List Nat} {n : Nat} : Digits base cs ds → ds ≠ [] →
    Nat.ofDigits base ds.reverse = n → IsNumeral base cs n
  | signed {cs : List Char} {ds : List Nat} {n : Nat} : Digits base cs ds → ds ≠ [] →
    Nat.ofDigits base ds.reverse = n → IsNumeral base ('+' :: cs) n

theorem ofDigits_reverse (base : Nat) (ds : List Nat) :
    Nat.ofDigits base ds.reverse = ds.foldl (fun v d => v * base + d) 0 := by
  rw [Nat.ofDigits_eq_foldr, List.foldr_reverse]
  congr 1
  funext v d
  rw [Nat.mul_comm, Nat.add_comm]
  rfl

theorem le_foldl (hbase : 0 < base) (v : Nat) (ds : List Nat) :
    v ≤ ds.foldl (fun v d => v * base + d) v := by
  induction ds generalizing v with
  | nil => exact Nat.le_refl v
  | cons d ds ih =>
    have hv : v ≤ v * base + d := Nat.le_add_right_of_le (Nat.le_mul_of_pos_right v hbase)
    exact hv.trans (ih _)

/-- The value never becomes smaller on the way, so it is enough to look at it in the end. -/
theorem readDigits_eq_ok_iff (hbase : 0 < base) (hv : v ≤ limit) :
    readDigits base limit v cs = .ok n ↔
      n ≤ limit ∧ ∃ ds, Digits base cs ds ∧ ds.foldl (fun v d => v * base + d) v = n := by
  induction cs generalizing v with
  | nil =>
    rw [readDigits]
    constructor
    · rintro ⟨⟩
      exact ⟨hv, [], .nil, rfl⟩
    · rintro ⟨-, _, ⟨⟩, rfl⟩
      rfl
  | cons c cs ih =>
    have hcons : (∃ ds, Digits base (c :: cs) ds ∧ ds.foldl (fun v d => v * base + d) v = n) ↔
        ∃ d, digitValue? base c = some d ∧ ∃ ds, Digits base cs ds ∧
          ds.foldl (fun v d => v * base + d) (v * base + d) = n := by
      constructor
      · rintro ⟨_, _ | ⟨hd, hds⟩, rfl⟩
        exact ⟨_, hd, _, hds, rfl⟩
      · rintro ⟨d, hd, ds, hds, rfl⟩
        exact ⟨d :: ds, .cons hd hds, rfl⟩
    rw [readDigits, hcons]
    cases hc : digitValue? base c with
    | none =>
      constructor
      · rintro ⟨⟩
      · rintro ⟨-, d, ⟨⟩, -⟩
    | some d =>
      dsimp only
      split
      · next hlarge =>
        constructor
        · rintro ⟨⟩
        · rintro ⟨hn, _, ⟨⟩, ds, -, rfl⟩
          exact absurd (hlarge.trans_le (le_foldl hbase _ ds)) (Nat.not_lt.2 hn)
      · next hsmall =>
        rw [ih (Nat.not_lt.1 hsmall)]
        simp only [Option.some.injEq, exists_eq_left']

theorem Digits.ne_nil_iff (h : Digits base cs ds) : ds ≠ [] ↔ cs ≠ [] := by
  cases h with
  | nil => exact iff_of_false (fun h => h rfl) fun h => h rfl
  | cons => exact iff_of_true (List.cons_ne_nil _ _) (List.cons_ne_nil _ _)

theorem digitValue?_plus (base : Nat) : digitValue? base '+' = none := by
  have hcode : '+'.toNat = 43 := rfl
  simp [digitValue?, hcode]

theorem Digits.not_signed (h : Digits base ('+' :: cs) ds) : False := by
  cases h with
  | cons hd =>
    rw [digitValue?_plus] at hd
    cases hd

theorem IsNumeral.ne_nil (h : IsNumeral base cs n) : cs ≠ [] := by
  cases h with
  | plain h hne => exact h.ne_nil_iff.1 hne
  | signed => exact List.cons_ne_nil _ _

theorem readNumeral_eq_ok_iff (hbase : 0 < base) :
    readNumeral base limit cs = .ok n ↔ IsNumeral base cs n ∧ n ≤ limit := by
  have hread (ds : List Char) : readDigits base limit 0 ds = .ok n ↔
      n ≤ limit ∧ ∃ vs, Digits base ds vs ∧ Nat.ofDigits base vs.reverse = n := by
    simp only [readDigits_eq_ok_iff hbase (Nat.zero_le limit), ofDigits_reverse]
  rw [readNumeral.eq_def]
  split
  · exact ⟨nofun, fun h => (h.1.ne_nil rfl).elim⟩
  · refine ⟨nofun, ?_⟩
    rintro ⟨h, -⟩
    cases h with
    | plain h => exact h.not_signed.elim
    | signed h hne => exact (h.ne_nil_iff.1 hne rfl).elim
  · next cs hcs =>
    rw [hread]
    constructor
    · rintro ⟨hn, vs, hvs, hvalue⟩
      exact ⟨.signed hvs (hvs.ne_nil_iff.2 hcs) hvalue, hn⟩
    · rintro ⟨h, hn⟩
      cases h with
      | plain h => exact h.not_signed.elim
      | signed h _ hvalue => exact ⟨hn, _, h, hvalue⟩
  · next hnil _ hsign =>
    rw [hread]
    constructor
    · rintro ⟨hn, vs, hvs, hvalue⟩
      exact ⟨.plain hvs (hvs.ne_nil_iff.2 hnil) hvalue, hn⟩
    · rintro ⟨h, hn⟩
      cases h with
      | plain h _ hvalue => exact ⟨hn, _, h, hvalue⟩
      | signed => exact (hsign _ rfl).elim

theorem decimal?_eq_some_iff : decimal? limit cs = some n ↔ IsNumeral 10 cs n ∧ n ≤ limit := by
  rw [← readNumeral_eq_ok_iff (by decide), decimal?]
  cases readNumeral 10 limit cs with
  | error e => constructor <;> rintro ⟨⟩
  | ok m =>
    constructor
    · exact fun h => congrArg Except.ok (Option.some.inj h)
    · exact fun h => congrArg some (Except.ok.inj h)

end Wirebench.Text

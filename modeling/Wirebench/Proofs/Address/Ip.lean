import Wirebench.Address.Ip
import Wirebench.Proofs.Text.Fields
import Wirebench.Proofs.Text.Numerals

namespace Wirebench

open Text (decimal hexadecimal digitValue?)

namespace Ipv4

theorem readOctet?_decimal (o : UInt8) : readOctet? (decimal o.toNat) = some o := by
  have hlt := o.toNat_lt
  have hempty : (decimal o.toNat).isEmpty = false := Text.isEmpty_numeral 10 o.toNat
  have hlen : (decimal o.toNat).length ≤ 3 := Text.length_numeral_le (by decide) (by omega)
  have hzero : ¬((decimal o.toNat).head? = some '0' ∧ 1 < (decimal o.toNat).length) := by
    rintro ⟨hhead, hlong⟩
    rcases Nat.eq_zero_or_pos o.toNat with h0 | hpos
    · rw [h0, decimal, Text.numeral_of_lt (by decide)] at hlong
      exact absurd hlong (by decide)
    · exact Text.head?_numeral_ne (by decide) (by decide) hpos hhead
  have hread : Text.readDigits 10 255 0 (decimal o.toNat) = .ok o.toNat :=
    Text.readDigits_numeral (by decide) (by decide) (by omega)
  rw [readOctet?, hempty, hread, if_neg (by simp [hzero, Nat.not_lt.2 hlen])]
  exact congrArg some UInt8.ofNat_toNat

theorem split_textChars (ip : Ipv4) :
    Text.split '.' ip.textChars = ip.octets.map fun o => decimal o.toNat := by
  apply Text.split_join (by simp [octets])
  intro field hfield
  obtain ⟨o, -, rfl⟩ := List.mem_map.1 hfield
  exact Text.notMem_decimal (by decide) _

theorem parse?_textChars (ip : Ipv4) : parse? ip.textChars = some ip := by
  rw [parse?, split_textChars]
  simp only [octets, List.map_cons, List.map_nil, readOctet?_decimal]
  rfl

theorem notMem_textChars (ip : Ipv4) {c : Char} (hc : digitValue? 36 c = none) (hdot : c ≠ '.') :
    c ∉ ip.textChars := by
  apply Text.notMem_join
  · rwa [List.mem_singleton]
  · intro field hfield
    obtain ⟨o, -, rfl⟩ := List.mem_map.1 hfield
    exact Text.notMem_decimal hc _

theorem readOctet?_of_mem {c : Char} {cs : List Char} (h : c ∈ cs)
    (hc : digitValue? 10 c = none) : readOctet? cs = none := by
  rw [readOctet?]
  split
  · rfl
  · rw [Text.readDigits_of_mem h hc]
    rfl

theorem parse?_of_mem {c : Char} {cs : List Char} (h : c ∈ cs) (hdot : c ≠ '.')
    (hc : digitValue? 10 c = none) : parse? cs = none := by
  obtain ⟨field, hfield, hin⟩ := Text.exists_mem_split h hdot
  have hnone := readOctet?_of_mem hin hc
  rw [parse?]
  split
  · next a b c d hsplit =>
    rw [hsplit] at hfield
    simp only [List.mem_cons, List.not_mem_nil, or_false] at hfield
    rcases hfield with rfl | rfl | rfl | rfl
    · rw [hnone]; rfl
    · rw [hnone]; cases readOctet? a <;> rfl
    · rw [hnone]; cases readOctet? a <;> cases readOctet? b <;> rfl
    · rw [hnone]; cases readOctet? a <;> cases readOctet? b <;> cases readOctet? c <;> rfl
  · rfl

theorem word_ofWords (w : UInt16) : (w / 256).toUInt8.toUInt16 * 256 + w.toUInt8.toUInt16 = w := by
  apply UInt16.toNat_inj.1
  have hlt := w.toNat_lt
  simp only [UInt16.toNat_add, UInt16.toNat_mul, UInt8.toNat_toUInt16, UInt16.toNat_toUInt8,
    UInt16.toNat_div, UInt16.reduceToNat]
  omega

theorem words_ofWords (hi lo : UInt16) : (ofWords hi lo).words = [hi, lo] := by
  rw [words, ofWords, word_ofWords, word_ofWords]

end Ipv4

namespace Ipv6

variable {fields : List (List Char)} {ws : List UInt16}

theorem readGroup?_hexadecimal (w : UInt16) : readGroup? (hexadecimal w.toNat) = some w := by
  have hlt := w.toNat_lt
  have hempty : (hexadecimal w.toNat).isEmpty = false := Text.isEmpty_numeral 16 w.toNat
  have hlen : (hexadecimal w.toNat).length ≤ 4 := Text.length_numeral_le (by decide) (by omega)
  have hread : Text.readDigits 16 65535 0 (hexadecimal w.toNat) = .ok w.toNat :=
    Text.readDigits_numeral (by decide) (by decide) (by omega)
  rw [readGroup?, hempty, hread, if_neg (by simp [Nat.not_lt.2 hlen])]
  exact congrArg some UInt16.ofNat_toNat

theorem readWords?_groups (tail : Bool) (ws : List UInt16) :
    readWords? tail (ws.map fun w => hexadecimal w.toNat) = some ws := by
  induction ws with
  | nil => rfl
  | cons w ws ih =>
    cases ws with
    | nil => rw [List.map_singleton, readWords?, readGroup?_hexadecimal]
    | cons w' ws =>
      rw [List.map_cons] at ih
      rw [List.map_cons, List.map_cons, readWords?, readGroup?_hexadecimal, ih]
      · rfl
      · exact nofun

theorem split_groups (hws : ws ≠ []) :
    Text.split ':' (groups ws) = ws.map fun w => hexadecimal w.toNat := by
  apply Text.split_join (by simpa using hws)
  intro field hfield
  obtain ⟨w, -, rfl⟩ := List.mem_map.1 hfield
  exact Text.notMem_hexadecimal (by decide) _

theorem join_ne_nil {f : List Char} (hf : f ≠ []) (fields : List (List Char)) :
    Text.join [':'] (f :: fields) ≠ [] := by
  cases fields with
  | nil => exact hf
  | cons g fields =>
    rw [Text.join_cons_cons, List.append_assoc]
    exact List.append_ne_nil_of_left_ne_nil hf _

theorem readSide?_groups (tail : Bool) (ws : List UInt16) :
    readSide? tail (groups ws) = some ws := by
  cases ws with
  | nil => rfl
  | cons w ws =>
    have hne : groups (w :: ws) ≠ [] := join_ne_nil (Text.numeral_ne_nil 16 w.toNat) _
    rw [readSide?, if_neg (by rwa [List.isEmpty_iff]), split_groups (List.cons_ne_nil w ws),
      readWords?_groups]

theorem splitElision_cons {c : Char} {cs : List Char} (h : c ≠ ':' ∨ cs.head? ≠ some ':') :
    splitElision (c :: cs) = (splitElision cs).map fun p => (c :: p.1, p.2) := by
  rw [splitElision]
  rintro ds rfl rfl
  simp at h

theorem splitElision_append {f : List Char} (hf : ':' ∉ f) (cs : List Char) :
    splitElision (f ++ cs) = (splitElision cs).map fun p => (f ++ p.1, p.2) := by
  induction f with
  | nil => simp only [List.nil_append, Prod.eta, Option.map_id']
  | cons c f ih =>
    have hc : c ≠ ':' := fun e => hf (e ▸ List.mem_cons_self)
    rw [List.cons_append, splitElision_cons (.inl hc), ih fun hin => hf (List.mem_cons_of_mem _ hin),
      Option.map_map]
    rfl

theorem head?_join_append {f : List Char} (hf : f ≠ []) (hcolon : ':' ∉ f)
    (fields : List (List Char)) (cs : List Char) :
    (Text.join [':'] (f :: fields) ++ cs).head? ≠ some ':' := by
  obtain ⟨c, f, rfl⟩ := List.exists_cons_of_ne_nil hf
  have hc : c ≠ ':' := fun e => hcolon (e ▸ List.mem_cons_self)
  have hhead : (Text.join [':'] ((c :: f) :: fields) ++ cs).head? = some c := by
    cases fields <;> rfl
  rw [hhead]
  exact fun h => hc (Option.some.inj h)

theorem splitElision_join_cons {f g : List Char} (hf : ':' ∉ f) (hg : g ≠ []) (hcolon : ':' ∉ g)
    (fields : List (List Char)) (cs : List Char) :
    splitElision (Text.join [':'] (f :: g :: fields) ++ cs) =
      (splitElision (Text.join [':'] (g :: fields) ++ cs)).map fun p =>
        (f ++ ':' :: p.1, p.2) := by
  have hhead := head?_join_append hg hcolon fields cs
  rw [Text.join_cons_cons, List.append_assoc, List.append_assoc, List.singleton_append,
    splitElision_append hf, splitElision_cons (.inr hhead), Option.map_map]
  rfl

theorem splitElision_join (h : ∀ f ∈ fields, f ≠ [] ∧ ':' ∉ f) :
    splitElision (Text.join [':'] fields) = none := by
  induction fields with
  | nil => rfl
  | cons f fields ih =>
    have hf := (h f List.mem_cons_self).2
    cases fields with
    | nil =>
      have hnone := splitElision_append hf []
      rwa [List.append_nil] at hnone
    | cons g fields =>
      obtain ⟨hg, hcolon⟩ := h g (List.mem_cons_of_mem _ List.mem_cons_self)
      have hrest := ih fun f hf => h f (List.mem_cons_of_mem _ hf)
      have hstep := splitElision_join_cons hf hg hcolon fields []
      rwa [List.append_nil, List.append_nil, hrest] at hstep

theorem splitElision_join_append (h : ∀ f ∈ fields, f ≠ [] ∧ ':' ∉ f) (cs : List Char) :
    splitElision (Text.join [':'] fields ++ ':' :: ':' :: cs) =
      some (Text.join [':'] fields, cs) := by
  induction fields with
  | nil => rfl
  | cons f fields ih =>
    have hf := (h f List.mem_cons_self).2
    cases fields with
    | nil =>
      rw [Text.join, splitElision_append hf, splitElision, Option.map_some, List.append_nil]
    | cons g fields =>
      obtain ⟨hg, hcolon⟩ := h g (List.mem_cons_of_mem _ List.mem_cons_self)
      rw [splitElision_join_cons hf hg hcolon, ih fun f hf => h f (List.mem_cons_of_mem _ hf),
        Option.map_some, Text.join_cons_cons, List.append_assoc, List.singleton_append]

theorem groups_fields (ws : List UInt16) :
    ∀ f ∈ ws.map (fun w => hexadecimal w.toNat), f ≠ [] ∧ ':' ∉ f := by
  intro f hf
  obtain ⟨w, -, rfl⟩ := List.mem_map.1 hf
  exact ⟨Text.numeral_ne_nil 16 w.toNat, Text.notMem_hexadecimal (by decide) _⟩

theorem take_zeroRun (ws : List UInt16) :
    ws.take (zeroRun ws) = List.replicate (zeroRun ws) 0 ∧ zeroRun ws ≤ ws.length := by
  induction ws with
  | nil => exact ⟨rfl, Nat.le_refl 0⟩
  | cons w ws ih =>
    rw [zeroRun]
    split
    · next hw => exact ⟨by rw [List.take_succ_cons, ih.1, List.replicate_succ, hw],
        Nat.succ_le_succ ih.2⟩
    · exact ⟨rfl, Nat.zero_le _⟩

theorem longestZeroRun_spec (ws : List UInt16) :
    (ws.drop (longestZeroRun ws).1).take (longestZeroRun ws).2 =
        List.replicate (longestZeroRun ws).2 0 ∧
      (longestZeroRun ws).1 + (longestZeroRun ws).2 ≤ ws.length := by
  induction ws with
  | nil => exact ⟨rfl, Nat.le_refl 0⟩
  | cons w ws ih =>
    rw [longestZeroRun]
    split
    · have hrun := take_zeroRun (w :: ws)
      rwa [List.drop_zero, Nat.zero_add]
    · constructor
      · exact ih.1
      · have hle := ih.2
        rw [List.length_cons]
        dsimp only
        omega

/-- The words around the longest run of zeros, with as many zeros between them. -/
theorem words_of_longestZeroRun (ws : List UInt16) :
    ws.take (longestZeroRun ws).1 ++ List.replicate (longestZeroRun ws).2 0 ++
      ws.drop ((longestZeroRun ws).1 + (longestZeroRun ws).2) = ws := by
  rw [← (longestZeroRun_spec ws).1, ← List.drop_drop, List.append_assoc, List.take_append_drop,
    List.take_append_drop]

theorem parse?_groups (ip : Ipv6) : parse? (groups ip.words) = some ip := by
  rw [parse?, groups, splitElision_join (groups_fields ip.words)]
  dsimp only
  rw [← groups, readSide?_groups]
  exact ofWords?_words ip

theorem parse?_elided (ip : Ipv6) (hrun : 0 < (longestZeroRun ip.words).2) :
    parse? (groups (ip.words.take (longestZeroRun ip.words).1) ++ [':', ':'] ++
      groups (ip.words.drop ((longestZeroRun ip.words).1 + (longestZeroRun ip.words).2))) =
        some ip := by
  have hwords := words_of_longestZeroRun ip.words
  have hle := (longestZeroRun_spec ip.words).2
  have hlen : ip.words.length = 8 := rfl
  have hbefore : (ip.words.take (longestZeroRun ip.words).1).length =
      (longestZeroRun ip.words).1 := by
    rw [List.length_take]
    omega
  have hafter : (ip.words.drop ((longestZeroRun ip.words).1 +
      (longestZeroRun ip.words).2)).length =
        8 - ((longestZeroRun ip.words).1 + (longestZeroRun ip.words).2) := by
    rw [List.length_drop, hlen]
  have hzeros : 8 - ((longestZeroRun ip.words).1 +
      (8 - ((longestZeroRun ip.words).1 + (longestZeroRun ip.words).2))) =
        (longestZeroRun ip.words).2 := by omega
  rw [parse?, List.append_assoc]
  simp only [List.cons_append, List.nil_append]
  rw [groups, splitElision_join_append (groups_fields _), ← groups]
  simp only [readSide?_groups, Option.bind_eq_bind, Option.bind_some]
  rw [hbefore, hafter, if_pos (by omega), hzeros, hwords]
  exact ofWords?_words ip

theorem mem_textChars_point (v4 : Ipv4) : '.' ∈ v4.textChars := by
  simp only [Ipv4.textChars, Ipv4.octets, List.map_cons, Text.join_cons_cons, List.mem_append,
    List.mem_singleton, true_or, or_true]

theorem readGroup?_textChars (v4 : Ipv4) : readGroup? v4.textChars = none := by
  rw [readGroup?]
  split
  · rfl
  · rw [Text.readDigits_of_mem (mem_textChars_point v4) (by decide)]
    rfl

theorem readSide?_mapped (v4 : Ipv4) :
    readSide? true ("ffff:".toList ++ v4.textChars) = some (0xffff :: v4.words) := by
  have hcolon : ':' ∉ v4.textChars := v4.notMem_textChars (by decide) (by decide)
  have hfirst : ':' ∉ "ffff".toList := by decide
  have hsplit : Text.split ':' ("ffff:".toList ++ v4.textChars) = ["ffff".toList, v4.textChars] :=
    (Text.split_append_cons hfirst v4.textChars).trans
      (congrArg _ (Text.split_eq_singleton hcolon))
  have hgroup : readGroup? "ffff".toList = some 0xffff := rfl
  have htail : readWords? true [v4.textChars] = some v4.words := by
    rw [readWords?, readGroup?_textChars, Ipv4.parse?_textChars]
    rfl
  rw [readSide?, if_neg (by simp), hsplit, readWords?, hgroup, htail]
  · rfl
  · exact nofun

theorem parse?_mapped {ip : Ipv6} {v4 : Ipv4} (h : ip.mapped? = some v4) :
    parse? ("::ffff:".toList ++ v4.textChars) = some ip := by
  obtain ⟨w0, w1, w2, w3, w4, w5, w6, w7⟩ := ip
  obtain ⟨⟨rfl, rfl, rfl, rfl, rfl, rfl⟩, rfl⟩ := by
    simpa only [mapped?, Option.ite_none_right_eq_some, Option.some.injEq] using h
  have hsplit : splitElision ("::ffff:".toList ++ (Ipv4.ofWords w6 w7).textChars) =
      some ([], "ffff:".toList ++ (Ipv4.ofWords w6 w7).textChars) := rfl
  rw [parse?, hsplit]
  simp only [readSide?_mapped, Ipv4.words_ofWords, Option.bind_eq_bind, Option.bind_some]
  rfl

theorem parse?_textChars (ip : Ipv6) : parse? ip.textChars = some ip := by
  rw [textChars]
  cases h : ip.mapped? with
  | some v4 => exact parse?_mapped h
  | none =>
    dsimp only
    split
    · exact parse?_elided ip (by omega)
    · exact parse?_groups ip

theorem notMem_groups {c : Char} (hc : digitValue? 36 c = none) (hcolon : c ≠ ':')
    (ws : List UInt16) : c ∉ groups ws := by
  apply Text.notMem_join
  · rwa [List.mem_singleton]
  · intro field hfield
    obtain ⟨w, -, rfl⟩ := List.mem_map.1 hfield
    exact Text.notMem_hexadecimal hc _

theorem notMem_textChars (ip : Ipv6) {c : Char} (hc : digitValue? 36 c = none) (hdot : c ≠ '.')
    (hcolon : c ≠ ':') : c ∉ ip.textChars := by
  rw [textChars]
  cases ip.mapped? with
  | some v4 =>
    have hf : c ≠ 'f' := by
      rintro rfl
      cases hc
    rw [List.mem_append]
    rintro (h | h)
    · simp [hf, hcolon] at h
    · exact v4.notMem_textChars hc hdot h
  | none =>
    dsimp only
    split
    · rw [List.mem_append, List.mem_append]
      rintro ((h | h) | h)
      · exact notMem_groups hc hcolon _ h
      · simp [hcolon] at h
      · exact notMem_groups hc hcolon _ h
    · exact notMem_groups hc hcolon _

theorem mem_textChars_colon (ip : Ipv6) : ':' ∈ ip.textChars := by
  rw [textChars]
  cases ip.mapped? with
  | some v4 => exact List.mem_append_left _ (by decide)
  | none =>
    dsimp only
    split
    · exact List.mem_append_left _ (List.mem_append_right _ (by decide))
    · simp only [groups, words, List.map_cons, Text.join_cons_cons, List.mem_append,
        List.mem_singleton, true_or, or_true]

end Ipv6

end Wirebench

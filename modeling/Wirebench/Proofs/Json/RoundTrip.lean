import Mathlib.Data.List.Nodup
import Mathlib.Data.List.TakeWhile
import Wirebench.Json.Parser
import Wirebench.Json.Printer
import Wirebench.Proofs.Text.Numerals

namespace Wirebench

namespace Json

open Text (decimal digitChar digitValue? numeral)

variable {c : Char} {cs ds rest : List Char} {n : Nat}

/-- The character is none of the blanks that may stand between parts of a value. -/
def isSolid (c : Char) : Bool := c ≠ ' ' ∧ c ≠ '\t' ∧ c ≠ '\n' ∧ c ≠ '\r'

theorem skipBlanks_of_isSolid (h : isSolid c) (cs : List Char) :
    skipBlanks (c :: cs) = c :: cs := by
  obtain ⟨hspace, htab, hline, hreturn⟩ := of_decide_eq_true h
  rw [skipBlanks] <;> simp_all

theorem readString_plain (hquote : c ≠ '"') (hescape : c ≠ '\\') (read cs : List Char) :
    readString read (c :: cs) = readString (c :: read) cs := by
  rw [readString] <;> simp_all

theorem readString_short {x : Char} (hc : c ≠ 'u') (hx : shortEscape? c = some x)
    (read cs : List Char) : readString read ('\\' :: c :: cs) = readString (x :: read) cs := by
  rw [readString, hx] <;> simp_all

theorem readString_unit {x a b c d : Char} (hunit : codeUnit? [a, b, c, d] = some n)
    (hx : charOfUnit? n = some x) (read cs : List Char) :
    readString read ('\\' :: 'u' :: a :: b :: c :: d :: cs) = readString (x :: read) cs := by
  -- Another unit may follow, but it does not belong to this one.
  by_cases hnext : ∃ e f g h ds, cs = '\\' :: 'u' :: e :: f :: g :: h :: ds
  · obtain ⟨e, f, g, h, ds, rfl⟩ := hnext
    rw [readString, hunit]
    simp only [Option.bind_eq_bind, Option.bind_some, hx]
  · rw [readString, hunit]
    · simp only [Option.bind_eq_bind, Option.bind_some, hx]
    · rintro e f g h ds rfl
      exact hnext ⟨e, f, g, h, ds, rfl⟩

theorem padded_of_lt (hn : n < 256) :
    Text.padded 16 4 n = ['0', '0', digitChar (n / 16), digitChar (n % 16)] := by
  rw [Text.padded]
  rcases Nat.lt_or_ge n 16 with hlt | hge
  · rw [Text.numeral_of_lt hlt, Nat.div_eq_of_lt hlt, Nat.mod_eq_of_lt hlt]
    rfl
  · have hdiv : n / 16 < 16 := by omega
    rw [Text.numeral_of_le (by decide) hge, Text.numeral_of_lt hdiv]
    rfl

theorem codeUnit?_of_lt (hn : n < 256) :
    codeUnit? ['0', '0', digitChar (n / 16), digitChar (n % 16)] = some n := by
  have hzero : digitValue? 16 '0' = some 0 := rfl
  have hhigh : digitValue? 16 (digitChar (n / 16)) = some (n / 16) :=
    Text.digitValue?_digitChar (by omega) (by decide)
  have hlow := Text.digitValue?_digitChar (Nat.mod_lt n (by decide : 0 < 16)) (by decide)
  have hsum : n / 16 * 16 + n % 16 = n := Nat.div_add_mod' n 16
  simp only [codeUnit?, List.foldlM_cons, List.foldlM_nil, hzero, hhigh, hlow, Option.map_some,
    Option.bind_eq_bind, Option.bind_some, Nat.zero_mul, Nat.zero_add, hsum, Option.pure_def]

theorem charOfUnit?_toNat (hc : c.toNat < 0xD800) : charOfUnit? c.toNat = some c := by
  rw [charOfUnit?, if_neg (by omega), Char.ofNat_toNat]

theorem shortEscape?_of_shortened? {mark : Char} (h : shortened? c = some mark) :
    mark ≠ 'u' ∧ shortEscape? mark = some c := by
  have hletter : ∀ x ∈ [('\n', 'n'), ('\t', 't'), ('\r', 'r'), (Char.ofNat 8, 'b'),
      (Char.ofNat 12, 'f')], x.2 ≠ 'u' ∧ shortEscape? x.2 = some x.1 := by decide
  rw [shortened?] at h
  split at h
  · next hc =>
    obtain rfl := Option.some.inj h
    exact ⟨by rcases hc with rfl | rfl <;> decide, if_pos (hc.imp_right .inl)⟩
  · repeat'
      split at h
      next hc =>
        cases hc
        cases h
        exact hletter (_, _) (by decide)
    cases h

theorem readString_escaped (c : Char) (read cs : List Char) :
    readString read (escaped c ++ cs) = readString (c :: read) cs := by
  rw [escaped]
  cases hshort : shortened? c with
  | some mark =>
    obtain ⟨hu, hescape⟩ := shortEscape?_of_shortened? hshort
    exact readString_short hu hescape read cs
  | none =>
    have hquote : c ≠ '"' := by
      rintro rfl
      cases hshort
    have hescape : c ≠ '\\' := by
      rintro rfl
      cases hshort
    dsimp only
    split
    · have hsmall : c.toNat < 256 := by omega
      rw [padded_of_lt hsmall]
      exact readString_unit (codeUnit?_of_lt hsmall) (charOfUnit?_toNat (by omega)) read cs
    · exact readString_plain hquote hescape read cs

theorem readString_quoted (cs read rest : List Char) :
    readString read (cs.flatMap escaped ++ '"' :: rest) =
      some (String.ofList (read.reverse ++ cs), rest) := by
  induction cs generalizing read with
  | nil => rw [List.flatMap_nil, List.nil_append, readString, List.append_nil]
  | cons c cs ih =>
    rw [List.flatMap_cons, List.append_assoc, readString_escaped, ih, List.reverse_cons,
      List.append_assoc, List.singleton_append]

theorem isDigit_of_mem_decimal (h : c ∈ decimal n) : isDigit c := by
  obtain ⟨d, hd, rfl⟩ := Text.exists_of_mem_numeral (by decide) h
  exact (by decide : ∀ d < 10, isDigit (digitChar d)) d hd

theorem isWhole_decimal (n : Nat) : isWhole (decimal n) := by
  have hall : (decimal n).all isDigit := List.all_eq_true.2 fun c => isDigit_of_mem_decimal
  have hhead : (decimal n).head? ≠ some '0' ∨ (decimal n).length = 1 := by
    rcases Nat.eq_zero_or_pos n with rfl | hn
    · exact .inr (congrArg List.length (Text.numeral_of_lt (by decide)))
    · exact .inl (Text.head?_numeral_ne (by decide) (by decide) hn)
  have hempty : (decimal n).isEmpty = false := Text.isEmpty_numeral 10 n
  rw [isWhole, hall, hempty, Bool.not_false, Bool.true_and, Bool.true_and, Bool.or_eq_true,
    decide_eq_true_iff, decide_eq_true_iff]
  exact hhead

theorem value_decimal (n : Nat) :
    (decimal n).foldl (fun n c => n * 10 + (c.toNat - 48)) 0 = n := by
  have hdigit : ∀ d < 10, (digitChar d).toNat - 48 = d := by decide
  induction n using Nat.strongRecOn with
  | _ n ih =>
    rcases Nat.lt_or_ge n 10 with hlt | hge
    · rw [decimal, Text.numeral_of_lt hlt, List.foldl_cons, List.foldl_nil, hdigit n hlt,
        Nat.zero_mul, Nat.zero_add]
    · have hdiv : n / 10 < n := Nat.div_lt_self (by omega) (by decide)
      rw [decimal, Text.numeral_of_le (by decide) hge, ← decimal, List.foldl_append, ih _ hdiv,
        List.foldl_cons, List.foldl_nil, hdigit _ (Nat.mod_lt n (by decide)), Nat.div_add_mod']

theorem dropWhile_decimal (n : Nat) : (decimal n).dropWhile (· = '-') = decimal n := by
  refine List.dropWhile_eq_self_iff.2 fun hlength h => ?_
  apply Text.notMem_decimal (c := '-') (by decide) n
  exact of_decide_eq_true h ▸ List.getElem_mem hlength

theorem head?_decimal_ne (n : Nat) : (decimal n).head? ≠ some '-' :=
  fun h => Text.notMem_decimal (c := '-') (by decide) n (List.mem_of_mem_head? h)

/-- Only zero has the numeral that must not stand behind a minus. -/
theorem decimal_ne_zero (hn : 0 < n) : decimal n ≠ ['0'] :=
  fun h => Text.head?_numeral_ne (by decide) (by decide) hn (congrArg List.head? h)

theorem number?_integerChars (n : Int) : number? (integerChars n) = some (.integer n) := by
  have hspan (n : Nat) : (decimal n).takeWhile isDigit = decimal n ∧
      (decimal n).dropWhile isDigit = [] :=
    ⟨List.takeWhile_eq_self_iff.2 fun c => isDigit_of_mem_decimal,
      List.dropWhile_eq_nil_iff.2 fun c => isDigit_of_mem_decimal⟩
  cases n with
  | ofNat n =>
    simp only [number?, integerChars, dropWhile_decimal, hspan n, head?_decimal_ne n,
      isWhole_decimal n, value_decimal]
    simp [isFraction, isExponent]
  | negSucc n =>
    have hsize : ('-' :: decimal (n + 1)).dropWhile (· = '-') = decimal (n + 1) := by
      rw [List.dropWhile_cons_of_pos (by decide), dropWhile_decimal]
    have hsign : ('-' :: decimal (n + 1)).length - (decimal (n + 1)).length ≤ 1 := by
      rw [List.length_cons, Nat.add_sub_cancel_left]
    simp only [number?, integerChars, hsize, hsign, hspan (n + 1), isWhole_decimal (n + 1),
      value_decimal, decimal_ne_zero (Nat.succ_pos n)]
    simp [isFraction, isExponent, Int.negSucc_eq]

theorem isNumberChar_of_mem_integerChars {n : Int} (h : c ∈ integerChars n) : isNumberChar c := by
  have hdigit (m : Nat) (h : c ∈ decimal m) : isNumberChar c := by
    simp only [isNumberChar, isDigit_of_mem_decimal h, Bool.true_or]
  cases n with
  | ofNat n => exact hdigit n h
  | negSucc n =>
    rcases List.mem_cons.1 h with rfl | h
    · decide
    · exact hdigit (n + 1) h

theorem integerChars_ne_nil (n : Int) : integerChars n ≠ [] := by
  cases n with
  | ofNat n => exact Text.numeral_ne_nil 10 n
  | negSucc n => exact List.cons_ne_nil '-' _

theorem readValue_number (hc : isNumberChar c) (fuel : Nat) (cs : List Char) :
    readValue (fuel + 1) (c :: cs) =
      (number? ((c :: cs).takeWhile isNumberChar)).map fun n =>
        (n, (c :: cs).dropWhile isNumberChar) := by
  have hsolid : isSolid c := by
    refine decide_eq_true ⟨?_, ?_, ?_, ?_⟩ <;> rintro rfl <;> exact absurd hc (by decide)
  rw [readValue, skipBlanks_of_isSolid hsolid]
  split
  iterate 6
    next heq =>
      obtain ⟨rfl, -⟩ := List.cons.inj heq
      exact absurd hc (by decide)
  rfl

theorem readValue_integer (hrest : rest.takeWhile isNumberChar = []) (n : Int) (fuel : Nat) :
    readValue (fuel + 1) (integerChars n ++ rest) = some (.integer n, rest) := by
  have hmem (c : Char) (h : c ∈ integerChars n) := isNumberChar_of_mem_integerChars h
  have htake : (integerChars n ++ rest).takeWhile isNumberChar = integerChars n := by
    rw [List.takeWhile_append_of_pos hmem, hrest, List.append_nil]
  have hdrop : (integerChars n ++ rest).dropWhile isNumberChar = rest := by
    have hsplit := List.takeWhile_append_dropWhile (p := isNumberChar) (l := rest)
    rwa [List.dropWhile_append_of_pos hmem, ← List.nil_append (rest.dropWhile _), ← hrest]
  obtain ⟨c, cs, hcons⟩ := List.exists_cons_of_ne_nil (integerChars_ne_nil n)
  have hread := readValue_number (hmem c (hcons ▸ List.mem_cons_self)) fuel (cs ++ rest)
  rw [← List.cons_append, ← hcons, htake, hdrop, number?_integerChars] at hread
  exact hread

mutual

/-- No object within the value has a key twice, and every number is an integer. -/
def IsPlain : Json → Prop
  | real _ => False
  | array items => ArePlain items
  | object fields => (fields.map (·.1)).Nodup ∧ FieldsArePlain fields
  | null | bool _ | integer _ | string _ => True

def ArePlain : List Json → Prop
  | [] => True
  | v :: vs => IsPlain v ∧ ArePlain vs

def FieldsArePlain : List (String × Json) → Prop
  | [] => True
  | (_, v) :: fs => IsPlain v ∧ FieldsArePlain fs

end

/-- A value begins with a character that neither separates values nor closes an array. -/
theorem exists_cons_chars {v : Json} (hv : IsPlain v) :
    ∃ c cs, chars v = c :: cs ∧ isSolid c ∧ c ≠ ']' := by
  cases v with
  | null => exact ⟨'n', _, rfl, rfl, by decide⟩
  | bool b => cases b <;> exact ⟨_, _, rfl, rfl, by decide⟩
  | integer n =>
    obtain ⟨c, cs, hcons⟩ := List.exists_cons_of_ne_nil (integerChars_ne_nil n)
    have hc : isNumberChar c := isNumberChar_of_mem_integerChars (hcons ▸ List.mem_cons_self)
    refine ⟨c, cs, hcons, decide_eq_true ⟨?_, ?_, ?_, ?_⟩, ?_⟩ <;> rintro rfl <;>
      exact absurd hc (by decide)
  | real text => exact hv.elim
  | string s => exact ⟨'"', _, rfl, rfl, by decide⟩
  | array items => exact ⟨'[', _, rfl, rfl, by decide⟩
  | object fields => exact ⟨'{', _, rfl, rfl, by decide⟩

theorem exists_cons_itemChars {v : Json} (hv : IsPlain v) (vs : List Json) :
    ∃ c cs, itemChars (v :: vs) = c :: cs ∧ isSolid c ∧ c ≠ ']' := by
  obtain ⟨c, cs, hcons, hc⟩ := exists_cons_chars hv
  cases vs with
  | nil => exact ⟨c, cs, by rw [itemChars, hcons], hc⟩
  | cons w vs =>
    refine ⟨c, cs ++ ',' :: itemChars (w :: vs), ?_, hc⟩
    rw [itemChars, hcons, List.cons_append]
    exact nofun

theorem exists_quote_fieldChars (key : String) (v : Json) (fs : List (String × Json)) :
    ∃ cs, fieldChars ((key, v) :: fs) = '"' :: cs := by
  cases fs with
  | nil => exact ⟨_, by rw [fieldChars, quotedChars]; rfl⟩
  | cons f fs => exact ⟨_, by rw [fieldChars, quotedChars]; exacts [rfl, nofun]⟩

theorem setField_of_notMem {fields : List (String × Json)} {key : String} {v : Json}
    (h : key ∉ fields.map (·.1)) : setField fields key v = fields ++ [(key, v)] := by
  have hkeep : fields.filter (fun f => f.1 ≠ key) = fields :=
    List.filter_eq_self.2 fun f hf => decide_eq_true fun heq => h (heq ▸ List.mem_map_of_mem hf)
  rw [setField, hkeep]

theorem readString_quotedChars (key : String) (cs : List Char) :
    ∃ ds, quotedChars key ++ cs = '"' :: ds ∧ readString [] ds = some (key, cs) := by
  have hread := readString_quoted key.toList [] cs
  rw [List.reverse_nil, List.nil_append, String.ofList_toList] at hread
  refine ⟨_, ?_, hread⟩
  rw [quotedChars, List.append_assoc]
  rfl

theorem notMem_of_nodup {fields fs : List (String × Json)} {f : String × Json}
    (h : ((fields ++ f :: fs).map (·.1)).Nodup) : f.1 ∉ fields.map (·.1) := by
  rw [List.map_append, List.map_cons] at h
  exact fun hmem => (List.nodup_append.1 h).2.2 f.1 hmem f.1 List.mem_cons_self rfl

theorem readValue_items (hsolid : isSolid c) (hc : c ≠ ']') (fuel : Nat) (cs : List Char) :
    readValue (fuel + 1) ('[' :: c :: cs) = readItems fuel [] (c :: cs) := by
  rw [readValue, skipBlanks_of_isSolid (by decide)]
  simp only [skipBlanks_of_isSolid hsolid]
  split
  · next heq => exact (hc (List.cons.inj heq).1).elim
  · rfl

theorem readValue_fields (fuel : Nat) (cs : List Char) :
    readValue (fuel + 1) ('{' :: '"' :: cs) = readFields fuel [] ('"' :: cs) := by
  rw [readValue, skipBlanks_of_isSolid (by decide)]
  simp only [skipBlanks_of_isSolid (by decide : isSolid '"')]
  rfl

theorem readItems_last {fuel : Nat} {v : Json} (hread : readValue fuel cs = some (v, ']' :: rest))
    (read : List Json) :
    readItems (fuel + 1) read cs = some (.array (read.reverse ++ [v]), rest) := by
  rw [readItems, hread]
  simp only [Option.bind_eq_bind, Option.bind_some]
  rw [skipBlanks_of_isSolid (by decide), List.reverse_cons]
  rfl

theorem readItems_more {fuel : Nat} {v : Json} (hread : readValue fuel cs = some (v, ',' :: rest))
    (read : List Json) : readItems (fuel + 1) read cs = readItems fuel (v :: read) rest := by
  rw [readItems, hread]
  simp only [Option.bind_eq_bind, Option.bind_some]
  rw [skipBlanks_of_isSolid (by decide)]
  rfl

theorem readFields_last {fuel : Nat} {v : Json} {fields : List (String × Json)} {key : String}
    (hkey : key ∉ fields.map (·.1)) (hread : readValue fuel cs = some (v, '}' :: rest)) :
    readFields (fuel + 1) fields (quotedChars key ++ ':' :: cs) =
      some (.object (fields ++ [(key, v)]), rest) := by
  obtain ⟨ds, hquote, hstring⟩ := readString_quotedChars key (':' :: cs)
  rw [hquote, readFields, skipBlanks_of_isSolid (by decide)]
  simp only [hstring, Option.bind_eq_bind, Option.bind_some]
  rw [skipBlanks_of_isSolid (by decide)]
  simp only [hread, Option.bind_some]
  rw [skipBlanks_of_isSolid (by decide), setField_of_notMem hkey]
  rfl

theorem readFields_more {fuel : Nat} {v : Json} {fields : List (String × Json)} {key : String}
    (hkey : key ∉ fields.map (·.1)) (hread : readValue fuel cs = some (v, ',' :: rest)) :
    readFields (fuel + 1) fields (quotedChars key ++ ':' :: cs) =
      readFields fuel (fields ++ [(key, v)]) rest := by
  obtain ⟨ds, hquote, hstring⟩ := readString_quotedChars key (':' :: cs)
  rw [hquote, readFields, skipBlanks_of_isSolid (by decide)]
  simp only [hstring, Option.bind_eq_bind, Option.bind_some]
  rw [skipBlanks_of_isSolid (by decide)]
  simp only [hread, Option.bind_some]
  rw [skipBlanks_of_isSolid (by decide), setField_of_notMem hkey]
  rfl

mutual

/-- A value is read back in front of any text, if a number does not run on into that text. The
fuel has to exceed the length of what is written for the value. -/
theorem readValue_chars : ∀ (v : Json) (fuel : Nat) (rest : List Char), IsPlain v →
    (chars v).length < fuel → rest.takeWhile isNumberChar = [] →
    readValue fuel (chars v ++ rest) = some (v, rest)
  | .null, fuel + 1, rest, _, _, _ => rfl
  | .bool b, fuel + 1, rest, _, _, _ => by cases b <;> rfl
  | .integer n, fuel + 1, rest, _, _, hrest => readValue_integer hrest n fuel
  | .real _, _, _, hv, _, _ => hv.elim
  | .string s, fuel + 1, rest, _, _, _ => by
    obtain ⟨ds, hquote, hread⟩ := readString_quotedChars s rest
    rw [chars, hquote, readValue, skipBlanks_of_isSolid (by decide)]
    simp only [hread, Option.map_some]
  | .array [], fuel + 1, rest, _, _, _ => rfl
  | .array (v :: vs), fuel + 1, rest, hv, hfuel, _ => by
    have hitems := readItems_itemChars v vs fuel [] rest hv (by
      simp only [chars, List.length_append, List.length_cons, List.length_nil] at hfuel
      omega)
    obtain ⟨c, cs, hchars, hsolid, hc⟩ := exists_cons_itemChars hv.1 vs
    rw [chars, List.append_assoc, List.cons_append]
    rw [hchars, List.cons_append] at hitems ⊢
    rw [readValue_items hsolid hc]
    exact hitems
  | .object [], fuel + 1, rest, _, _, _ => rfl
  | .object ((key, v) :: fs), fuel + 1, rest, hv, hfuel, _ => by
    have hfields := readFields_fieldChars key v fs fuel [] rest hv.1 hv.2 (by
      simp only [chars, List.length_append, List.length_cons, List.length_nil] at hfuel
      omega)
    obtain ⟨cs, hchars⟩ := exists_quote_fieldChars key v fs
    rw [chars, List.append_assoc, List.cons_append]
    rw [hchars, List.cons_append] at hfields ⊢
    rw [readValue_fields]
    exact hfields

theorem readItems_itemChars : ∀ (v : Json) (vs : List Json) (fuel : Nat) (read : List Json)
    (rest : List Char), ArePlain (v :: vs) → (itemChars (v :: vs)).length + 1 < fuel →
    readItems fuel read (itemChars (v :: vs) ++ ']' :: rest) =
      some (.array (read.reverse ++ v :: vs), rest)
  | v, [], fuel + 1, read, rest, hv, hfuel => by
    rw [itemChars] at hfuel ⊢
    exact readItems_last (readValue_chars v fuel _ hv.1 (by omega) rfl) read
  | v, w :: vs, fuel + 1, read, rest, hv, hfuel => by
    have hsplit : itemChars (v :: w :: vs) = chars v ++ ',' :: itemChars (w :: vs) := by
      rw [itemChars]
      exact nofun
    rw [hsplit, List.length_append, List.length_cons] at hfuel
    rw [hsplit, List.append_assoc, List.cons_append,
      readItems_more (readValue_chars v fuel _ hv.1 (by omega) rfl) read,
      readItems_itemChars w vs fuel (v :: read) rest hv.2 (by omega), List.reverse_cons,
      List.append_assoc, List.singleton_append]

theorem readFields_fieldChars : ∀ (key : String) (v : Json) (fs : List (String × Json))
    (fuel : Nat) (fields : List (String × Json)) (rest : List Char),
    ((fields ++ (key, v) :: fs).map (·.1)).Nodup → FieldsArePlain ((key, v) :: fs) →
    (fieldChars ((key, v) :: fs)).length + 1 < fuel →
    readFields fuel fields (fieldChars ((key, v) :: fs) ++ '}' :: rest) =
      some (.object (fields ++ (key, v) :: fs), rest)
  | key, v, [], fuel + 1, fields, rest, hkeys, hv, hfuel => by
    rw [fieldChars, List.length_append, List.length_cons] at hfuel
    rw [fieldChars, List.append_assoc, List.cons_append]
    exact readFields_last (notMem_of_nodup hkeys) (readValue_chars v fuel _ hv.1 (by omega) rfl)
  | key, v, (next, w) :: fs, fuel + 1, fields, rest, hkeys, hv, hfuel => by
    have hsplit : fieldChars ((key, v) :: (next, w) :: fs) =
        quotedChars key ++ ':' :: (chars v ++ ',' :: fieldChars ((next, w) :: fs)) := by
      rw [fieldChars]
      exact nofun
    simp only [hsplit, List.length_append, List.length_cons] at hfuel
    have hkey : key ∉ fields.map (·.1) := notMem_of_nodup hkeys
    rw [List.append_cons] at hkeys
    rw [hsplit, List.append_assoc, List.cons_append, List.append_assoc, List.cons_append,
      readFields_more hkey (readValue_chars v fuel _ hv.1 (by omega) rfl),
      readFields_fieldChars next w fs fuel _ rest hkeys hv.2 (by omega), List.append_assoc,
      List.singleton_append]

end

end Json

/-- What is written for a value is a text for it: a value in which all numbers are integers and no
object has a key twice is read back from it. -/
def JsonText.Faithful (form : JsonText) : Prop :=
  ∀ v : Json, v.IsPlain → form.parse (form.render v) = some v

def JsonText.standard : JsonText := ⟨Json.render, Json.parse?⟩

end Wirebench

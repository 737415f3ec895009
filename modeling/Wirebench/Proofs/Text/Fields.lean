import Wirebench.Text.Blank
import Wirebench.Text.Split

namespace Wirebench.Text

variable {sep c : Char} {cs ds field rest : List Char} {fields : List (List Char)}

theorem split_append_sep (sep : Char) (cs ds : List Char) :
    split sep (cs ++ sep :: ds) = split sep cs ++ split sep ds := by
  induction cs with
  | nil => simp only [List.nil_append, split, ↓reduceIte, List.singleton_append]
  | cons c cs ih =>
    simp only [List.cons_append, split, ih]
    split
    · rfl
    · cases hcs : split sep cs with
      | nil => exact (split_ne_nil sep cs hcs).elim
      | cons field fields => rfl

theorem join_cons_cons (sep field field' : List Char) (fields : List (List Char)) :
    join sep (field :: field' :: fields) = field ++ sep ++ join sep (field' :: fields) := rfl

theorem split_join (hne : fields ≠ []) (h : ∀ field ∈ fields, sep ∉ field) :
    split sep (join [sep] fields) = fields := by
  induction fields with
  | nil => exact (hne rfl).elim
  | cons field fields ih =>
    have hfield := h field List.mem_cons_self
    cases fields with
    | nil => exact split_eq_singleton hfield
    | cons field' fields =>
      have hrest := ih (List.cons_ne_nil _ _) fun f hf => h f (List.mem_cons_of_mem _ hf)
      rw [join_cons_cons, List.append_assoc, List.singleton_append, split_append_sep, hrest,
        split_eq_singleton hfield, List.singleton_append]

theorem notMem_of_mem_split (h : field ∈ split sep cs) : sep ∉ field := by
  induction cs generalizing field with
  | nil =>
    rw [split, List.mem_singleton] at h
    exact h ▸ List.not_mem_nil
  | cons c cs ih =>
    rw [split] at h
    split at h
    · rcases List.mem_cons.1 h with rfl | h
      · exact List.not_mem_nil
      · exact ih h
    · next hc =>
      cases hcs : split sep cs with
      | nil => exact (split_ne_nil sep cs hcs).elim
      | cons first fields =>
        rw [hcs] at h ih
        rcases List.mem_cons.1 h with rfl | h
        · have hfirst := ih List.mem_cons_self
          rintro (_ | ⟨_, hin⟩)
          · exact hc rfl
          · exact hfirst hin
        · exact ih (List.mem_cons_of_mem _ h)

/-- A character other than the separator stays in one of the fields. -/
theorem exists_mem_split (h : c ∈ cs) (hc : c ≠ sep) : ∃ field ∈ split sep cs, c ∈ field := by
  obtain ⟨before, after, rfl⟩ := List.append_of_mem h
  induction before with
  | nil =>
    rw [List.nil_append, split, if_neg hc]
    split
    · exact ⟨_, List.mem_cons_self, List.mem_cons_self⟩
    · exact ⟨_, List.mem_cons_self, List.mem_cons_self⟩
  | cons b before ih =>
    obtain ⟨field, hfield, hin⟩ := ih (List.mem_append_right _ List.mem_cons_self)
    rw [List.cons_append, split]
    split
    · exact ⟨field, List.mem_cons_of_mem _ hfield, hin⟩
    · split
      · next hnil => exact (split_ne_nil _ _ hnil).elim
      · next first fields hcs =>
        rw [hcs] at hfield
        rcases List.mem_cons.1 hfield with rfl | hfield
        · exact ⟨_, List.mem_cons_self, List.mem_cons_of_mem _ hin⟩
        · exact ⟨field, List.mem_cons_of_mem _ hfield, hin⟩

theorem notMem_join {sep : List Char} (hsep : c ∉ sep) (h : ∀ field ∈ fields, c ∉ field) :
    c ∉ join sep fields := by
  induction fields with
  | nil => exact List.not_mem_nil
  | cons field fields ih =>
    have hfield := h field List.mem_cons_self
    cases fields with
    | nil => exact hfield
    | cons field' fields =>
      have hrest := ih fun f hf => h f (List.mem_cons_of_mem _ hf)
      rw [join_cons_cons, List.mem_append, List.mem_append]
      rintro ((hin | hin) | hin)
      · exact hfield hin
      · exact hsep hin
      · exact hrest hin

theorem splitFirst_append (h : sep ∉ field) (rest : List Char) :
    splitFirst sep (field ++ sep :: rest) = some (field, rest) := by
  induction field with
  | nil => rw [List.nil_append, splitFirst, if_pos rfl]
  | cons c field ih =>
    have hc : c ≠ sep := fun e => h (e ▸ List.mem_cons_self)
    have hrest := ih fun hin => h (List.mem_cons_of_mem _ hin)
    rw [List.cons_append, splitFirst, if_neg hc, hrest, Option.map_some]

theorem splitLast_eq_none (h : sep ∉ cs) : splitLast sep cs = none := by
  induction cs with
  | nil => rfl
  | cons c cs ih =>
    have hc : c ≠ sep := fun e => h (e ▸ List.mem_cons_self)
    rw [splitLast, ih fun hin => h (List.mem_cons_of_mem _ hin)]
    exact if_neg hc

theorem splitLast_append (rest : List Char) (h : sep ∉ field) :
    splitLast sep (rest ++ sep :: field) = some (rest, field) := by
  induction rest with
  | nil =>
    rw [List.nil_append, splitLast, splitLast_eq_none h]
    exact if_pos rfl
  | cons c rest ih => rw [List.cons_append, splitLast, ih]

theorem mem_of_mem_trim (h : c ∈ trim cs) : c ∈ cs := by
  rw [trim, trimEnd, List.mem_reverse] at h
  have hstart := List.mem_reverse.1 ((List.dropWhile_suffix isBlank).mem h)
  exact (List.dropWhile_suffix isBlank).mem hstart

theorem isBlank_of_head?_dropWhile (h : (cs.dropWhile isBlank).head? = some c) :
    isBlank c = false := by
  induction cs with
  | nil => cases h
  | cons b cs ih =>
    rw [List.dropWhile_cons] at h
    split at h
    · exact ih h
    · next hb =>
      cases h
      exact Bool.eq_false_iff.2 hb

theorem isBlank_of_getLast?_trim (h : (trim cs).getLast? = some c) : isBlank c = false := by
  rw [trim, trimEnd, List.getLast?_reverse] at h
  exact isBlank_of_head?_dropWhile h

/-- Cutting blanks off the end does not bring another character to the front. -/
theorem isBlank_of_head?_trim (h : (trim cs).head? = some c) : isBlank c = false := by
  have hprefix : trim cs <+: trimStart cs := by
    rw [trim, trimEnd, ← List.reverse_suffix, List.reverse_reverse]
    exact List.dropWhile_suffix isBlank
  obtain ⟨after, hafter⟩ := hprefix
  obtain ⟨ds, hds⟩ := List.head?_eq_some_iff.1 h
  have hstart : (cs.dropWhile isBlank).head? = some c := by
    rw [← trimStart, ← hafter, hds, List.cons_append, List.head?_cons]
  exact isBlank_of_head?_dropWhile hstart

/-- Neither the first nor the last character is a blank. -/
structure IsTrimmed (cs : List Char) : Prop where
  first : ∀ c, cs.head? = some c → isBlank c = false
  last : ∀ c, cs.getLast? = some c → isBlank c = false

theorem isTrimmed_trim (cs : List Char) : IsTrimmed (trim cs) :=
  ⟨fun _ => isBlank_of_head?_trim, fun _ => isBlank_of_getLast?_trim⟩

theorem dropWhile_isBlank_eq_self (h : ∀ c, cs.head? = some c → isBlank c = false) :
    cs.dropWhile isBlank = cs := by
  cases cs with
  | nil => rfl
  | cons c cs => rw [List.dropWhile_cons, h c rfl, if_neg Bool.false_ne_true]

theorem trim_eq_self_iff : trim cs = cs ↔ IsTrimmed cs := by
  constructor
  · intro h
    exact h ▸ isTrimmed_trim cs
  · rintro ⟨hfirst, hlast⟩
    have hlast' (c : Char) (h : cs.reverse.head? = some c) : isBlank c = false := by
      rw [List.head?_reverse] at h
      exact hlast c h
    rw [trim, trimStart, dropWhile_isBlank_eq_self hfirst, trimEnd,
      dropWhile_isBlank_eq_self hlast', List.reverse_reverse]

theorem isTrimmed_of_forall (h : ∀ c ∈ cs, isBlank c = false) : IsTrimmed cs :=
  ⟨fun c hc => h c (List.mem_of_mem_head? hc), fun c hc => h c (List.mem_of_getLast? hc)⟩

end Wirebench.Text

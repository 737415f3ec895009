import Wirebench.Address.Basic
import Wirebench.Proofs.Address.Ip

namespace Wirebench.SocketAddress

open Text (decimal)

theorem entryChars_v4 (ip : Ipv4) (p : UInt16) : (v4 ip p).entryChars =
    "ipv4".toList ++ ',' :: (ip.textChars ++ ',' :: decimal p.toNat) := by
  have hstart : "ipv4,".toList = "ipv4".toList ++ [','] := by decide
  change "ipv4,".toList ++ ip.textChars ++ _ = _
  rw [hstart, List.append_assoc, List.append_assoc, List.singleton_append]

theorem entryChars_v6 (ip : Ipv6) (p : UInt16) (flow scope : UInt32) :
    (v6 ip p flow scope).entryChars =
      "ipv6".toList ++ ',' :: (ip.textChars ++ ',' :: decimal p.toNat) := by
  have hstart : "ipv6,".toList = "ipv6".toList ++ [','] := by decide
  change "ipv6,".toList ++ ip.textChars ++ _ = _
  rw [hstart, List.append_assoc, List.append_assoc, List.singleton_append]

theorem parseEntry_v4 (ip : Ipv4) (p : UInt16) :
    parseEntry (v4 ip p).entryChars = .ok (v4 ip p) := by
  have hfamily : ',' ∉ "ipv4".toList := by decide
  have hport : ',' ∉ decimal p.toNat := Text.notMem_decimal (by decide) _
  rw [entryChars_v4, parseEntry, Text.splitFirst_append hfamily]
  dsimp only
  rw [Text.splitLast_append _ hport]
  simp only [Ipv4.parse?_textChars, Text.decimal?_port, Option.isNone_some, Bool.false_eq_true,
    false_and, ↓reduceIte, UInt16.ofNat_toNat]

theorem parseEntry_v6 (ip : Ipv6) (p : UInt16) (flow scope : UInt32) :
    parseEntry (v6 ip p flow scope).entryChars = .ok (v6 ip p 0 0) := by
  have hfamily : ',' ∉ "ipv6".toList := by decide
  have hport : ',' ∉ decimal p.toNat := Text.notMem_decimal (by decide) _
  have hv4 : Ipv4.parse? ip.textChars = none :=
    Ipv4.parse?_of_mem ip.mem_textChars_colon (by decide) (by decide)
  rw [entryChars_v6, parseEntry, Text.splitFirst_append hfamily]
  dsimp only
  rw [Text.splitLast_append _ hport]
  simp only [hv4, Ipv6.parse?_textChars, Text.decimal?_port, Option.isNone_some, Bool.false_eq_true,
    and_false, ↓reduceIte, UInt16.ofNat_toNat]

theorem parseEntry_entryChars (a : SocketAddress) : parseEntry a.entryChars = .ok a.unscoped := by
  cases a with
  | v4 ip p => exact parseEntry_v4 ip p
  | v6 ip p flow scope => exact parseEntry_v6 ip p flow scope

theorem notMem_entryChars (a : SocketAddress) : ';' ∉ a.entryChars := by
  have hport (p : UInt16) : ';' ∉ decimal p.toNat := Text.notMem_decimal (by decide) _
  cases a with
  | v4 ip p =>
    have hip : ';' ∉ ip.textChars := ip.notMem_textChars (by decide) (by decide)
    simp [entryChars_v4, hip, hport]
  | v6 ip p flow scope =>
    have hip : ';' ∉ ip.textChars := ip.notMem_textChars (by decide) (by decide) (by decide)
    simp [entryChars_v6, hip, hport]

theorem mapM_parseEntry (as : List SocketAddress) :
    (as.map entryChars).mapM parseEntry = .ok (as.map unscoped) := by
  induction as with
  | nil => rfl
  | cons a as ih =>
    rw [List.map_cons, List.mapM_cons, parseEntry_entryChars, ih]
    rfl

theorem parseList_of_ne_nil {as : List SocketAddress} (h : as ≠ []) :
    parseList (listText as) = .ok (as.map unscoped) := by
  have hfields : ∀ field ∈ as.map entryChars, ';' ∉ field := by
    intro field hfield
    obtain ⟨a, -, rfl⟩ := List.mem_map.1 hfield
    exact a.notMem_entryChars
  rw [parseList, listText, String.toList_ofList, Text.split_join (by simpa using h) hfields,
    mapM_parseEntry]

theorem parseList_listText_nil :
    parseList (listText []) = .error (.invalidDescriptor "" .missingFamily) := rfl

theorem unscoped_eq_self_iff (a : SocketAddress) : a.unscoped = a ↔
    ∀ ip port flow scope, v6 ip port flow scope = a → flow = 0 ∧ scope = 0 := by
  cases a with
  | v4 ip p => exact ⟨fun _ => nofun, fun _ => rfl⟩
  | v6 ip p flow scope =>
    constructor
    · rintro h _ _ _ _ ⟨⟩
      cases h
      exact ⟨rfl, rfl⟩
    · intro h
      obtain ⟨rfl, rfl⟩ := h _ _ _ _ rfl
      rfl

theorem map_unscoped_eq_self_iff (as : List SocketAddress) : as.map unscoped = as ↔
    ∀ ip port flow scope, v6 ip port flow scope ∈ as → flow = 0 ∧ scope = 0 := by
  induction as with
  | nil => exact ⟨fun _ => nofun, fun _ => rfl⟩
  | cons a as ih =>
    rw [List.map_cons, List.cons.injEq, unscoped_eq_self_iff, ih]
    constructor
    · rintro ⟨hhead, htail⟩ ip port flow scope hin
      rcases List.mem_cons.1 hin with he | hin
      · exact hhead ip port flow scope he
      · exact htail ip port flow scope hin
    · intro h
      exact ⟨fun _ _ _ _ he => h _ _ _ _ (List.mem_cons.2 (.inl he)),
        fun _ _ _ _ hin => h _ _ _ _ (List.mem_cons_of_mem a hin)⟩

/-- The text of a list of addresses is read if and only if the list is not empty. What is read are
the addresses without flow information and scope, so it is the list itself if and only if no address
has any. -/
theorem listText_roundTrip (as : List SocketAddress) :
    ((∃ bs, parseList (listText as) = .ok bs) ↔ as ≠ []) ∧
      (as ≠ [] → parseList (listText as) = .ok (as.map unscoped)) ∧
        (parseList (listText as) = .ok as ↔ as ≠ [] ∧
          ∀ ip port flow scope, v6 ip port flow scope ∈ as → flow = 0 ∧ scope = 0) := by
  by_cases h : as = []
  · subst h
    rw [parseList_listText_nil]
    refine ⟨⟨?_, fun h => (h rfl).elim⟩, fun h => (h rfl).elim, ?_, fun h => (h.1 rfl).elim⟩
    · rintro ⟨bs, hbs⟩
      cases hbs
    · exact nofun
  · have hself := map_unscoped_eq_self_iff as
    rw [parseList_of_ne_nil h]
    exact ⟨⟨fun _ => h, fun _ => ⟨_, rfl⟩⟩, fun _ => rfl,
      fun hread => ⟨h, hself.1 (Except.ok.inj hread)⟩, fun hall => congrArg _ (hself.2 hall.2)⟩

/-- Two runs of equal length, of which the first is left out; a mapped address; no run; and a link
that is local to an interface. -/
theorem listText_roundTrip_forms :
    let as := [v6 ⟨1, 0, 0, 2, 3, 0, 0, 4⟩ 80 0 0, v6 ⟨0, 0, 0, 0, 0, 0xffff, 0x7f00, 1⟩ 9 0 0,
      v6 ⟨1, 0, 2, 0, 3, 0, 4, 0⟩ 65535 0 0, v4 .localhost 0,
      v6 ⟨0xfe80, 0, 0, 0, 0, 0, 0, 1⟩ 22 0 7]
    as ≠ [] ∧ parseList (listText as) = .ok (as.map unscoped) :=
  ⟨by decide, (listText_roundTrip _).2.1 (by decide)⟩

end Wirebench.SocketAddress

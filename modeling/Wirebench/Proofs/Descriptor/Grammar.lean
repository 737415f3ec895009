import Wirebench.Proofs.Descriptor.RoundTrip
import Wirebench.Proofs.Text.Positional

namespace Wirebench.Descriptor

variable {s : String} {d : Descriptor} {field token : List Char}
  {fs rest : List (List Char)} {host : Option String} {port : Option UInt16}

def filterName : List Char := Filter.telnet.token.toList

/-- A port is pending, or it is a number of sixteen bits in decimal digits. -/
inductive IsPort : List Char → Option UInt16 → Prop
  | pending : IsPort [] none
  | number {field : List Char} {p : UInt16} : Text.IsNumeral 10 field p.toNat →
    IsPort field (some p)

inductive IsAddress : List (List Char) → Option String → Option UInt16 → Prop
  | port {field : List Char} {p : Option UInt16} : IsPort field p → IsAddress [field] none p
  | hostAndPort {host field : List Char} {p : Option UInt16} : host ≠ [] → IsPort field p →
    IsAddress [host, field] (some (String.ofList host)) p

/-- The fields are those of a descriptor with `k` filters. -/
structure Spells (fs : List (List Char)) (k : Nat) (d : Descriptor) : Prop where
  filters : d.filters = List.replicate k .telnet
  names : ∃ rest, fs = List.replicate k filterName ++ d.protocol.token.toList :: rest ∧
    IsAddress rest d.transport.host d.transport.port

/-- Some filter names come before a field that has the form of a protocol name, but is none. -/
def HasUnknownProtocol (fs : List (List Char)) (token : List Char) : Prop :=
  (∃ k rest, fs = List.replicate k filterName ++ token :: rest) ∧
    token ≠ filterName ∧ token ≠ [] ∧ '(' ∉ token ∧ ∀ p : Protocol, token ≠ p.token.toList

theorem readPort_eq_ok_iff : readPort field = .ok port ↔ IsPort field port := by
  have hread {p : UInt16} (hp : Text.IsNumeral 10 field p.toNat) :
      Text.decimal? 65535 field = some p.toNat :=
    Text.decimal?_eq_some_iff.2 ⟨hp, Nat.le_of_lt_succ p.toNat_lt⟩
  rw [readPort]
  split
  · next hempty =>
    obtain rfl := List.isEmpty_iff.1 hempty
    constructor
    · rintro ⟨⟩
      exact .pending
    · rintro (_ | hp)
      · rfl
      · exact (hp.ne_nil rfl).elim
  · next hempty =>
    cases hn : Text.decimal? 65535 field with
    | none =>
      constructor
      · rintro ⟨⟩
      · rintro (_ | hp)
        · exact (hempty rfl).elim
        · cases hn.symm.trans (hread hp)
    | some n =>
      obtain ⟨hfield, hle⟩ := Text.decimal?_eq_some_iff.1 hn
      have hsame : (UInt16.ofNat n).toNat = n := UInt16.toNat_ofNat_of_lt' (Nat.lt_succ_of_le hle)
      constructor
      · rintro ⟨⟩
        exact .number (hsame.symm ▸ hfield)
      · rintro (_ | hp)
        · exact (hempty rfl).elim
        · obtain rfl := Option.some.inj (hn.symm.trans (hread hp))
          simp only [UInt16.ofNat_toNat]

theorem readAddress_eq_ok_iff : readAddress rest = .ok (host, port) ↔ IsAddress rest host port := by
  match rest with
  | [] => constructor <;> rintro ⟨⟩
  | [last] =>
    rw [readAddress]
    constructor
    · intro h
      cases hp : readPort last with
      | error fault => rw [hp] at h; cases h
      | ok p =>
        rw [hp] at h
        cases h
        exact .port (readPort_eq_ok_iff.1 hp)
    · rintro ⟨hp⟩
      rw [readPort_eq_ok_iff.2 hp]
      rfl
  | [name, last] =>
    rw [readAddress]
    constructor
    · intro h
      split at h
      · cases h
      · next hname =>
        cases hp : readPort last with
        | error fault => rw [hp] at h; cases h
        | ok p =>
          rw [hp] at h
          cases h
          exact .hostAndPort (fun he => hname (List.isEmpty_iff.2 he)) (readPort_eq_ok_iff.1 hp)
    · rintro (_ | ⟨hname, hp⟩)
      rw [if_neg (fun he => hname (List.isEmpty_iff.1 he)), readPort_eq_ok_iff.2 hp]
      rfl
  | _ :: _ :: _ :: _ => constructor <;> rintro ⟨⟩

theorem ofToken?_filterName : Filter.ofToken? (String.ofList filterName) = some .telnet := by
  rw [filterName, String.ofList_toList, Filter.ofToken?_token]

theorem ofToken?_eq_none (h : token ≠ filterName) :
    Filter.ofToken? (String.ofList token) = none := by
  apply if_neg
  intro htoken
  rw [← String.toList_inj, String.toList_ofList] at htoken
  exact h htoken

theorem token_of_ofToken? {name : String} {p : Protocol} (h : Protocol.ofToken? name = some p) :
    name.toList = p.token.toList := by
  congr 1
  rw [Protocol.ofToken?] at h
  split at h
  · cases h; assumption
  · split at h
    · cases h; assumption
    · split at h
      · cases h; assumption
      · cases h

theorem takeFilters_replicate (h : rest.head? ≠ some filterName) (k : Nat) :
    takeFilters (List.replicate k filterName ++ rest) = (List.replicate k .telnet, rest) := by
  induction k with
  | zero =>
    cases rest with
    | nil => rfl
    | cons token rest =>
      have htoken : token ≠ filterName := fun he => h (congrArg some he)
      rw [List.replicate_zero, List.nil_append, takeFilters, ofToken?_eq_none htoken]
      rfl
  | succ k ih =>
    rw [List.replicate_succ, List.cons_append, takeFilters, ofToken?_filterName, ih]
    rfl

theorem exists_replicate (fs : List (List Char)) :
    ∃ k rest, fs = List.replicate k filterName ++ rest ∧ rest.head? ≠ some filterName := by
  induction fs with
  | nil => exact ⟨0, [], rfl, nofun⟩
  | cons field fs ih =>
    by_cases hfield : field = filterName
    · obtain ⟨k, rest, rfl, hrest⟩ := ih
      exact ⟨k + 1, rest, by rw [hfield, List.replicate_succ, List.cons_append], hrest⟩
    · exact ⟨0, field :: fs, rfl, fun h => hfield (Option.some.inj h)⟩

theorem Spells.parse_eq {k : Nat} (h : Spells (fields s) k d) : parse s = .ok d := by
  obtain ⟨hfilters, rest, hfields, haddress⟩ := h
  have hnames : fields s = d.filters.map (fun f => f.token.toList) ++
      d.protocol.token.toList :: rest := by
    rw [hfilters, List.map_replicate]
    exact hfields
  rw [parse_of_fields hnames, readAddress_eq_ok_iff.2 haddress]
  rfl

theorem HasUnknownProtocol.parse_eq (h : HasUnknownProtocol (fields s) token) :
    parse s = .error (.unsupportedProtocol (String.ofList token)) := by
  obtain ⟨⟨k, rest, hfields⟩, hfilter, hempty, hparen, hunknown⟩ := h
  have hhead : (token :: rest).head? ≠ some filterName := fun he => hfilter (Option.some.inj he)
  have hnone : Protocol.ofToken? (String.ofList token) = none := by
    rw [Option.eq_none_iff_forall_ne_some]
    intro p hp
    have htoken := token_of_ofToken? hp
    rw [String.toList_ofList] at htoken
    exact hunknown p htoken
  simp only [parse, hfields, takeFilters_replicate hhead, List.isEmpty_iff, hempty, hparen,
    Protocol.parse, hnone, ↓reduceIte]
  rfl

theorem parse_cases (s : String) : (∃ k d, Spells (fields s) k d) ∨
    (∃ token, HasUnknownProtocol (fields s) token) ∨
      ∃ fault, parse s = .error (.invalidDescriptor s fault) := by
  obtain ⟨k, rest, hfields, hhead⟩ := exists_replicate (fields s)
  have hfilters := takeFilters_replicate hhead k
  match rest with
  | [] =>
    right; right
    exact ⟨.missingProtocol, by simp only [parse, hfields, hfilters]⟩
  | token :: rest =>
    by_cases hempty : token = []
    · obtain rfl := hempty
      right; right
      refine ⟨.missingProtocol, ?_⟩
      simp only [parse, hfields, hfilters, List.isEmpty_nil, ↓reduceIte]
    by_cases hparen : '(' ∈ token
    · right; right
      refine ⟨.protocolOptions, ?_⟩
      simp only [parse, hfields, hfilters, List.isEmpty_iff, hempty, hparen, ↓reduceIte]
    by_cases hknown : ∃ p : Protocol, token = p.token.toList
    · obtain ⟨p, rfl⟩ := hknown
      have hnames : fields s = (List.replicate k Filter.telnet).map (fun f => f.token.toList) ++
          p.token.toList :: rest := by
        rw [List.map_replicate]
        exact hfields
      cases haddress : readAddress rest with
      | error fault =>
        right; right
        exact ⟨fault, by rw [parse_of_fields hnames, haddress]⟩
      | ok address =>
        left
        exact ⟨k, ⟨List.replicate k .telnet, p, address.1, address.2⟩, rfl, rest, hfields,
          readAddress_eq_ok_iff.1 haddress⟩
    · right; left
      exact ⟨token, ⟨k, rest, hfields⟩, fun he => hhead (congrArg some he), hempty, hparen,
        fun p hp => hknown ⟨p, hp⟩⟩

theorem exists_spells_of_parse (h : parse s = .ok d) : ∃ k, Spells (fields s) k d := by
  rcases parse_cases s with ⟨k, e, hspells⟩ | ⟨token, htoken⟩ | ⟨fault, hfault⟩
  · cases hspells.parse_eq.symm.trans h
    exact ⟨k, hspells⟩
  · cases htoken.parse_eq.symm.trans h
  · cases hfault.symm.trans h

theorem hasUnknownProtocol_of_parse {name : String}
    (h : parse s = .error (.unsupportedProtocol name)) :
    HasUnknownProtocol (fields s) name.toList := by
  rcases parse_cases s with ⟨k, d, hspells⟩ | ⟨token, htoken⟩ | ⟨fault, hfault⟩
  · cases hspells.parse_eq.symm.trans h
  · cases htoken.parse_eq.symm.trans h
    rwa [String.toList_ofList]
  · cases hfault.symm.trans h

/-- A text is read if and only if its fields, without the blanks around them, are those of a
descriptor, which is then what is read. For any other text there is a descriptor error. It is that
of an unsupported protocol exactly if the first field that is not a filter name has the form of a
protocol name, but is none. -/
theorem parse_accepts_grammar (s : String) :
    (∀ d, parse s = .ok d ↔ ∃ k, Spells (fields s) k d) ∧
      ((∀ k d, ¬Spells (fields s) k d) → ∃ e, parse s = .error e ∧ e.isDescriptorError = true) ∧
        ∀ name, parse s = .error (.unsupportedProtocol name) ↔
          HasUnknownProtocol (fields s) name.toList := by
  refine ⟨fun d => ⟨exists_spells_of_parse, ?_⟩, ?_, fun name => ⟨hasUnknownProtocol_of_parse, ?_⟩⟩
  · rintro ⟨k, hspells⟩
    exact hspells.parse_eq
  · intro hnone
    rcases parse_cases s with ⟨k, d, hspells⟩ | ⟨token, htoken⟩ | ⟨fault, hfault⟩
    · exact (hnone k d hspells).elim
    · exact ⟨_, htoken.parse_eq, rfl⟩
    · exact ⟨_, hfault, rfl⟩
  · intro hunknown
    rw [hunknown.parse_eq, String.ofList_toList]

/-- A host that is called like a filter, and a port with a sign and zeros. -/
example : parse " telnet,udp\t, telnet,+0080" =
    .ok ⟨[.telnet], ⟨.udp, some "telnet", some 80⟩⟩ := by
  rfl

end Wirebench.Descriptor

import Wirebench.Config.Coding
import Wirebench.Proofs.Text.Fields
import Wirebench.Proofs.Text.Numerals

namespace Wirebench.Descriptor

open Text (IsTrimmed trim)

variable {d e : Descriptor} {s : String} {filters : List Filter} {rest : List (List Char)}

/-- The fields that a host makes up when it is read back: one, unless it contains commas. -/
def hostFields : Option String → List (List Char)
  | none => []
  | some h => (Text.split ',' h.toList).map trim

def portField : Option UInt16 → List Char
  | none => []
  | some p => Text.decimal p.toNat

/-- A host that can stand in a field of its own. -/
structure IsPlainHost (h : String) : Prop where
  nonempty : h ≠ ""
  noComma : ',' ∉ h.toList
  trimmed : IsTrimmed h.toList

def HasPlainHost (d : Descriptor) : Prop := ∀ h, d.transport.host = some h → IsPlainHost h

theorem isBlank_of_mem_decimal {n : Nat} {c : Char} (h : c ∈ Text.decimal n) :
    Text.isBlank c = false := by
  obtain ⟨k, hk, rfl⟩ := Text.exists_of_mem_numeral (by decide) h
  exact (by decide : ∀ k < 10, Text.isBlank (Text.digitChar k) = false) k hk

theorem notMem_portField (p : Option UInt16) : ',' ∉ portField p := by
  cases p with
  | none => exact List.not_mem_nil
  | some p => exact Text.notMem_decimal (by decide) p.toNat

theorem trim_portField (p : Option UInt16) : trim (portField p) = portField p := by
  rw [Text.trim_eq_self_iff]
  apply Text.isTrimmed_of_forall
  intro c hc
  cases p with
  | none => exact (List.not_mem_nil hc).elim
  | some p => exact isBlank_of_mem_decimal hc

theorem readPort_portField (p : Option UInt16) : readPort (portField p) = .ok p := by
  cases p with
  | none => rfl
  | some p =>
    have hempty : (Text.decimal p.toNat).isEmpty = false := Text.isEmpty_numeral 10 p.toNat
    rw [portField, readPort, hempty, Text.decimal?_port]
    simp only [Bool.false_eq_true, ↓reduceIte, UInt16.ofNat_toNat]

theorem wireChars_eq (d : Descriptor) :
    d.wireChars = d.filters.flatMap (fun f => f.token.toList ++ [',']) ++
      (d.protocol.token.toList ++ ',' ::
        ((d.transport.host.elim [] fun h => h.toList ++ [',']) ++ portField d.transport.port)) := by
  obtain ⟨filters, protocol, host, port⟩ := d
  cases host <;> cases port <;>
    simp only [wireChars, portField, Option.elim, List.append_assoc, List.cons_append,
      List.nil_append, List.append_nil]

theorem split_filters (filters : List Filter) (cs : List Char) :
    Text.split ',' (filters.flatMap (fun f => f.token.toList ++ [',']) ++ cs) =
      filters.map (fun f => f.token.toList) ++ Text.split ',' cs := by
  induction filters with
  | nil => rfl
  | cons f filters ih =>
    have hf : ',' ∉ f.token.toList := by cases f; decide
    rw [List.flatMap_cons, List.append_assoc, List.append_assoc, List.singleton_append,
      Text.split_append_sep, ih, Text.split_eq_singleton hf, List.map_cons]
    rfl

theorem map_trim_filters (filters : List Filter) :
    (filters.map fun f => f.token.toList).map trim = filters.map fun f => f.token.toList := by
  rw [List.map_map]
  apply List.map_congr_left
  intro f _
  cases f
  decide

theorem fields_wire (d : Descriptor) :
    fields d.wire = d.filters.map (fun f => f.token.toList) ++
      d.protocol.token.toList :: (hostFields d.transport.host ++ [portField d.transport.port]) := by
  have hprotocol : ',' ∉ d.protocol.token.toList := by cases d.protocol <;> decide
  have htrim : trim d.protocol.token.toList = d.protocol.token.toList := by
    cases d.protocol <;> decide
  have hport := Text.split_eq_singleton (notMem_portField d.transport.port)
  rw [fields, wire, String.toList_ofList, wireChars_eq, split_filters, Text.split_append_sep,
    Text.split_eq_singleton hprotocol, List.map_append, map_trim_filters]
  congr 1
  rw [List.singleton_append, List.map_cons, htrim]
  congr 1
  cases d.transport.host with
  | none =>
    rw [Option.elim, List.nil_append, hport, List.map_singleton, trim_portField]
    rfl
  | some h =>
    rw [Option.elim, List.append_assoc, List.singleton_append, Text.split_append_sep, hport,
      List.map_append, List.map_singleton, trim_portField]
    rfl

/-- No protocol is called like a filter. -/
theorem takeFilters_append (filters : List Filter) (p : Protocol) (rest : List (List Char)) :
    takeFilters (filters.map (fun f => f.token.toList) ++ p.token.toList :: rest) =
      (filters, p.token.toList :: rest) := by
  induction filters with
  | nil =>
    have hp : Filter.ofToken? p.token = none := by cases p <;> decide
    rw [List.map_nil, List.nil_append, takeFilters, String.ofList_toList, hp]
  | cons f filters ih =>
    rw [List.map_cons, List.cons_append, takeFilters, String.ofList_toList, Filter.ofToken?_token,
      ih]

theorem parse_of_fields {p : Protocol}
    (h : fields s = filters.map (fun f => f.token.toList) ++ p.token.toList :: rest) :
    parse s =
      match readAddress rest with
      | .ok (host, port) => .ok ⟨filters, ⟨p, host, port⟩⟩
      | .error fault => .error (.invalidDescriptor s fault) := by
  have hempty : p.token.toList.isEmpty = false := by cases p <;> decide
  have hparen : '(' ∉ p.token.toList := by cases p <;> decide
  have hp : Protocol.parse (String.ofList p.token.toList) = .ok p := by
    rw [String.ofList_toList, Protocol.parse, Protocol.ofToken?_token]
  simp only [parse, h, takeFilters_append, hempty, hparen, hp, Bool.false_eq_true, ↓reduceIte]
  rfl

theorem readAddress_of_length (h : 2 < rest.length) : readAddress rest = .error .tooManyFields := by
  match rest with
  | _ :: _ :: _ :: _ => rfl

theorem length_hostFields {h : String} (hcomma : ',' ∈ h.toList) :
    1 < (hostFields (some h)).length := by
  obtain ⟨before, after, hsplit⟩ := List.append_of_mem hcomma
  have hbefore := List.length_pos_iff.2 (Text.split_ne_nil ',' before)
  have hafter := List.length_pos_iff.2 (Text.split_ne_nil ',' after)
  rw [hostFields, List.length_map, hsplit, Text.split_append_sep, List.length_append]
  omega

/-- What the wire form of a descriptor is read as: a host with a comma makes too many fields, one
of blanks only makes an empty field, and any other comes back without the blanks around it. -/
theorem parse_wire (d : Descriptor) :
    parse d.wire =
      match d.transport.host with
      | none => .ok d
      | some h =>
        if ',' ∈ h.toList then .error (.invalidDescriptor d.wire .tooManyFields)
        else if trim h.toList = [] then .error (.invalidDescriptor d.wire .emptyHost)
        else .ok ⟨d.filters, d.protocol, some (String.ofList (trim h.toList)), d.transport.port⟩ := by
  have hport := readPort_portField d.transport.port
  rw [parse_of_fields (fields_wire d)]
  obtain ⟨filters, protocol, host, port⟩ := d
  cases host with
  | none =>
    rw [hostFields, List.nil_append, readAddress, hport]
    rfl
  | some h =>
    dsimp only at hport ⊢
    by_cases hcomma : ',' ∈ h.toList
    · have hmany : 2 < (hostFields (some h) ++ [portField port]).length := by
        have hlen := length_hostFields hcomma
        rw [List.length_append, List.length_singleton]
        omega
      rw [if_pos hcomma, readAddress_of_length hmany]
    · rw [if_neg hcomma, hostFields, Text.split_eq_singleton hcomma, List.map_singleton,
        List.singleton_append, readAddress, hport]
      by_cases hempty : trim h.toList = []
      · rw [if_pos hempty, hempty]
        rfl
      · rw [if_neg hempty, if_neg (by rwa [List.isEmpty_iff])]
        rfl

theorem parse_wire_iff (d : Descriptor) : parse d.wire = .ok d ↔ d.HasPlainHost := by
  rw [parse_wire]
  obtain ⟨filters, protocol, host, port⟩ := d
  cases host with
  | none => exact ⟨fun _ => nofun, fun _ => rfl⟩
  | some h =>
    have hplain : HasPlainHost ⟨filters, protocol, some h, port⟩ ↔ IsPlainHost h :=
      ⟨fun hd => hd h rfl, fun hh h' he => Option.some.inj he ▸ hh⟩
    rw [hplain]
    dsimp only
    constructor
    · intro hread
      split at hread
      · cases hread
      · next hcomma =>
        split at hread
        · cases hread
        · next hempty =>
          have hhost : String.ofList (trim h.toList) = h := by
            injection hread with hread
            injection hread with _ hread
            injection hread with _ hread _
            exact Option.some.inj hread
          have htrim : trim h.toList = h.toList := by
            rw [← String.toList_ofList (l := trim h.toList), hhost]
          constructor
          · rintro rfl
            exact hempty rfl
          · exact hcomma
          · exact Text.trim_eq_self_iff.1 htrim
    · rintro ⟨hne, hcomma, htrimmed⟩
      have hempty : h.toList ≠ [] := fun he => hne (String.toList_eq_nil_iff.1 he)
      rw [if_neg hcomma, Text.trim_eq_self_iff.2 htrimmed, if_neg hempty, String.ofList_toList]
      rfl

theorem takeFilters_suffix (fs : List (List Char)) : (takeFilters fs).2 <:+ fs := by
  induction fs with
  | nil => exact List.suffix_refl []
  | cons f fs ih =>
    rw [takeFilters]
    split
    · exact ih.trans (List.suffix_cons f fs)
    · exact List.suffix_refl _

theorem parse_eq_ok (h : parse s = .ok d) : ∃ token rest,
    takeFilters (fields s) = (d.filters, token :: rest) ∧
      Protocol.parse (String.ofList token) = .ok d.protocol ∧
        readAddress rest = .ok (d.transport.host, d.transport.port) := by
  rw [parse] at h
  cases hf : takeFilters (fields s) with
  | mk filters rest =>
    rw [hf] at h
    cases rest with
    | nil => cases h
    | cons token rest =>
      dsimp only at h
      split at h
      · cases h
      split at h
      · cases h
      cases hp : Protocol.parse (String.ofList token) with
      | error e =>
        rw [hp] at h
        cases h
      | ok p =>
        rw [hp] at h
        cases ha : readAddress rest with
        | error fault =>
          rw [ha] at h
          cases h
        | ok address =>
          rw [ha] at h
          cases h
          exact ⟨token, rest, rfl, hp, ha⟩

theorem readAddress_eq_host {h : String} {port : Option UInt16}
    (hread : readAddress rest = .ok (some h, port)) :
    ∃ field last, rest = [field, last] ∧ field ≠ [] ∧ h = String.ofList field := by
  match rest with
  | [] => cases hread
  | [last] =>
    rw [readAddress] at hread
    cases hp : readPort last with
    | error fault => rw [hp] at hread; cases hread
    | ok p => rw [hp] at hread; cases hread
  | [field, last] =>
    rw [readAddress] at hread
    split at hread
    · cases hread
    · next hempty =>
      cases hp : readPort last with
      | error fault => rw [hp] at hread; cases hread
      | ok p =>
        rw [hp] at hread
        cases hread
        exact ⟨field, last, rfl, fun he => hempty (List.isEmpty_iff.2 he), rfl⟩
  | _ :: _ :: _ :: _ => cases hread

theorem isPlainHost_of_mem_fields {field : List Char} (h : field ∈ fields s) (hne : field ≠ []) :
    IsPlainHost (String.ofList field) := by
  obtain ⟨cs, hcs, rfl⟩ := List.mem_map.1 h
  constructor
  · intro hempty
    exact hne (String.ofList_eq_empty_iff.1 hempty)
  · rw [String.toList_ofList]
    exact fun hin => Text.notMem_of_mem_split hcs (Text.mem_of_mem_trim hin)
  · rw [String.toList_ofList]
    exact Text.isTrimmed_trim cs

theorem hasPlainHost_of_parse (h : parse s = .ok d) : d.HasPlainHost := by
  intro host hhost
  obtain ⟨token, rest, hfilters, -, haddress⟩ := parse_eq_ok h
  rw [hhost] at haddress
  obtain ⟨field, last, rfl, hne, rfl⟩ := readAddress_eq_host haddress
  have hsuffix : [token, field, last] <:+ fields s := by
    have hs := takeFilters_suffix (fields s)
    rwa [hfilters] at hs
  exact isPlainHost_of_mem_fields (hsuffix.mem (by simp)) hne

theorem exists_parse_of_decode {j : Json} (h : decode j = some d) : ∃ s, parse s = .ok d := by
  obtain ⟨s, -, hs⟩ := Option.bind_eq_some_iff.1 h
  cases hp : parse s with
  | error e => rw [hp] at hs; cases hs
  | ok d' => rw [hp] at hs; cases hs; exact ⟨s, hp⟩

/-- Descriptors that have been read from a text or from JSON, and those made from them. -/
inductive Attainable : Descriptor → Prop
  | parsed {s : String} {d : Descriptor} : parse s = .ok d → Attainable d
  | decoded {j : Json} {d : Descriptor} : decode j = some d → Attainable d
  | withFilter {d : Descriptor} (f : Filter) : Attainable d → Attainable (d.withFilter f)
  | withPort {d : Descriptor} (p : UInt16) : Attainable d → Attainable (d.withPort p)
  | inner {d e : Descriptor} : Attainable d → d.inner? = some e → Attainable e

theorem transport_of_inner? (h : d.inner? = some e) : e.transport = d.transport := by
  rw [inner?] at h
  split at h
  · cases h
  · cases h
    rfl

theorem Attainable.hasPlainHost (h : d.Attainable) : d.HasPlainHost := by
  induction h with
  | parsed h => exact hasPlainHost_of_parse h
  | decoded h =>
    obtain ⟨s, hs⟩ := exists_parse_of_decode h
    exact hasPlainHost_of_parse hs
  | withFilter f _ ih => exact ih
  | withPort p _ ih => exact ih
  | inner _ hinner ih =>
    intro host hhost
    rw [transport_of_inner? hinner] at hhost
    exact ih host hhost

/-- A descriptor is read back from its wire form if and only if it has no host or one that can
stand in a field of its own. Otherwise there is an error, or another descriptor is read. All that
has been read, and all that is made from it, is read back. -/
theorem wire_roundTrip (d : Descriptor) :
    (parse d.wire = .ok d ↔ d.HasPlainHost) ∧
      (¬d.HasPlainHost → (∃ err, parse d.wire = .error err) ∨ ∃ e, e ≠ d ∧ parse d.wire = .ok e) ∧
        (d.Attainable → parse d.wire = .ok d) := by
  refine ⟨parse_wire_iff d, ?_, fun h => (parse_wire_iff d).2 h.hasPlainHost⟩
  intro hplain
  cases hread : parse d.wire with
  | error err => exact .inl ⟨err, rfl⟩
  | ok e =>
    have hne : e ≠ d := by
      rintro rfl
      exact hplain ((parse_wire_iff e).1 hread)
    exact .inr ⟨e, hne, rfl⟩

/-- A blank before the host is lost. A descriptor that was read with blanks, with a layer put on and
taken off and a port filled in, is read back, although its host is called like a filter. -/
theorem wire_roundTrip_blanks :
    (∃ e, e ≠ plain .tcp (some " a") none ∧ parse (plain .tcp (some " a") none).wire = .ok e) ∧
      parse (plain .udp (some "telnet") (some 4001)).wire =
        .ok (plain .udp (some "telnet") (some 4001)) := by
  have hread : parse "udp, telnet\t," = .ok (plain .udp (some "telnet") none) := by
    rfl
  have hattainable : (plain .udp (some "telnet") (some 4001)).Attainable :=
    .inner (.withFilter .telnet (.withPort 4001 (.parsed hread))) rfl
  have hblank : ¬(plain .tcp (some " a") none).HasPlainHost := by
    intro h
    have hfirst := (h " a" rfl).trimmed.first ' ' (by decide)
    cases hfirst
  refine ⟨?_, (wire_roundTrip _).2.2 hattainable⟩
  rcases (wire_roundTrip _).2.1 hblank with ⟨err, herr⟩ | h
  · have hok : parse (plain .tcp (some " a") none).wire = .ok (plain .tcp (some "a") none) := by
      rfl
    cases herr.symm.trans hok
  · exact h

end Wirebench.Descriptor

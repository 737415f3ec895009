import Mathlib.Data.Finset.Basic
import Mathlib.Data.Finset.Lattice.Lemmas
import Wirebench.Proofs.Telnet.Replies

namespace Wirebench.Telnet

/-- The bookkeeping of option negotiation as independent sets: the options that a side supports, its
offers that have not been answered, each by the bytes of its verb and option, and the options that
are in force for what it does itself and for what the other side does. -/
structure OptionSets where
  supported : Finset UInt8
  awaiting : Finset (UInt8 × UInt8)
  enabledLocal : Finset UInt8
  enabledRemote : Finset UInt8
  deriving DecidableEq

namespace OptionSets

def supporting (codes : Finset UInt8) : OptionSets := ⟨codes, ∅, ∅, ∅⟩

def ascending (codes : Finset UInt8) : List UInt8 :=
  ((List.range 256).map UInt8.ofNat).filter (· ∈ codes)

/-- Make an offer, which is remembered until it is answered. -/
def offer (x : OptionSets × List UInt8) (w : Word) : OptionSets × List UInt8 :=
  ({ x.1 with awaiting := insert (w.verb.byte, w.code) x.1.awaiting }, x.2 ++ w.bytes)

def offers (s : OptionSets) : OptionSets × List UInt8 :=
  (offerWords (ascending s.supported)).foldl offer (s, [])

def isSettled (s : OptionSets) : Prop := s.awaiting = ∅

instance (s : OptionSets) : Decidable s.isSettled := inferInstanceAs (Decidable (_ = _))

/-- Take in a command by its two bytes; what comes back is the reply to send. -/
def handle (s : OptionSets) (verb option : UInt8) : OptionSets × Option (List UInt8) :=
  match Verb.ofByte? verb with
  | some .doUse =>
    if (Verb.willUse.byte, option) ∈ s.awaiting then
      ({ s with
        awaiting := s.awaiting.erase (Verb.willUse.byte, option)
        enabledLocal := insert option s.enabledLocal }, none)
    else if option ∈ s.supported then
      if option ∈ s.enabledLocal then (s, none)
      else ({ s with enabledLocal := insert option s.enabledLocal },
        some (negotiation .willUse option))
    else (s, some (negotiation .wontUse option))
  | some .willUse =>
    if (Verb.doUse.byte, option) ∈ s.awaiting then
      ({ s with
        awaiting := s.awaiting.erase (Verb.doUse.byte, option)
        enabledRemote := insert option s.enabledRemote }, none)
    else if option ∈ s.supported then
      if option ∈ s.enabledRemote then (s, none)
      else ({ s with enabledRemote := insert option s.enabledRemote },
        some (negotiation .doUse option))
    else (s, some (negotiation .dontUse option))
  | some .dontUse =>
    let s := { s with awaiting := s.awaiting.erase (Verb.willUse.byte, option) }
    if option ∈ s.enabledLocal then
      ({ s with enabledLocal := s.enabledLocal.erase option }, some (negotiation .wontUse option))
    else (s, none)
  | some .wontUse =>
    let s := { s with awaiting := s.awaiting.erase (Verb.doUse.byte, option) }
    if option ∈ s.enabledRemote then
      ({ s with enabledRemote := s.enabledRemote.erase option },
        some (negotiation .dontUse option))
    else (s, none)
  | none => (s, none)

def hearAll (s : OptionSets) (heard : List (UInt8 × UInt8)) : OptionSets :=
  heard.foldl (fun s x => (s.handle x.1 x.2).1) s

/-- A side with some options that has made its offers and then heard all this. -/
def against (codes : Finset UInt8) (heard : List (UInt8 × UInt8)) : OptionSets :=
  (supporting codes).offers.1.hearAll heard

/-- The replies to the words about a direction of an option, in their order. -/
def replies (s : OptionSets) (d : Direction) (code : UInt8) :
    List (UInt8 × UInt8) → List (List UInt8)
  | [] => []
  | x :: heard =>
    (if (Word.ofBytes? x).any fun w => w.code = code ∧ w.verb.direction = d
      then (s.handle x.1 x.2).2.toList else []) ++ (s.handle x.1 x.2).1.replies d code heard

/-- The options that are in force in a direction. -/
def enabled (s : OptionSets) : Direction → Finset UInt8
  | .own => s.enabledLocal
  | .peer => s.enabledRemote

def answered (s : OptionSets) (d : Direction) (code : UInt8) : OptionSets :=
  { s with awaiting := s.awaiting.erase (d.offer.byte, code) }

def enable (s : OptionSets) (code : UInt8) : Direction → OptionSets
  | .own => { s with enabledLocal := insert code s.enabledLocal }
  | .peer => { s with enabledRemote := insert code s.enabledRemote }

def disable (s : OptionSets) (code : UInt8) : Direction → OptionSets
  | .own => { s with enabledLocal := s.enabledLocal.erase code }
  | .peer => { s with enabledRemote := s.enabledRemote.erase code }

variable {s : OptionSets} {codes : Finset UInt8} {ws : List Word} {d d' : Direction}
  {code code' : UInt8} {heard : List (UInt8 × UInt8)} {w : Word} {x : UInt8 × UInt8}

theorem mem_ascending : code ∈ ascending codes ↔ code ∈ codes := by
  simp only [ascending, List.mem_filter, List.mem_map, List.mem_range, decide_eq_true_eq,
    and_iff_right_iff_imp]
  exact fun _ => ⟨code.toNat, code.toNat_lt, UInt8.ofNat_toNat⟩

@[simp] theorem awaiting_enable : (s.enable code d).awaiting = s.awaiting := by
  cases d <;> rfl

@[simp] theorem awaiting_disable : (s.disable code d).awaiting = s.awaiting := by
  cases d <;> rfl

@[simp] theorem supported_enable : (s.enable code d).supported = s.supported := by
  cases d <;> rfl

@[simp] theorem supported_disable : (s.disable code d).supported = s.supported := by
  cases d <;> rfl

@[simp] theorem enabled_answered : (s.answered d code).enabled d' = s.enabled d' := rfl

theorem mem_enabled_enable : code' ∈ (s.enable code d).enabled d' ↔
    d' = d ∧ code' = code ∨ code' ∈ s.enabled d' := by
  cases d <;> cases d' <;> simp [enable, enabled]

theorem mem_enabled_disable : code' ∈ (s.disable code d).enabled d' ↔
    ¬(d' = d ∧ code' = code) ∧ code' ∈ s.enabled d' := by
  cases d <;> cases d' <;> simp [disable, enabled]

theorem handle_consent (s : OptionSets) (d : Direction) (code : UInt8) :
    s.handle d.consent.byte code =
      if (d.offer.byte, code) ∈ s.awaiting then ((s.answered d code).enable code d, none)
      else if code ∈ s.supported then
        if code ∈ s.enabled d then (s, none)
        else (s.enable code d, some (negotiation d.offer code))
      else (s, some (negotiation d.refusal.answer code)) := by
  cases d <;> rfl

theorem handle_refusal (s : OptionSets) (d : Direction) (code : UInt8) :
    s.handle d.refusal.byte code =
      if code ∈ s.enabled d then
        ((s.answered d code).disable code d, some (negotiation d.refusal.answer code))
      else (s.answered d code, none) := by
  cases d <;> rfl

/-- The sets are those of a side with the given options that has been told some words. -/
structure Reflects (codes : Finset UInt8) (ws : List Word) (s : OptionSets) : Prop where
  supported : s.supported = codes
  awaiting : ∀ v code, (v, code) ∈ s.awaiting ↔
    code ∈ codes ∧ ∃ d : Direction, v = d.offer.byte ∧ verbsAbout d code ws = []
  enabled : ∀ d code, code ∈ s.enabled d ↔
    code ∈ codes ∧ (verbsAbout d code ws).getLast? = some d.consent

theorem offerByte_inj : d.offer.byte = d'.offer.byte ↔ d = d' := by
  cases d <;> cases d' <;> decide

theorem verbsAbout_concat_eq_nil : verbsAbout d code (ws ++ [w]) = [] ↔
    verbsAbout d code ws = [] ∧ ¬(w.code = code ∧ w.verb.direction = d) := by
  rw [verbsAbout_append, List.append_eq_nil_iff, verbsAbout_cons]
  split <;> simp_all [verbsAbout]

theorem getLast?_verbsAbout_concat : (verbsAbout d code (ws ++ [w])).getLast? =
    if w.code = code ∧ w.verb.direction = d then some w.verb
    else (verbsAbout d code ws).getLast? := by
  split
  · next h =>
    obtain ⟨rfl, rfl⟩ := h
    rw [verbsAbout_concat_self, List.getLast?_concat]
  · next h => rw [verbsAbout_concat_of_ne h]

namespace Reflects

theorem awaits (h : s.Reflects codes ws) : (d.offer.byte, code) ∈ s.awaiting ↔
    code ∈ codes ∧ verbsAbout d code ws = [] := by
  simp only [h.awaiting, offerByte_inj, exists_eq_left']

theorem mem_answered (h : s.Reflects codes ws) (w : Word) (v : UInt8) (code : UInt8) :
    (v, code) ∈ (s.answered w.verb.direction w.code).awaiting ↔
      code ∈ codes ∧ ∃ d : Direction, v = d.offer.byte ∧ verbsAbout d code (ws ++ [w]) = [] := by
  simp only [answered, Finset.mem_erase, h.awaiting, verbsAbout_concat_eq_nil, ne_eq, Prod.mk.injEq]
  constructor
  · rintro ⟨hne, hc, d, rfl, hnil⟩
    refine ⟨hc, d, rfl, hnil, ?_⟩
    rintro ⟨rfl, rfl⟩
    exact hne ⟨rfl, rfl⟩
  · rintro ⟨hc, d, rfl, hnil, hne⟩
    refine ⟨?_, hc, d, rfl, hnil⟩
    rintro ⟨hbyte, rfl⟩
    exact hne ⟨rfl, (offerByte_inj.1 hbyte).symm⟩

theorem consent (h : s.Reflects codes ws) (hc : code ∈ codes) (d : Direction) :
    ((s.answered d code).enable code d).Reflects codes (ws ++ [⟨d.consent, code⟩]) := by
  have hd : d.consent.direction = d := by cases d <;> rfl
  refine ⟨supported_enable.trans h.supported, fun v c => ?_, fun d' c => ?_⟩
  · have hanswered := h.mem_answered ⟨d.consent, code⟩ v c
    rw [hd] at hanswered
    rw [awaiting_enable]
    exact hanswered
  · rw [mem_enabled_enable, enabled_answered, h.enabled, getLast?_verbsAbout_concat, hd]
    split
    · next hsame =>
      obtain ⟨rfl, rfl⟩ := hsame
      simp [hc]
    · next hne =>
      have hother : ¬(d' = d ∧ c = code) := fun hsame => hne ⟨hsame.2.symm, hsame.1.symm⟩
      rw [or_iff_right hother]

theorem refusal (h : s.Reflects codes ws) (d : Direction) (code : UInt8) :
    ((s.answered d code).disable code d).Reflects codes (ws ++ [⟨d.refusal, code⟩]) := by
  have hd : d.refusal.direction = d := by cases d <;> rfl
  refine ⟨supported_disable.trans h.supported, fun v c => ?_, fun d' c => ?_⟩
  · have hanswered := h.mem_answered ⟨d.refusal, code⟩ v c
    rw [hd] at hanswered
    rw [awaiting_disable]
    exact hanswered
  · rw [mem_enabled_disable, enabled_answered, h.enabled, getLast?_verbsAbout_concat, hd]
    split
    · next hsame =>
      obtain ⟨rfl, rfl⟩ := hsame
      have hne : d.refusal ≠ d.consent := by cases d <;> decide
      simp [hne]
    · next hne =>
      have hother : ¬(d' = d ∧ c = code) := fun hsame => hne ⟨hsame.2.symm, hsame.1.symm⟩
      rw [and_iff_right hother]

end Reflects

theorem answered_of_notMem (h : (d.offer.byte, code) ∉ s.awaiting) : s.answered d code = s := by
  rw [answered, Finset.erase_eq_of_notMem h]

theorem enable_of_mem (h : code ∈ s.enabled d) : s.enable code d = s := by
  cases d with
  | own => rw [enable, Finset.insert_eq_of_mem (show code ∈ s.enabledLocal from h)]
  | peer => rw [enable, Finset.insert_eq_of_mem (show code ∈ s.enabledRemote from h)]

theorem disable_of_notMem (h : code ∉ s.enabled d) : s.disable code d = s := by
  cases d with
  | own => rw [disable, Finset.erase_eq_of_notMem (show code ∉ s.enabledLocal from h)]
  | peer => rw [disable, Finset.erase_eq_of_notMem (show code ∉ s.enabledRemote from h)]

theorem Reflects.unsupported (h : s.Reflects codes ws) (hc : w.code ∉ codes) :
    s.Reflects codes (ws ++ [w]) := by
  refine ⟨h.supported, fun v code => ?_, fun d code => ?_⟩
  · rw [h.awaiting]
    refine and_congr_right fun hmem => exists_congr fun d => and_congr_right fun _ => ?_
    have hne : w.code ≠ code := fun hw => hc (hw ▸ hmem)
    rw [verbsAbout_concat_eq_nil, and_iff_left fun hw => hne hw.1]
  · rw [h.enabled]
    refine and_congr_right fun hmem => ?_
    have hne : w.code ≠ code := fun hw => hc (hw ▸ hmem)
    rw [getLast?_verbsAbout_concat, if_neg fun hw => hne hw.1]

theorem reply?_of_mem (hc : w.code ∈ codes) (ws : List Word) : reply? (ascending codes) ws w =
    let last := (verbsAbout w.verb.direction w.code ws).getLast?
    if last ≠ none ∧ last ≠ some w.verb then some w.acknowledgement else none :=
  if_pos (mem_ascending.2 hc)

theorem reply?_of_notMem (hc : w.code ∉ codes) (ws : List Word) :
    reply? (ascending codes) ws w = match w.verb with
      | .doUse => some (negotiation .wontUse w.code)
      | .willUse => some (negotiation .dontUse w.code)
      | .dontUse | .wontUse => none := by
  have hnot : w.code ∉ ascending codes := mt mem_ascending.1 hc
  rw [reply?, if_neg hnot, refusal?, if_neg hnot]
  cases w.verb <;> rfl

theorem handle_consent_reflects (h : s.Reflects codes ws) (d : Direction) (code : UInt8) :
    (s.handle d.consent.byte code).1.Reflects codes (ws ++ [⟨d.consent, code⟩]) ∧
      (s.handle d.consent.byte code).2 = reply? (ascending codes) ws ⟨d.consent, code⟩ := by
  have hd : d.consent.direction = d := by cases d <;> rfl
  rw [handle_consent]
  by_cases hc : code ∈ codes
  · have hreflects := h.consent hc d
    rw [reply?_of_mem hc, hd, if_pos (h.supported ▸ hc : code ∈ s.supported)]
    split
    · next hawaits =>
      rw [(h.awaits.1 hawaits).2]
      exact ⟨hreflects, rfl⟩
    · next hnot =>
      have hlast : (verbsAbout d code ws).getLast? ≠ none :=
        fun hl => hnot (h.awaits.2 ⟨hc, List.getLast?_eq_none_iff.1 hl⟩)
      rw [answered_of_notMem hnot] at hreflects
      have hiff := (h.enabled d code).trans (and_iff_right hc)
      split
      · next hmem =>
        rw [enable_of_mem hmem] at hreflects
        refine ⟨hreflects, (if_neg ?_).symm⟩
        exact fun hboth => hboth.2 (hiff.1 hmem)
      · next hmem =>
        refine ⟨hreflects, ?_⟩
        rw [if_pos ⟨hlast, mt hiff.2 hmem⟩]
        cases d <;> rfl
  · rw [reply?_of_notMem hc, if_neg fun hawaits => hc (h.awaits.1 hawaits).1,
      if_neg (h.supported ▸ hc : code ∉ s.supported)]
    refine ⟨h.unsupported hc, ?_⟩
    cases d <;> rfl

theorem handle_refusal_reflects (h : s.Reflects codes ws) (d : Direction) (code : UInt8) :
    (s.handle d.refusal.byte code).1.Reflects codes (ws ++ [⟨d.refusal, code⟩]) ∧
      (s.handle d.refusal.byte code).2 = reply? (ascending codes) ws ⟨d.refusal, code⟩ := by
  have hd : d.refusal.direction = d := by cases d <;> rfl
  have hreflects := h.refusal d code
  have hiff := h.enabled d code
  rw [handle_refusal]
  split
  · next hmem =>
    obtain ⟨hc, hlast⟩ := hiff.1 hmem
    refine ⟨hreflects, ?_⟩
    rw [reply?_of_mem hc, hd, hlast]
    cases d <;> rfl
  · next hmem =>
    rw [disable_of_notMem (s := s.answered d code) hmem] at hreflects
    refine ⟨hreflects, ?_⟩
    by_cases hc : code ∈ codes
    · rw [reply?_of_mem hc, hd]
      -- The other side has not said anything yet, or has refused before.
      have hne : (verbsAbout d code ws).getLast? ≠ some d.consent := fun hl => hmem (hiff.2 ⟨hc, hl⟩)
      refine (if_neg ?_).symm
      rintro ⟨hnone, hother⟩
      obtain ⟨v, hv⟩ := Option.ne_none_iff_exists'.1 hnone
      rcases Verb.direction_eq_iff.1 (direction_of_getLast? hv) with rfl | rfl
      · exact hne hv
      · exact hother hv
    · rw [reply?_of_notMem hc]
      cases d <;> rfl

/-- A side that has been told some words and is now told another one changes its sets as it has to,
and its reply is the one that these words call for. -/
theorem handle_reflects (h : s.Reflects codes ws) (w : Word) :
    (s.handle w.verb.byte w.code).1.Reflects codes (ws ++ [w]) ∧
      (s.handle w.verb.byte w.code).2 = reply? (ascending codes) ws w := by
  obtain ⟨v, code⟩ := w
  rcases Verb.direction_eq_iff.1 (rfl : v.direction = v.direction) with hv | hv
  all_goals
    generalize v.direction = d at hv
    subst hv
  · exact handle_consent_reflects h d code
  · exact handle_refusal_reflects h d code

theorem handle_of_ofBytes?_eq_none (hx : Word.ofBytes? x = none) : s.handle x.1 x.2 = (s, none) := by
  rw [handle, Option.map_eq_none_iff.1 hx]

theorem handle_of_ofBytes?_eq_some (hx : Word.ofBytes? x = some w) :
    s.handle x.1 x.2 = s.handle w.verb.byte w.code := by
  obtain ⟨v, hv, rfl⟩ := Option.map_eq_some_iff.1 hx
  rw [Verb.byte_of_ofByte? hv]

/-- The sets of a side say of its options what the modes say. -/
structure Agrees (s : OptionSets) (n : Negotiator) : Prop where
  codes : n.options.map OptionState.code = ascending s.supported
  awaiting : ∀ v code, (v, code) ∈ s.awaiting ↔ ∃ w ∈ n.awaiting, w.verb.byte = v ∧ w.code = code
  enabled : ∀ d code, code ∈ s.enabled d ↔ code ∈ n.enabled d
  settled : s.isSettled ↔ n.isSettled

namespace Reflects

theorem hear (h : s.Reflects codes ws) (x : UInt8 × UInt8) :
    (s.handle x.1 x.2).1.Reflects codes (ws ++ (Word.ofBytes? x).toList) ∧
      (s.handle x.1 x.2).2 = ((Negotiator.latest (ascending codes) ws).hear x).2 := by
  rw [Negotiator.hear_latest]
  cases hx : Word.ofBytes? x with
  | none =>
    rw [handle_of_ofBytes?_eq_none hx, Option.toList_none, List.append_nil]
    exact ⟨h, rfl⟩
  | some w =>
    rw [handle_of_ofBytes?_eq_some hx]
    exact handle_reflects h w

theorem hearAll (h : s.Reflects codes ws) (heard : List (UInt8 × UInt8)) :
    (s.hearAll heard).Reflects codes (ws ++ wordsOf heard) := by
  induction heard generalizing s ws with
  | nil =>
    rw [show wordsOf [] = [] from rfl, List.append_nil]
    exact h
  | cons x heard ih =>
    rw [Negotiator.wordsOf_cons, ← List.append_assoc]
    exact ih (h.hear x).1

theorem replies (h : s.Reflects codes ws) (d : Direction) (code : UInt8)
    (heard : List (UInt8 × UInt8)) : s.replies d code heard =
      (Negotiator.latest (ascending codes) ws).replies d code heard := by
  induction heard generalizing s ws with
  | nil => rfl
  | cons x heard ih =>
    obtain ⟨hnext, hreply⟩ := h.hear x
    rw [OptionSets.replies, Negotiator.replies, ih hnext, hreply, Negotiator.hear_latest]

theorem settled (h : s.Reflects codes ws) : s.isSettled ↔ ∀ code ∈ codes, ∀ d : Direction,
    ⟨d.consent, code⟩ ∈ ws ∨ ⟨d.refusal, code⟩ ∈ ws := by
  simp only [isSettled, Finset.eq_empty_iff_forall_notMem, Prod.forall, h.awaiting,
    ← verbsAbout_ne_nil]
  constructor
  · intro hnone code hc d hnil
    exact hnone _ code ⟨hc, d, rfl, hnil⟩
  · rintro hall v code ⟨hc, d, rfl, hnil⟩
    exact hall code hc d hnil

theorem agrees (h : s.Reflects codes ws) : s.Agrees (Negotiator.latest (ascending codes) ws) where
  codes := by
    rw [h.supported, Negotiator.latest, List.map_map]
    exact List.map_id _
  awaiting v code := by
    simp only [h.awaiting, Negotiator.mem_awaiting_latest, mem_ascending]
    constructor
    · rintro ⟨hc, d, rfl, hnil⟩
      exact ⟨_, ⟨code, hc, d, hnil, rfl⟩, rfl, rfl⟩
    · rintro ⟨w, ⟨code, hc, d, hnil, rfl⟩, rfl, rfl⟩
      exact ⟨hc, d, rfl, hnil⟩
  enabled d code := by rw [h.enabled, Negotiator.mem_enabled_latest, mem_ascending]
  settled := by
    rw [h.settled, Negotiator.isSettled_latest]
    simp only [mem_ascending]

end Reflects

theorem foldl_offer (x : OptionSets × List UInt8) (ws : List Word) : ws.foldl offer x =
    ({ x.1 with
        awaiting := x.1.awaiting ∪ (ws.map fun w => (w.verb.byte, w.code)).toFinset },
      x.2 ++ ws.flatMap Word.bytes) := by
  induction ws generalizing x with
  | nil => simp only [List.foldl_nil, List.map_nil, List.toFinset_nil, Finset.union_empty,
      List.flatMap_nil, List.append_nil]
  | cons w ws ih => simp only [List.foldl_cons, ih, offer, List.map_cons, List.toFinset_cons,
      Finset.insert_union, Finset.union_insert, List.flatMap_cons, List.append_assoc]

/-- All offers of a side are still to be answered when it has made them. -/
theorem offers_reflects (codes : Finset UInt8) : (supporting codes).offers.1.Reflects codes [] := by
  rw [offers, foldl_offer]
  refine ⟨rfl, fun v code => ?_, fun d code => ?_⟩
  · simp only [supporting, Finset.empty_union, List.mem_toFinset, List.mem_map, Prod.mk.injEq,
      mem_offerWords, mem_ascending]
    constructor
    · rintro ⟨⟨u, code⟩, ⟨hc, rfl | rfl⟩, rfl, rfl⟩
      · exact ⟨hc, .own, rfl, rfl⟩
      · exact ⟨hc, .peer, rfl, rfl⟩
    · rintro ⟨hc, d, rfl, -⟩
      refine ⟨⟨d.offer, code⟩, ⟨hc, ?_⟩, rfl, rfl⟩
      cases d with
      | own => exact .inl rfl
      | peer => exact .inr rfl
  · refine iff_of_false ?_ fun h => nomatch h.2
    cases d <;> exact Finset.notMem_empty code

theorem bytes_offers (codes : Finset UInt8) :
    (supporting codes).offers.2 = Negotiator.offers (ascending codes) := by
  rw [offers, foldl_offer, offerWords, List.flatMap_assoc]
  rfl

/-- The options that a configuration asks for. -/
def configured (config : TelnetConfig) : Finset UInt8 :=
  (if config.binary then {optionBinary} else ∅) ∪
    if config.suppressGoAhead then {optionSuppressGoAhead} else ∅

theorem ascending_configured (config : TelnetConfig) :
    ascending (configured config) = Negotiator.supported config := by
  obtain ⟨binary, suppressGoAhead⟩ := config
  cases binary <;> cases suppressGoAhead <;> decide

/-- What a side with the given options knows of them when it has been told some words. -/
structure Knows (codes : Finset UInt8) (ws : List Word) (s : OptionSets) : Prop where
  awaiting : ∀ x ∈ s.awaiting, x.2 ∈ codes ∧ (x.1 = Verb.willUse.byte ∨ x.1 = Verb.doUse.byte)
  enabled : ∀ d, s.enabled d ⊆ codes
  /-- What is still awaited in a direction is not in force in it. -/
  apart : ∀ d code, (d.offer.byte, code) ∈ s.awaiting → code ∉ s.enabled d
  settled : s.isSettled ↔ ∀ code ∈ codes, ∀ d : Direction,
    ⟨d.consent, code⟩ ∈ ws ∨ ⟨d.refusal, code⟩ ∈ ws
  /-- The last word about a direction counts. -/
  inForce : ∀ code ∈ codes, ∀ d : Direction,
    code ∈ s.enabled d ↔ (verbsAbout d code ws).getLast? = some d.consent

theorem Reflects.knows (h : s.Reflects codes ws) : s.Knows codes ws where
  awaiting := by
    rintro ⟨v, code⟩ hx
    obtain ⟨hc, d, rfl, -⟩ := (h.awaiting v code).1 hx
    refine ⟨hc, ?_⟩
    cases d with
    | own => exact .inl rfl
    | peer => exact .inr rfl
  enabled d code hmem := ((h.enabled d code).1 hmem).1
  apart d code hawaits hmem := by
    have hlast := ((h.enabled d code).1 hmem).2
    rw [(h.awaits.1 hawaits).2] at hlast
    cases hlast
  settled := h.settled
  inForce code hc d := (h.enabled d code).trans (and_iff_right hc)

theorem Reflects.awaiting_subset (h : s.Reflects codes ws) (x : UInt8 × UInt8) :
    (s.handle x.1 x.2).1.awaiting ⊆ s.awaiting := by
  rintro ⟨v, code⟩ hmem
  obtain ⟨hc, d, rfl, hnil⟩ := ((h.hear x).1.awaiting v code).1 hmem
  rw [verbsAbout_append, List.append_eq_nil_iff] at hnil
  exact (h.awaiting _ code).2 ⟨hc, d, rfl, hnil.1⟩

/-- A side replies to a word about one of its options only if that changes what is in force. -/
theorem Reflects.enabled_of_reply (h : s.Reflects codes ws) (hc : w.code ∈ codes)
    (hx : Word.ofBytes? x = some w) (hreply : (s.handle x.1 x.2).2 ≠ none) :
    w.code ∈ (s.handle x.1 x.2).1.enabled w.verb.direction ↔
      w.code ∉ s.enabled w.verb.direction := by
  rw [handle_of_ofBytes?_eq_some hx] at hreply ⊢
  obtain ⟨hnext, hrule⟩ := handle_reflects h w
  rw [hrule, reply?_of_mem hc, ne_eq, ite_eq_right_iff, Classical.not_imp] at hreply
  rw [hnext.enabled, h.enabled, verbsAbout_concat_self, List.getLast?_concat]
  obtain ⟨u, hu⟩ := Option.ne_none_iff_exists'.1 hreply.1.1
  have huw : u ≠ w.verb := fun heq => hreply.1.2 (hu.trans (congrArg some heq))
  have hv := Verb.direction_eq_iff.1 (rfl : w.verb.direction = w.verb.direction)
  simp only [hu, hc, true_and, Option.some.injEq]
  rcases Verb.direction_eq_iff.1 (direction_of_getLast? hu) with h | h <;>
    rcases hv with h' | h' <;> grind

/-- A side with any options makes its offers and is then told anything, in any order and as often
as the other side likes. At every moment it knows what it has been told last about each direction
of its options. What it awaits only becomes less. It replies to a word about one of its options if
and only if another word about that direction came before and said the opposite, and that changes
what is in force; so its replies about a direction alternate. It refuses offers of other options,
and does not reply to anything else. In all this it makes no difference whether the side keeps its
sets or a mode for each direction of its options. -/
theorem replies_to_any_peer (codes : Finset UInt8) (heard : List (UInt8 × UInt8)) :
    (against codes heard).Knows codes (wordsOf heard) ∧
      let s := against codes heard
      (∀ x : UInt8 × UInt8, (s.handle x.1 x.2).1.awaiting ⊆ s.awaiting) ∧
      (∀ x w, Word.ofBytes? x = some w → w.code ∈ codes →
        let last := (verbsAbout w.verb.direction w.code (wordsOf heard)).getLast?
        (s.handle x.1 x.2).2 =
            (if last ≠ none ∧ last ≠ some w.verb then some w.acknowledgement else none) ∧
          ((s.handle x.1 x.2).2 ≠ none →
            (w.code ∈ (s.handle x.1 x.2).1.enabled w.verb.direction ↔
              w.code ∉ s.enabled w.verb.direction))) ∧
      (∀ code ∈ codes, ∀ d,
        (supporting codes).offers.1.replies d code heard =
            ((verbsAbout d code (wordsOf heard)).destutter (· ≠ ·)).tail.map
              (fun v => negotiation v.answer code) ∧
          ((supporting codes).offers.1.replies d code heard).IsChain (· ≠ ·)) ∧
      (∀ x w, Word.ofBytes? x = some w → w.code ∉ codes →
        (s.handle x.1 x.2).2 = match w.verb with
          | .doUse => some (negotiation .wontUse w.code)
          | .willUse => some (negotiation .dontUse w.code)
          | .dontUse | .wontUse => none) ∧
      (∀ x, Word.ofBytes? x = none → s.handle x.1 x.2 = (s, none)) ∧
      let n := Negotiator.against (ascending codes) heard
      (supporting codes).offers.2 = Negotiator.offers (ascending codes) ∧ s.Agrees n ∧
        ∀ x : UInt8 × UInt8, (s.handle x.1 x.2).2 = (n.hear x).2 := by
  have hstart := offers_reflects codes
  have h : (against codes heard).Reflects codes (wordsOf heard) := hstart.hearAll heard
  refine ⟨h.knows, h.awaiting_subset, ?_, ?_, ?_, ?_, bytes_offers codes, ?_, ?_⟩
  · intro x w hx hc
    refine ⟨?_, h.enabled_of_reply hc hx⟩
    rw [handle_of_ofBytes?_eq_some hx, (handle_reflects h w).2, reply?_of_mem hc]
  · intro code hc d
    have hmem := mem_ascending.2 hc
    rw [hstart.replies]
    exact ⟨Negotiator.replies_latest hmem d [] heard, Negotiator.isChain_replies hmem d [] heard⟩
  · intro x w hx hc
    rw [handle_of_ofBytes?_eq_some hx, (handle_reflects h w).2, reply?_of_notMem hc]
  · exact fun x => handle_of_ofBytes?_eq_none
  · rw [Negotiator.against, Negotiator.hearAll_offering]
    exact h.agrees
  · intro x
    rw [(h.hear x).2, Negotiator.against, Negotiator.hearAll_offering]

end OptionSets

end Wirebench.Telnet

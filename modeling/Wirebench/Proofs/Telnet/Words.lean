import Wirebench.Proofs.Telnet.Stream

namespace Wirebench.Telnet

/-- What a side says about one of the options. -/
structure Word where
  verb : Verb
  code : UInt8
  deriving DecidableEq, Repr

namespace Word

def message (w : Word) : Message := .negotiation w.verb w.code

def bytes (w : Word) : List UInt8 := negotiation w.verb w.code

def ofCommand? : Command → Option Word
  | .negotiate v o => some ⟨v, o⟩
  | .breakSignal | .subnegotiation _ | .other _ => none

end Word

/-- The words that a layer which starts afresh finds in a stream. -/
def wordsIn (bytes : List UInt8) : List Word :=
  (commandsOf (Parser.data.feed bytes).2).filterMap Word.ofCommand?

theorem wordsIn_encode (ws : List Word) : wordsIn (encode (ws.map Word.message)) = ws := by
  have hcommands : commandsOf ((ws.map Word.message).flatMap Message.events) =
      ws.map fun w => .negotiate w.verb w.code := by
    induction ws with
    | nil => rfl
    | cons w ws ih => simpa [Word.message, Message.events, commandsOf] using ih
  rw [wordsIn, Parser.feed_encode, hcommands, List.filterMap_map]
  exact List.filterMap_some

theorem wordsIn_bytes (w : Word) : wordsIn w.bytes = [w] := by
  have h := wordsIn_encode [w]
  rwa [List.map_singleton, encode_cons, encode_nil, List.append_nil] at h

/-- The offers of a side, in the order in which it makes them. -/
def offerWords (codes : List UInt8) : List Word :=
  codes.flatMap fun code => [⟨.willUse, code⟩, ⟨.doUse, code⟩]

theorem message_offerWords (codes : List UInt8) :
    (offerWords codes).map Word.message = Negotiator.offerMessages codes := by
  rw [offerWords, List.map_flatMap]
  rfl

theorem wordsIn_offers (codes : List UInt8) :
    wordsIn (Negotiator.offers codes) = offerWords codes := by
  rw [← Negotiator.encode_offerMessages, ← message_offerWords, wordsIn_encode]

theorem mem_offerWords {codes : List UInt8} {w : Word} :
    w ∈ offerWords codes ↔ w.code ∈ codes ∧ (w.verb = .willUse ∨ w.verb = .doUse) := by
  obtain ⟨v, o⟩ := w
  simp only [offerWords, List.mem_flatMap, List.mem_cons, Word.mk.injEq, List.not_mem_nil, or_false]
  grind

/-- The answer of a side with the given options to an offer of another option. -/
def refusal? (codes : List UInt8) (w : Word) : Option Word :=
  if w.code ∈ codes then none
  else
    match w.verb with
    | .willUse => some ⟨.dontUse, w.code⟩
    | .doUse => some ⟨.wontUse, w.code⟩
    | .wontUse | .dontUse => none

/-- All that a side with the given options has said when it has heard some words. -/
def said (codes : List UInt8) (heard : List Word) : List Word :=
  offerWords codes ++ heard.filterMap (refusal? codes)

/-- How a direction stands for which the other side has one word of consent and one of refusal. -/
def standing (consent refusal : Verb) (heard : List Word) (code : UInt8) : Mode :=
  if ⟨consent, code⟩ ∈ heard then .on else if ⟨refusal, code⟩ ∈ heard then .off else .offered

def OptionState.having (heard : List Word) (code : UInt8) : OptionState :=
  ⟨code, standing .doUse .dontUse heard code, standing .willUse .wontUse heard code⟩

/-- A side with the given options that has made its offers and then heard some words. -/
def Negotiator.having (codes : List UInt8) (heard : List Word) : Negotiator :=
  ⟨codes.map (.having heard)⟩

/-- No direction is both agreed to and refused. -/
def Coherent (heard : List Word) : Prop :=
  ∀ code, ¬(⟨.doUse, code⟩ ∈ heard ∧ ⟨.dontUse, code⟩ ∈ heard) ∧
    ¬(⟨.willUse, code⟩ ∈ heard ∧ ⟨.wontUse, code⟩ ∈ heard)

theorem standing_of_ne {consent refusal : Verb} {heard : List Word} {w : Word} {code : UInt8}
    (h : w.code ≠ code) :
    standing consent refusal (heard ++ [w]) code = standing consent refusal heard code := by
  have hne (v : Verb) : (⟨v, code⟩ : Word) ≠ w := by
    rintro rfl
    exact h rfl
  simp only [standing, List.mem_append, List.mem_singleton, hne, or_false]

theorem standing_of_verb (consent refusal : Verb) {heard : List Word} {w : Word} {code : UInt8}
    (h : w.verb ≠ consent) (h' : w.verb ≠ refusal) :
    standing consent refusal (heard ++ [w]) code = standing consent refusal heard code := by
  have hne {v : Verb} (hv : w.verb ≠ v) : (⟨v, code⟩ : Word) ≠ w := by
    rintro rfl
    exact hv rfl
  simp only [standing, List.mem_append, List.mem_singleton, hne h, hne h', or_false]

/-- Consent to something that has not been refused is not answered. -/
theorem accept_standing {consent refusal : Verb} {heard : List Word} {code : UInt8}
    (h : (⟨refusal, code⟩ : Word) ∉ heard) :
    (standing consent refusal heard code).accept =
      (standing consent refusal (heard ++ [⟨consent, code⟩]) code, false) := by
  have hmem : (⟨consent, code⟩ : Word) ∈ heard ++ [⟨consent, code⟩] :=
    List.mem_append_right _ (List.mem_singleton_self _)
  rw [standing, standing, if_pos hmem, if_neg h]
  split <;> rfl

/-- A refusal of something that has not been agreed to is not answered. -/
theorem refuse_standing {consent refusal : Verb} {heard : List Word} {code : UInt8}
    (hne : consent ≠ refusal) (h : (⟨consent, code⟩ : Word) ∉ heard) :
    (standing consent refusal heard code).refuse =
      (standing consent refusal (heard ++ [⟨refusal, code⟩]) code, false) := by
  have hmem : (⟨refusal, code⟩ : Word) ∈ heard ++ [⟨refusal, code⟩] :=
    List.mem_append_right _ (List.mem_singleton_self _)
  have hnot : (⟨consent, code⟩ : Word) ∉ heard ++ [⟨refusal, code⟩] := by
    simp [h, hne]
  rw [standing, standing, if_neg hnot, if_pos hmem, if_neg h]
  split <;> rfl

theorem OptionState.having_of_ne {heard : List Word} {w : Word} {code : UInt8}
    (h : w.code ≠ code) : OptionState.having (heard ++ [w]) code = .having heard code := by
  rw [OptionState.having, standing_of_ne h, standing_of_ne h, OptionState.having]

/-- A word about what the one side does leaves what the other side does as it stands. -/
theorem OptionState.having_own {heard : List Word} {v : Verb} {code : UInt8}
    (h : v = .doUse ∨ v = .dontUse) :
    ({ OptionState.having heard code with
      own := standing .doUse .dontUse (heard ++ [⟨v, code⟩]) code } : OptionState) =
        .having (heard ++ [⟨v, code⟩]) code := by
  have hw : v ≠ .willUse := by rcases h with rfl | rfl <;> nofun
  have hw' : v ≠ .wontUse := by rcases h with rfl | rfl <;> nofun
  rw [OptionState.having, OptionState.having, standing_of_verb .willUse .wontUse hw hw']

theorem OptionState.having_peer {heard : List Word} {v : Verb} {code : UInt8}
    (h : v = .willUse ∨ v = .wontUse) :
    ({ OptionState.having heard code with
      peer := standing .willUse .wontUse (heard ++ [⟨v, code⟩]) code } : OptionState) =
        .having (heard ++ [⟨v, code⟩]) code := by
  have hd : v ≠ .doUse := by rcases h with rfl | rfl <;> nofun
  have hd' : v ≠ .dontUse := by rcases h with rfl | rfl <;> nofun
  rw [OptionState.having, OptionState.having, standing_of_verb .doUse .dontUse hd hd']

namespace Negotiator

theorem find?_map {f : UInt8 → OptionState} (hf : ∀ code, (f code).code = code)
    (codes : List UInt8) (code : UInt8) :
    (⟨codes.map f⟩ : Negotiator).find? code = if code ∈ codes then some (f code) else none := by
  rw [find?, List.find?_map]
  have hfind : codes.find? ((fun o => decide (o.code = code)) ∘ f) =
      if code ∈ codes then some code else none := by
    induction codes with
    | nil => rfl
    | cons c codes ih =>
      by_cases hc : c = code
      · simp [hf, hc]
      · simpa [hf, hc, Ne.symm hc] using ih
  rw [hfind]
  split <;> rfl

theorem update_map {f g : UInt8 → OptionState} (hf : ∀ code, (f code).code = code)
    (hg : ∀ code, (g code).code = code) {code : UInt8} (hsame : ∀ c, c ≠ code → f c = g c)
    (codes : List UInt8) :
    (⟨codes.map f⟩ : Negotiator).update (g code) = ⟨codes.map g⟩ := by
  rw [update, List.map_map]
  congr 1
  apply List.map_congr_left
  intro c _
  by_cases hc : c = code
  · simp [hf, hg, hc]
  · rw [Function.comp_apply, hf, hg, if_neg hc, hsame c hc]

theorem find?_having (codes : List UInt8) (heard : List Word) (code : UInt8) :
    (having codes heard).find? code = if code ∈ codes then some (.having heard code) else none :=
  find?_map (fun _ => rfl) codes code

theorem update_having (codes : List UInt8) (heard : List Word) (w : Word) :
    (having codes heard).update (.having (heard ++ [w]) w.code) = having codes (heard ++ [w]) :=
  update_map (fun _ => rfl) (fun _ => rfl)
    (fun _ hc => (OptionState.having_of_ne (Ne.symm hc)).symm) codes

theorem having_of_notMem {codes : List UInt8} {heard : List Word} {w : Word}
    (h : w.code ∉ codes) : having codes (heard ++ [w]) = having codes heard := by
  rw [having, having]
  congr 1
  apply List.map_congr_left
  intro code hcode
  apply OptionState.having_of_ne
  rintro rfl
  exact h hcode

/-- A side takes in a word; it answers if the word offers an option that it does not have. -/
theorem handle_having (codes : List UInt8) {heard : List Word} {w : Word}
    (h : Coherent (heard ++ [w])) :
    (having codes heard).handle w.verb w.code =
      (having codes (heard ++ [w]), (refusal? codes w).map Word.bytes) := by
  obtain ⟨v, code⟩ := w
  obtain ⟨hown, hpeer⟩ := h code
  have hmem : (⟨v, code⟩ : Word) ∈ heard ++ [⟨v, code⟩] :=
    List.mem_append_right _ (List.mem_singleton_self _)
  by_cases hc : code ∈ codes
  · have hupdate := update_having codes heard ⟨v, code⟩
    simp only [handle, find?_having, refusal?, hc, ↓reduceIte, Option.map_none]
    rw [← hupdate]
    -- What has been said about a direction before decides that nothing is answered now.
    cases v with
    | doUse =>
      have hnot : (⟨.dontUse, code⟩ : Word) ∉ heard :=
        fun hd => hown ⟨hmem, List.mem_append_left _ hd⟩
      have haccept : (standing .doUse .dontUse heard code).accept = _ := accept_standing hnot
      rw [← OptionState.having_own (.inl rfl)]
      simp only [OptionState.having, haccept, Bool.false_eq_true, ↓reduceIte]
    | dontUse =>
      have hnot : (⟨.doUse, code⟩ : Word) ∉ heard :=
        fun hd => hown ⟨List.mem_append_left _ hd, hmem⟩
      have hrefuse : (standing .doUse .dontUse heard code).refuse = _ :=
        refuse_standing nofun hnot
      rw [← OptionState.having_own (.inr rfl)]
      simp only [OptionState.having, hrefuse, Bool.false_eq_true, ↓reduceIte]
    | willUse =>
      have hnot : (⟨.wontUse, code⟩ : Word) ∉ heard :=
        fun hd => hpeer ⟨hmem, List.mem_append_left _ hd⟩
      have haccept : (standing .willUse .wontUse heard code).accept = _ := accept_standing hnot
      rw [← OptionState.having_peer (.inl rfl)]
      simp only [OptionState.having, haccept, Bool.false_eq_true, ↓reduceIte]
    | wontUse =>
      have hnot : (⟨.willUse, code⟩ : Word) ∉ heard :=
        fun hd => hpeer ⟨List.mem_append_left _ hd, hmem⟩
      have hrefuse : (standing .willUse .wontUse heard code).refuse = _ :=
        refuse_standing nofun hnot
      rw [← OptionState.having_peer (.inr rfl)]
      simp only [OptionState.having, hrefuse, Bool.false_eq_true, ↓reduceIte]
  · simp only [handle, find?_having, refusal?, hc, ↓reduceIte, having_of_notMem (w := ⟨v, code⟩) hc]
    cases v <;> rfl

end Negotiator

theorem refusal?_eq_some {codes : List UInt8} {w u : Word} :
    refusal? codes w = some u ↔ w.code ∉ codes ∧ u.code = w.code ∧
      (w.verb = .willUse ∧ u.verb = .dontUse ∨ w.verb = .doUse ∧ u.verb = .wontUse) := by
  obtain ⟨v, o⟩ := w
  obtain ⟨v', o'⟩ := u
  by_cases h : o ∈ codes
  · simp [refusal?, h]
  · cases v <;> simp [refusal?, h, and_comm, eq_comm]

theorem refusal?_of_mem {codes : List UInt8} {w : Word} (h : w.code ∈ codes) :
    refusal? codes w = none := if_pos h

theorem refusal?_of_refusal {codes codes' : List UInt8} {w u : Word}
    (h : refusal? codes w = some u) : refusal? codes' u = none := by
  rw [Option.eq_none_iff_forall_ne_some]
  intro x hx
  obtain ⟨-, -, h⟩ := refusal?_eq_some.1 h
  obtain ⟨-, -, hx⟩ := refusal?_eq_some.1 hx
  rcases h with ⟨-, h⟩ | ⟨-, h⟩ <;> rcases hx with ⟨hx, -⟩ | ⟨hx, -⟩ <;> cases h.symm.trans hx

theorem mem_said {codes : List UInt8} {heard : List Word} {u : Word} :
    u ∈ said codes heard ↔ u.code ∈ codes ∧ (u.verb = .willUse ∨ u.verb = .doUse) ∨
      ∃ w ∈ heard, refusal? codes w = some u := by
  rw [said, List.mem_append, mem_offerWords, List.mem_filterMap]

/-- A side agrees to an option exactly if it has the option. -/
theorem mem_said_consent {codes : List UInt8} {heard : List Word} {v : Verb} {code : UInt8}
    (hv : v = .willUse ∨ v = .doUse) : ⟨v, code⟩ ∈ said codes heard ↔ code ∈ codes := by
  rw [mem_said]
  constructor
  · rintro (⟨hcode, -⟩ | ⟨w, -, hw⟩)
    · exact hcode
    · obtain ⟨-, -, hr⟩ := refusal?_eq_some.1 hw
      rcases hv with rfl | rfl <;> rcases hr with ⟨-, hr⟩ | ⟨-, hr⟩ <;> cases hr
  · intro hcode
    exact .inl ⟨hcode, hv⟩

theorem code_notMem_of_refusal {codes : List UInt8} {heard : List Word} {v : Verb} {code : UInt8}
    (h : ⟨v, code⟩ ∈ said codes heard) (hv : v = .dontUse ∨ v = .wontUse) : code ∉ codes := by
  rcases mem_said.1 h with ⟨-, hr⟩ | ⟨w, -, hw⟩
  · rcases hv with rfl | rfl <;> rcases hr with hr | hr <;> cases hr
  · obtain ⟨hnot, hcode, -⟩ := refusal?_eq_some.1 hw
    have hcode : code = w.code := hcode
    rwa [hcode]

/-- A side agrees to the options that it has and refuses others. -/
theorem coherent_of_subset_said {codes : List UInt8} {heard ws : List Word}
    (h : ws ⊆ said codes heard) : Coherent ws := by
  intro code
  constructor
  · rintro ⟨hd, hd'⟩
    exact code_notMem_of_refusal (h hd') (.inl rfl) ((mem_said_consent (.inr rfl)).1 (h hd))
  · rintro ⟨hw, hw'⟩
    exact code_notMem_of_refusal (h hw') (.inr rfl) ((mem_said_consent (.inl rfl)).1 (h hw))

theorem Mode.accept_ne_offered (m : Mode) : m.accept.1 ≠ .offered := by
  cases m <;> decide

theorem Mode.refuse_ne_offered (m : Mode) : m.refuse.1 ≠ .offered := by
  cases m <;> decide

namespace Negotiator

theorem isSettled_iff {n : Negotiator} :
    n.isSettled ↔ ∀ o ∈ n.options, o.own ≠ .offered ∧ o.peer ≠ .offered := by
  simp [isSettled]

theorem isSettled_update {n : Negotiator} {o : OptionState} (hn : n.isSettled)
    (hown : o.own ≠ .offered) (hpeer : o.peer ≠ .offered) : (n.update o).isSettled := by
  rw [isSettled_iff] at hn ⊢
  intro p hp
  obtain ⟨q, hq, rfl⟩ := List.mem_map.1 hp
  split
  · exact ⟨hown, hpeer⟩
  · exact hn q hq

theorem isSettled_handle {n : Negotiator} (hn : n.isSettled) (verb : Verb) (code : UInt8) :
    (n.handle verb code).1.isSettled := by
  unfold handle
  split
  · cases verb <;> exact hn
  · next o ho =>
    obtain ⟨hown, hpeer⟩ := isSettled_iff.1 hn o (List.mem_of_find?_eq_some ho)
    cases verb with
    | doUse => exact isSettled_update hn (Mode.accept_ne_offered _) hpeer
    | dontUse => exact isSettled_update hn (Mode.refuse_ne_offered _) hpeer
    | willUse => exact isSettled_update hn hown (Mode.accept_ne_offered _)
    | wontUse => exact isSettled_update hn hown (Mode.refuse_ne_offered _)

/-- Every offer has been answered in one way or the other. -/
theorem isSettled_having {codes : List UInt8} {heard : List Word} :
    (having codes heard).isSettled ↔ ∀ code ∈ codes,
      (⟨.doUse, code⟩ ∈ heard ∨ ⟨.dontUse, code⟩ ∈ heard) ∧
        (⟨.willUse, code⟩ ∈ heard ∨ ⟨.wontUse, code⟩ ∈ heard) := by
  have hstanding (consent refusal : Verb) (code : UInt8) :
      standing consent refusal heard code ≠ .offered ↔
        ⟨consent, code⟩ ∈ heard ∨ ⟨refusal, code⟩ ∈ heard := by
    unfold standing
    split
    · next h => simp [h]
    · split <;> simp [*]
  rw [isSettled_iff, having, List.forall_mem_map]
  simp only [OptionState.having, hstanding]

/-- Who has heard all answers to its offers awaits nothing. -/
theorem isSettled_of_said {codes codes' : List UInt8} {heard heard' : List Word}
    (hsaid : said codes' heard' ⊆ heard) (hoffers : offerWords codes ⊆ heard') :
    (having codes heard).isSettled := by
  rw [isSettled_having]
  intro code hcode
  by_cases hc : code ∈ codes'
  · have hd : ⟨.doUse, code⟩ ∈ said codes' heard' := (mem_said_consent (.inr rfl)).2 hc
    have hw : ⟨.willUse, code⟩ ∈ said codes' heard' := (mem_said_consent (.inl rfl)).2 hc
    exact ⟨.inl (hsaid hd), .inl (hsaid hw)⟩
  · have hw : (⟨.willUse, code⟩ : Word) ∈ heard' :=
      hoffers (mem_offerWords.2 ⟨hcode, .inl rfl⟩)
    have hd : (⟨.doUse, code⟩ : Word) ∈ heard' := hoffers (mem_offerWords.2 ⟨hcode, .inr rfl⟩)
    have hr : ⟨.dontUse, code⟩ ∈ said codes' heard' :=
      mem_said.2 (.inr ⟨_, hw, refusal?_eq_some.2 ⟨hc, rfl, .inl ⟨rfl, rfl⟩⟩⟩)
    have hr' : ⟨.wontUse, code⟩ ∈ said codes' heard' :=
      mem_said.2 (.inr ⟨_, hd, refusal?_eq_some.2 ⟨hc, rfl, .inr ⟨rfl, rfl⟩⟩⟩)
    exact ⟨.inr (hsaid hr), .inr (hsaid hr')⟩

end Negotiator

end Wirebench.Telnet

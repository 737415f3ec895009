import Wirebench.Proofs.Telnet.Words
import Wirebench.Scripted.Pipe

namespace Wirebench.Telnet

open Scripted (Side)

/-- A word on its way. -/
structure Sent where
  word : Word
  isAnswer : Bool
  deriving DecidableEq, Repr

namespace Negotiator

/-- The options that the side itself uses. -/
def own (n : Negotiator) : List UInt8 := (n.options.filter fun o => o.own = .on).map (·.code)

/-- The options that the other side uses. -/
def peer (n : Negotiator) : List UInt8 := (n.options.filter fun o => o.peer = .on).map (·.code)

end Negotiator

/-- Two sides, each with a negotiator from its offers on, and what is on its way to them. -/
structure Parley where
  negotiator : Side → Option Negotiator
  coming : Side → List Sent

namespace Parley

def start : Parley := ⟨fun _ => none, fun _ => []⟩

/-- One side goes on: some words are left on the way to it, and others have been sent. -/
def advance (p : Parley) (side : Side) (n : Negotiator) (rest sent : List Sent) : Parley where
  negotiator s := if s = side then some n else p.negotiator s
  coming s := if s = side then rest else p.coming s ++ sent

/-- A side makes its offers, and after that it takes in one word after the other and sends what
there is to answer. -/
def act? (codes : Side → List UInt8) (p : Parley) (side : Side) : Option Parley :=
  match p.negotiator side with
  | none =>
    some (p.advance side (.offering (codes side)) (p.coming side)
      ((wordsIn (Negotiator.offers (codes side))).map (⟨·, false⟩)))
  | some n =>
    match p.coming side with
    | [] => none
    | s :: rest =>
      let (n, reply) := n.handle s.word.verb s.word.code
      some (p.advance side n rest ((reply.toList.flatMap wordsIn).map (⟨·, true⟩)))

/-- The sides act in the given order. -/
def run? (codes : Side → List UInt8) (p : Parley) : List Side → Option Parley
  | [] => some p
  | side :: schedule => (p.act? codes side).bind fun p => p.run? codes schedule

/-- Both sides have made their offers, and nothing is on its way. -/
def IsQuiet (p : Parley) : Prop := ∀ side, p.negotiator side ≠ none ∧ p.coming side = []

variable {codes : Side → List UInt8} {p p' : Parley} {side : Side}

theorem advance_self (p : Parley) (side : Side) (n : Negotiator) (rest sent : List Sent) :
    (p.advance side n rest sent).negotiator side = some n ∧
      (p.advance side n rest sent).coming side = rest := ⟨if_pos rfl, if_pos rfl⟩

theorem advance_other (p : Parley) (side : Side) (n : Negotiator) (rest sent : List Sent) :
    (p.advance side n rest sent).negotiator side.other = p.negotiator side.other ∧
      (p.advance side n rest sent).coming side.other = p.coming side.other ++ sent :=
  ⟨if_neg side.other_ne, if_neg side.other_ne⟩

/-- All that a side has sent when it has heard some words. -/
def told (codes : List UInt8) (heard : List Sent) : List Sent :=
  (offerWords codes).map (⟨·, false⟩) ++
    (heard.filterMap fun s => refusal? codes s.word).map (⟨·, true⟩)

theorem word_told (codes : List UInt8) (heard : List Sent) :
    (told codes heard).map Sent.word = said codes (heard.map Sent.word) := by
  simp [told, said, List.filterMap_map, Function.comp_def]

theorem told_concat (codes : List UInt8) (heard : List Sent) (s : Sent) :
    told codes (heard ++ [s]) =
      told codes heard ++ ((refusal? codes s.word).toList).map (⟨·, true⟩) := by
  cases h : refusal? codes s.word <;> simp [told, h]

/-- A side is what it has heard; and that, with what is on its way to it, is all that the other
side has sent. -/
structure Hears (codes : Side → List UInt8) (p : Parley) (heard : Side → List Sent) (side : Side) :
    Prop where
  negotiator : ∀ n, p.negotiator side = some n →
    n = .having (codes side) ((heard side).map Sent.word)
  silent : p.negotiator side = none → heard side = []
  nothing : p.negotiator side.other = none → heard side ++ p.coming side = []
  lines : p.negotiator side.other ≠ none →
    heard side ++ p.coming side = told (codes side.other) (heard side.other)

theorem hears_start (codes : Side → List UInt8) (side : Side) :
    Hears codes start (fun _ => []) side where
  negotiator := nofun
  silent _ := rfl
  nothing _ := rfl
  lines h := (h rfl).elim

theorem act?_eq_some (h : p.act? codes side = some p') :
    (p.negotiator side = none ∧ p' = p.advance side (.offering (codes side)) (p.coming side)
      ((offerWords (codes side)).map (⟨·, false⟩))) ∨
    ∃ n s rest, p.negotiator side = some n ∧ p.coming side = s :: rest ∧
      p' = p.advance side (n.handle s.word.verb s.word.code).1 rest
        (((n.handle s.word.verb s.word.code).2.toList.flatMap wordsIn).map (⟨·, true⟩)) := by
  rw [act?] at h
  cases hn : p.negotiator side with
  | none =>
    simp only [hn, wordsIn_offers, Option.some.injEq] at h
    exact .inl ⟨rfl, h.symm⟩
  | some n =>
    cases hc : p.coming side with
    | nil => simp only [hn, hc, reduceCtorEq] at h
    | cons s rest =>
      simp only [hn, hc, Option.some.injEq] at h
      exact .inr ⟨n, s, rest, rfl, rfl, h.symm⟩

namespace Hears

variable {heard : Side → List Sent} {n : Negotiator} {s : Sent} {rest : List Sent}

theorem started (h : Hears codes p heard side) (hc : p.coming side = s :: rest) :
    p.negotiator side.other ≠ none := by
  intro hnone
  have hnothing := h.nothing hnone
  rw [hc] at hnothing
  exact List.append_ne_nil_of_right_ne_nil _ (List.cons_ne_nil s rest) hnothing

theorem mem_told (h : Hears codes p heard side) (hc : p.coming side = s :: rest) :
    s ∈ told (codes side.other) (heard side.other) := by
  rw [← h.lines (h.started hc), hc]
  exact List.mem_append_right _ List.mem_cons_self

theorem handle (h : Hears codes p heard side) (hn : p.negotiator side = some n)
    (hc : p.coming side = s :: rest) :
    n.handle s.word.verb s.word.code =
      (.having (codes side) ((heard side ++ [s]).map Sent.word),
        (refusal? (codes side) s.word).map Word.bytes) := by
  have hlines := congrArg (List.map Sent.word) (h.lines (h.started hc))
  rw [hc, word_told, List.append_cons, List.map_append] at hlines
  have hcoherent : Coherent ((heard side).map Sent.word ++ [s.word]) := by
    apply coherent_of_subset_said
    rw [← hlines, List.map_append]
    exact List.subset_append_left _ _
  rw [h.negotiator n hn, Negotiator.handle_having _ hcoherent, List.map_append, List.map_singleton]

theorem offer_self (h : Hears codes p heard side) (hn : p.negotiator side = none)
    (sent : List Sent) :
    Hears codes (p.advance side (.offering (codes side)) (p.coming side) sent) heard side := by
  obtain ⟨hself, hcoming⟩ := p.advance_self side (.offering (codes side))
    (p.coming side) sent
  obtain ⟨hother, -⟩ := p.advance_other side (.offering (codes side)) (p.coming side) sent
  constructor
  · intro n hsome
    rw [hself, Option.some.injEq] at hsome
    rw [← hsome, h.silent hn]
    rfl
  · rw [hself]
    nofun
  · rw [hother, hcoming]
    exact h.nothing
  · rw [hother, hcoming]
    exact h.lines

theorem offer_other (h : Hears codes p heard side) (h' : Hears codes p heard side.other)
    (hn : p.negotiator side = none) :
    Hears codes (p.advance side (.offering (codes side)) (p.coming side)
      ((offerWords (codes side)).map (⟨·, false⟩))) heard side.other := by
  obtain ⟨hself, -⟩ := p.advance_self side (.offering (codes side)) (p.coming side)
    ((offerWords (codes side)).map (⟨·, false⟩))
  obtain ⟨hother, hcoming⟩ := p.advance_other side (.offering (codes side))
    (p.coming side) ((offerWords (codes side)).map (⟨·, false⟩))
  have hnothing := h'.nothing (by rwa [Side.other_other])
  constructor
  · rw [hother]
    exact h'.negotiator
  · rw [hother]
    exact h'.silent
  · rw [Side.other_other, hself]
    nofun
  · intro _
    rw [hcoming, ← List.append_assoc, hnothing, Side.other_other, h.silent hn]
    exact (List.append_nil _).symm

/-- A side has heard one word more. -/
def more (heard : Side → List Sent) (side : Side) (s : Sent) (t : Side) : List Sent :=
  if t = side then heard side ++ [s] else heard t

theorem more_self : more heard side s side = heard side ++ [s] := if_pos rfl

theorem more_other : more heard side s side.other = heard side.other := if_neg side.other_ne

theorem take_self (h : Hears codes p heard side) (hc : p.coming side = s :: rest)
    (sent : List Sent) :
    Hears codes (p.advance side (.having (codes side) ((heard side ++ [s]).map Sent.word)) rest
      sent) (more heard side s) side := by
  obtain ⟨hself, hcoming⟩ := p.advance_self side
    (.having (codes side) ((heard side ++ [s]).map Sent.word)) rest sent
  obtain ⟨hother, -⟩ := p.advance_other side
    (.having (codes side) ((heard side ++ [s]).map Sent.word)) rest sent
  have hlines := h.lines (h.started hc)
  constructor
  · intro n hsome
    rw [hself, Option.some.injEq] at hsome
    rw [← hsome, more_self]
  · rw [hself]
    nofun
  · rw [hother]
    intro hnone
    exact absurd hnone (h.started hc)
  · intro _
    rw [more_self, more_other, hcoming, ← hlines, hc, ← List.append_cons]

theorem take_other (h' : Hears codes p heard side.other) (hn : p.negotiator side = some n)
    (next : Negotiator) (s : Sent) (rest : List Sent) :
    Hears codes (p.advance side next rest
      ((refusal? (codes side) s.word).toList.map (⟨·, true⟩))) (more heard side s) side.other := by
  obtain ⟨hself, -⟩ := p.advance_self side next rest
    ((refusal? (codes side) s.word).toList.map (⟨·, true⟩))
  obtain ⟨hother, hcoming⟩ := p.advance_other side next rest
    ((refusal? (codes side) s.word).toList.map (⟨·, true⟩))
  have hlines := h'.lines (by rw [Side.other_other, hn]; nofun)
  rw [Side.other_other] at hlines
  constructor
  · rw [hother, more_other]
    exact h'.negotiator
  · rw [hother, more_other]
    exact h'.silent
  · rw [Side.other_other, hself]
    nofun
  · intro _
    rw [more_other, hcoming, Side.other_other, more_self, told_concat, ← List.append_assoc, hlines]

end Hears

/-- Both sides are what they have heard. -/
def Sound (codes : Side → List UInt8) (p : Parley) : Prop :=
  ∃ heard, ∀ side, Hears codes p heard side

theorem flatMap_wordsIn_answer (answer? : Option Word) :
    (answer?.map Word.bytes).toList.flatMap wordsIn = answer?.toList := by
  cases answer? with
  | none => rfl
  | some w => simp [wordsIn_bytes]

theorem Sound.act (h : Sound codes p) (hact : p.act? codes side = some p') : Sound codes p' := by
  obtain ⟨heard, h⟩ := h
  rcases act?_eq_some hact with ⟨hn, rfl⟩ | ⟨n, s, rest, hn, hc, rfl⟩
  · have hself := (h side).offer_self hn ((offerWords (codes side)).map (⟨·, false⟩))
    have hother := (h side).offer_other (h side.other) hn
    exact ⟨heard, Side.forall_of_other side hself hother⟩
  · rw [(h side).handle hn hc, flatMap_wordsIn_answer]
    have hself := (h side).take_self hc ((refusal? (codes side) s.word).toList.map (⟨·, true⟩))
    have hother := (h side.other).take_other hn
      (.having (codes side) ((heard side ++ [s]).map Sent.word)) s rest
    exact ⟨Hears.more heard side s, Side.forall_of_other side hself hother⟩

theorem Sound.run {schedule : List Side} (h : Sound codes p)
    (hrun : p.run? codes schedule = some p') : Sound codes p' := by
  induction schedule generalizing p with
  | nil =>
    rw [run?, Option.some.injEq] at hrun
    rwa [← hrun]
  | cons side schedule ih =>
    obtain ⟨q, hact, hrest⟩ := Option.bind_eq_some_iff.1 hrun
    exact ih (h.act hact) hrest

theorem sound_start (codes : Side → List UInt8) : Sound codes start :=
  ⟨fun _ => [], hears_start codes⟩

/-- The steps that some words make for a side with the given options and the one beyond: each is
taken in, and so is the answer to it. -/
def cost (codes : List UInt8) : List Word → Nat
  | [] => 0
  | w :: ws => 1 + (refusal? codes w).toList.length + cost codes ws

theorem cost_cons (codes : List UInt8) (w : Word) (ws : List Word) :
    cost codes (w :: ws) = 1 + (refusal? codes w).toList.length + cost codes ws := rfl

theorem cost_append (codes : List UInt8) (ws ws' : List Word) :
    cost codes (ws ++ ws') = cost codes ws + cost codes ws' := by
  induction ws with
  | nil => exact (Nat.zero_add _).symm
  | cons w ws ih => rw [List.cons_append, cost_cons, cost_cons, ih, Nat.add_assoc _ _ (cost _ ws')]

theorem cost_refusal? (codes codes' : List UInt8) (w : Word) :
    cost codes (refusal? codes' w).toList = (refusal? codes' w).toList.length := by
  cases hw : refusal? codes' w with
  | none => rfl
  | some u => simp [cost, refusal?_of_refusal hw]

theorem cost_offerWords (codes codes' : List UInt8) :
    cost codes (offerWords codes') =
      2 * codes'.length + 2 * (codes'.filter (· ∉ codes)).length := by
  induction codes' with
  | nil => rfl
  | cons code codes' ih =>
    have hsplit : offerWords (code :: codes') =
        ⟨.willUse, code⟩ :: ⟨.doUse, code⟩ :: offerWords codes' := rfl
    rw [hsplit, cost_cons, cost_cons, ih]
    by_cases hc : code ∈ codes
    · simp [refusal?, hc]
      omega
    · simp [refusal?, hc]
      omega

/-- The offers that a side has not made yet. -/
def unsaid (codes : Side → List UInt8) (p : Parley) (side : Side) : List Word :=
  match p.negotiator side with
  | none => offerWords (codes side)
  | some _ => []

/-- The words that a side gets even if no word is answered any more. -/
def owed (codes : Side → List UInt8) (p : Parley) (side : Side) : List Word :=
  (p.coming side).map Sent.word ++ unsaid codes p side.other

/-- The steps that a side has left, with those that its answers make for the other side. -/
def effort (codes : Side → List UInt8) (p : Parley) (side : Side) : Nat :=
  (if p.negotiator side = none then 1 else 0) + cost (codes side) (owed codes p side)

/-- The steps that two sides take until nothing is on the way any more: both make their offers, and
each takes in the offers of the other and a refusal of those of its own that the other refuses. -/
def steps (codes : Side → List UInt8) : Nat :=
  let takes (side : Side) :=
    2 * (codes side.other).length + 2 * ((codes side).filter (· ∉ codes side.other)).length
  2 + takes .one + takes .two

theorem effort_start (codes : Side → List UInt8) :
    effort codes start .one + effort codes start .two = steps codes := by
  have hone : effort codes start .one = 1 + cost (codes .one) (offerWords (codes .two)) := rfl
  have htwo : effort codes start .two = 1 + cost (codes .two) (offerWords (codes .one)) := rfl
  have hsteps : steps codes =
      2 + (2 * (codes .two).length + 2 * ((codes .one).filter (· ∉ codes .two)).length) +
        (2 * (codes .one).length + 2 * ((codes .two).filter (· ∉ codes .one)).length) := rfl
  rw [hone, htwo, hsteps, cost_offerWords, cost_offerWords]
  omega

theorem unsaid_of_none (h : p.negotiator side = none) :
    unsaid codes p side = offerWords (codes side) := by
  rw [unsaid, h]

theorem unsaid_of_ne_none (h : p.negotiator side ≠ none) : unsaid codes p side = [] := by
  obtain ⟨n, hn⟩ := Option.ne_none_iff_exists'.1 h
  rw [unsaid, hn]

theorem effort_eq_zero (codes : Side → List UInt8) (p : Parley) :
    (∀ side, effort codes p side = 0) ↔ p.IsQuiet := by
  constructor
  · intro hzero side
    have hself := Nat.add_eq_zero_iff.1 (hzero side)
    have hstarted : p.negotiator side ≠ none := by
      intro hnone
      rw [if_pos hnone] at hself
      exact absurd hself.1 Nat.one_ne_zero
    refine ⟨hstarted, ?_⟩
    cases hc : p.coming side with
    | nil => rfl
    | cons s rest =>
      have hcost := hself.2
      rw [owed, hc, List.map_cons, List.cons_append, cost_cons] at hcost
      omega
  · intro hquiet side
    obtain ⟨hstarted, hcoming⟩ := hquiet side
    rw [effort, if_neg hstarted, owed, hcoming, unsaid_of_ne_none (hquiet side.other).1]
    rfl

section advance

variable {n : Negotiator} {rest sent : List Sent}

theorem effort_advance_self :
    effort codes (p.advance side n rest sent) side =
      cost (codes side) (rest.map Sent.word ++ unsaid codes p side.other) := by
  obtain ⟨hself, hcoming⟩ := p.advance_self side n rest sent
  obtain ⟨hother, -⟩ := p.advance_other side n rest sent
  simp only [effort, owed, unsaid, hself, hcoming, hother, reduceCtorEq, ↓reduceIte, Nat.zero_add]

theorem effort_advance_other :
    effort codes (p.advance side n rest sent) side.other =
      (if p.negotiator side.other = none then 1 else 0) +
        cost (codes side.other) ((p.coming side.other ++ sent).map Sent.word) := by
  obtain ⟨hself, -⟩ := p.advance_self side n rest sent
  obtain ⟨hother, hcoming⟩ := p.advance_other side n rest sent
  simp only [effort, owed, unsaid, Side.other_other, hself, hcoming, hother, List.append_nil]

end advance

theorem map_word_sent (ws : List Word) (isAnswer : Bool) :
    (ws.map (Sent.mk · isAnswer)).map Sent.word = ws := by
  simp [Function.comp_def]

theorem effort_act (h : Sound codes p) (hact : p.act? codes side = some p') :
    effort codes p' side + effort codes p' side.other + 1 =
      effort codes p side + effort codes p side.other := by
  obtain ⟨heard, h⟩ := h
  rcases act?_eq_some hact with ⟨hn, rfl⟩ | ⟨n, s, rest, hn, hc, rfl⟩
  · -- The offers were owed to the other side before, too.
    rw [effort_advance_self, effort_advance_other, List.map_append, map_word_sent, effort, effort,
      if_pos hn, owed, owed, Side.other_other, unsaid_of_none hn]
    omega
  · have hstarted : p.negotiator side ≠ none := by
      rw [hn]
      nofun
    rw [(h side).handle hn hc, flatMap_wordsIn_answer, effort_advance_self, effort_advance_other,
      List.map_append, map_word_sent, cost_append, cost_append, cost_refusal?, effort, effort,
      if_neg hstarted, owed, owed, Side.other_other, unsaid_of_ne_none hstarted, hc, List.map_cons,
      List.cons_append, cost_cons, cost_append, List.append_nil]
    omega

theorem effort_run {schedule : List Side} (h : Sound codes p)
    (hrun : p.run? codes schedule = some p') :
    schedule.length + (effort codes p' .one + effort codes p' .two) =
      effort codes p .one + effort codes p .two := by
  induction schedule generalizing p with
  | nil =>
    rw [run?, Option.some.injEq] at hrun
    rw [← hrun, List.length_nil, Nat.zero_add]
  | cons side schedule ih =>
    obtain ⟨q, hact, hrest⟩ := Option.bind_eq_some_iff.1 hrun
    have hstep := effort_act h hact
    have hrun := ih (h.act hact) hrest
    rw [List.length_cons]
    cases side <;> simp only [Side.other] at hstep <;> omega

theorem isQuiet_iff : p.IsQuiet ↔ ∀ side, p.act? codes side = none := by
  apply forall_congr'
  intro side
  rw [act?]
  cases p.negotiator side with
  | none => simp
  | some n => cases p.coming side <;> simp

/-- What a side sends back when it takes in a word: nothing to an answer or to the offer of an
option that both sides have, and one word to the offer of another option. -/
structure RepliesTo (codes : Side → List UInt8) (side : Side) (s : Sent)
    (reply : Option (List UInt8)) : Prop where
  answer : s.isAnswer → reply = none
  offer : ¬s.isAnswer → s.word.code ∈ codes side.other
  shared : ¬s.isAnswer → s.word.code ∈ codes side → reply = none
  unshared : ¬s.isAnswer → s.word.code ∉ codes side →
    ∃ w : Word, w.code = s.word.code ∧ reply = some w.bytes

theorem mem_told {codes : List UInt8} {heard : List Sent} {s : Sent} (h : s ∈ told codes heard) :
    s.isAnswer = false ∧ s.word ∈ offerWords codes ∨
      s.isAnswer = true ∧ ∃ t ∈ heard, refusal? codes t.word = some s.word := by
  rcases List.mem_append.1 h with hoffer | hanswer
  · obtain ⟨w, hw, rfl⟩ := List.mem_map.1 hoffer
    exact .inl ⟨rfl, hw⟩
  · obtain ⟨w, hw, rfl⟩ := List.mem_map.1 hanswer
    exact .inr ⟨rfl, List.mem_filterMap.1 hw⟩

theorem Sound.repliesTo {n : Negotiator} {s : Sent} {rest : List Sent} (h : Sound codes p)
    (hn : p.negotiator side = some n) (hc : p.coming side = s :: rest) :
    RepliesTo codes side s (n.handle s.word.verb s.word.code).2 := by
  obtain ⟨heard, h⟩ := h
  rw [(h side).handle hn hc]
  rcases mem_told ((h side).mem_told hc) with ⟨hoffer, hw⟩ | ⟨hanswer, t, -, ht⟩
  · obtain ⟨hcode, hverb⟩ := mem_offerWords.1 hw
    refine ⟨by simp [hoffer], fun _ => hcode, fun _ hmem => ?_, fun _ hnot => ?_⟩
    · simp only [refusal?_of_mem hmem, Option.map_none]
    · have hanswer : ∃ w, refusal? (codes side) s.word = some w := by
        rcases hverb with hverb | hverb <;> simp [refusal?, hnot, hverb]
      obtain ⟨w, hw⟩ := hanswer
      refine ⟨w, (refusal?_eq_some.1 hw).2.1, ?_⟩
      rw [hw, Option.map_some]
  · refine ⟨fun _ => ?_, ?_, ?_, ?_⟩
    · simp only [refusal?_of_refusal ht, Option.map_none]
    all_goals exact fun hnot => absurd hanswer hnot

/-- A side awaits nothing any more, and uses just the options that both sides have. -/
structure Agrees (codes : Side → List UInt8) (n : Negotiator) : Prop where
  settled : n.isSettled
  own : ∀ code, code ∈ n.own ↔ code ∈ codes .one ∧ code ∈ codes .two
  peer : ∀ code, code ∈ n.peer ↔ code ∈ codes .one ∧ code ∈ codes .two

theorem standing_eq_on {consent refusal : Verb} {heard : List Word} {code : UInt8} :
    standing consent refusal heard code = .on ↔ ⟨consent, code⟩ ∈ heard := by
  unfold standing
  split
  · next h => exact iff_of_true rfl h
  · next h =>
    apply iff_of_false _ h
    split <;> nofun

theorem mem_own_having {codes : List UInt8} {heard : List Word} {code : UInt8} :
    code ∈ (Negotiator.having codes heard).own ↔ code ∈ codes ∧ ⟨.doUse, code⟩ ∈ heard := by
  simp [Negotiator.own, Negotiator.having, List.filter_map, Function.comp_def, OptionState.having,
    standing_eq_on]

theorem mem_peer_having {codes : List UInt8} {heard : List Word} {code : UInt8} :
    code ∈ (Negotiator.having codes heard).peer ↔ code ∈ codes ∧ ⟨.willUse, code⟩ ∈ heard := by
  simp [Negotiator.peer, Negotiator.having, List.filter_map, Function.comp_def, OptionState.having,
    standing_eq_on]

theorem Hears.agrees {heard : Side → List Sent} {n : Negotiator} (h : Hears codes p heard side)
    (h' : Hears codes p heard side.other) (hquiet : p.IsQuiet)
    (hn : p.negotiator side = some n) : Agrees codes n := by
  have hheard : (heard side).map Sent.word =
      said (codes side.other) ((heard side.other).map Sent.word) := by
    have hlines := h.lines (hquiet side.other).1
    rw [(hquiet side).2, List.append_nil] at hlines
    rw [hlines, word_told]
  have hheard' : (heard side.other).map Sent.word =
      said (codes side) ((heard side).map Sent.word) := by
    have hlines := h'.lines (hquiet side.other.other).1
    rw [(hquiet side.other).2, List.append_nil, Side.other_other] at hlines
    rw [hlines, word_told]
  have hboth (code : UInt8) : code ∈ codes side ∧ code ∈ codes side.other ↔
      code ∈ codes .one ∧ code ∈ codes .two := by
    cases side with
    | one => exact Iff.rfl
    | two => exact And.comm
  rw [h.negotiator n hn]
  constructor
  · apply Negotiator.isSettled_of_said
    · rw [hheard]
      exact List.Subset.refl _
    · rw [hheard', said]
      exact List.subset_append_left _ _
  · intro code
    rw [mem_own_having, hheard, mem_said_consent (.inr rfl), hboth]
  · intro code
    rw [mem_peer_having, hheard, mem_said_consent (.inl rfl), hboth]

theorem Sound.agrees (h : Sound codes p) (hquiet : p.IsQuiet) :
    ∃ n, p.negotiator side = some n ∧ Agrees codes n := by
  obtain ⟨heard, h⟩ := h
  obtain ⟨n, hn⟩ := Option.ne_none_iff_exists'.1 (hquiet side).1
  exact ⟨n, hn, (h side).agrees (h side.other) hquiet hn⟩

end Parley

open Parley in
/-- Two sides with any options take turns in any order. However they do, they have nothing left to
do after `steps codes` turns, and not before. Until then the next word for a side is answered only
if it is the offer of an option that the side does not have; and in the end both sides are settled
and use the options that both have. -/
theorem parley_agrees (codes : Side → List UInt8) (schedule : List Side) (p : Parley)
    (hrun : start.run? codes schedule = some p) :
    schedule.length ≤ steps codes ∧
      (schedule.length = steps codes ↔ p.IsQuiet) ∧
      (p.IsQuiet ↔ ∀ side, p.act? codes side = none) ∧
      (∀ side n s rest, p.negotiator side = some n → p.coming side = s :: rest →
        RepliesTo codes side s (n.handle s.word.verb s.word.code).2) ∧
      (p.IsQuiet → ∀ side, ∃ n, p.negotiator side = some n ∧ Agrees codes n) := by
  have hsound := (sound_start codes).run hrun
  have hlength := effort_run (sound_start codes) hrun
  rw [effort_start] at hlength
  have hdone : schedule.length = steps codes ↔ p.IsQuiet := by
    rw [← effort_eq_zero codes]
    constructor
    · intro hlast side
      cases side <;> omega
    · intro hzero
      rw [hzero, hzero] at hlength
      exact hlength
  exact ⟨by omega, hdone, isQuiet_iff, fun _ _ _ _ hn hc => hsound.repliesTo hn hc,
    fun hquiet _ => hsound.agrees hquiet⟩

/-- Both sides have binary transmission; the second also asks for another option. -/
def crossingCodes : Side → List UInt8
  | .one => [optionBinary]
  | .two => [optionBinary, optionSuppressGoAhead]

open Parley in
/-- The offers cross, and then the first side hears all it has to hear before the second. -/
theorem parley_agrees_crossing : ∃ p,
    start.run? crossingCodes
        [.one, .two, .one, .one, .one, .one, .two, .two, .two, .two] = some p ∧
      p.IsQuiet ∧ ∀ side, ∃ n, p.negotiator side = some n ∧ Agrees crossingCodes n := by
  have hsome : ∃ p, start.run? crossingCodes
      [.one, .two, .one, .one, .one, .one, .two, .two, .two, .two] = some p := ⟨_, rfl⟩
  obtain ⟨p, hrun⟩ := hsome
  have hall := parley_agrees crossingCodes _ p hrun
  have hquiet : p.IsQuiet := hall.2.1.1 rfl
  exact ⟨p, hrun, hquiet, hall.2.2.2.2 hquiet⟩

end Wirebench.Telnet

import Wirebench.Proofs.Telnet.Transparency
import Wirebench.Proofs.Telnet.Words

namespace Wirebench

open Scripted (Side)
open Telnet

variable {S T W : Type} {lines : Lines W} {side : Side} {sideOf : T → Side} {io : Wire T W}
  {codes taken : List UInt8}

namespace Telnet

theorem Coherent.mono {ws us : List Word} (h : Coherent us) (hsub : ws ⊆ us) : Coherent ws := by
  intro code
  obtain ⟨hown, hpeer⟩ := h code
  exact ⟨fun hd => hown ⟨hsub hd.1, hsub hd.2⟩, fun hw => hpeer ⟨hsub hw.1, hsub hw.2⟩⟩

theorem wordsIn_append (xs ys : List UInt8) :
    wordsIn (xs ++ ys) = wordsIn xs ++
      (commandsOf ((Parser.data.feed xs).1.feed ys).2).filterMap Word.ofCommand? := by
  rw [wordsIn, Parser.feed_append, commandsOf_append, List.filterMap_append, wordsIn]

theorem prefix_wordsIn (xs ys : List UInt8) : wordsIn xs <+: wordsIn (xs ++ ys) := by
  rw [wordsIn_append]
  exact List.prefix_append _ _

namespace Layer

/-- The layer has the given options and has taken in some bytes since its offers. -/
structure Heard (l : Layer) (codes taken : List UInt8) : Prop where
  parser : l.parser = (Parser.data.feed taken).1
  negotiator : l.negotiator = .having codes (wordsIn taken)

/-- The layer when it has taken in some bytes. -/
def after (l : Layer) (bytes : List UInt8) : Layer := (l.absorb bytes).1.obey (l.absorb bytes).2

theorem apply_of_word {l : Layer} {c : Command} {w : Word} (h : Word.ofCommand? c = some w) :
    l.apply c = ({ l with negotiator := (l.negotiator.handle w.verb w.code).1 },
      (l.negotiator.handle w.verb w.code).2) := by
  cases c with
  | negotiate v o => cases h; rfl
  | breakSignal => cases h
  | subnegotiation => cases h
  | other => cases h

theorem apply_of_no_word {l : Layer} {c : Command} (h : Word.ofCommand? c = none) :
    (l.apply c).1.negotiator = l.negotiator ∧ (l.apply c).2 = none := by
  cases c with
  | negotiate v o => cases h
  | breakSignal => exact ⟨rfl, rfl⟩
  | subnegotiation => exact ⟨rfl, rfl⟩
  | other => exact ⟨rfl, rfl⟩

theorem obey_having {l : Layer} {heard : List Word} {cs : List Command}
    (hl : l.negotiator = .having codes heard)
    (hc : Coherent (heard ++ cs.filterMap Word.ofCommand?)) :
    (l.obey cs).negotiator = .having codes (heard ++ cs.filterMap Word.ofCommand?) ∧
      l.answers cs =
        encode (((cs.filterMap Word.ofCommand?).filterMap (refusal? codes)).map Word.message) := by
  induction cs generalizing l heard with
  | nil =>
    rw [List.filterMap_nil, List.append_nil]
    exact ⟨hl, rfl⟩
  | cons c cs ih =>
    rw [obey, List.foldl_cons, answers]
    cases hw : Word.ofCommand? c with
    | none =>
      rw [List.filterMap_cons_none hw] at hc ⊢
      obtain ⟨hnegotiator, hreply⟩ := l.apply_of_no_word hw
      rw [hreply]
      exact ih (hnegotiator.trans hl) hc
    | some w =>
      rw [List.filterMap_cons_some hw, List.append_cons] at hc
      have happly : l.apply c = ({ l with negotiator := .having codes (heard ++ [w]) },
          (refusal? codes w).map Word.bytes) := by
        rw [apply_of_word hw, hl,
          Negotiator.handle_having codes (hc.mono (List.subset_append_left _ _))]
      obtain ⟨hnegotiator, hanswers⟩ :=
        ih (l := { l with negotiator := .having codes (heard ++ [w]) }) rfl hc
      rw [List.filterMap_cons_some hw, List.append_cons, happly]
      apply And.intro hnegotiator
      rw [hanswers]
      cases hr : refusal? codes w with
      | none =>
        rw [List.filterMap_cons_none hr]
        rfl
      | some u =>
        rw [List.filterMap_cons_some hr]
        rfl

end Layer

/-- All that a layer with the given options has sent when it has taken in some bytes. -/
def saying (codes taken : List UInt8) : List UInt8 :=
  encode ((said codes (wordsIn taken)).map Word.message)

theorem wordsIn_saying (codes taken : List UInt8) :
    wordsIn (saying codes taken) = said codes (wordsIn taken) := wordsIn_encode _

theorem saying_nil (codes : List UInt8) : saying codes [] = Negotiator.offers codes := by
  rw [← Negotiator.encode_offerMessages, ← message_offerWords]
  exact congrArg (fun ws => encode (ws.map Word.message)) (List.append_nil _)

theorem Layer.Heard.after {l : Layer} (h : l.Heard codes taken) {bytes : List UInt8}
    (hc : Coherent (wordsIn (taken ++ bytes))) :
    (l.after bytes).Heard codes (taken ++ bytes) ∧
      saying codes (taken ++ bytes) =
        saying codes taken ++ (l.absorb bytes).1.answers (l.absorb bytes).2 := by
  have hwords : wordsIn (taken ++ bytes) =
      wordsIn taken ++ (l.absorb bytes).2.filterMap Word.ofCommand? := by
    rw [wordsIn_append, ← h.parser]
    rfl
  rw [hwords] at hc
  obtain ⟨hnegotiator, hanswers⟩ := Layer.obey_having (l := (l.absorb bytes).1) h.negotiator hc
  refine ⟨⟨?_, ?_⟩, ?_⟩
  · rw [Layer.after, Layer.obey_parser, Parser.feed_append, ← h.parser]
    rfl
  · rw [hwords]
    exact hnegotiator
  · rw [hanswers, saying, saying, hwords, ← encode_append, ← List.map_append, said, said,
      List.filterMap_append, List.append_assoc]

/-- A layer and the transport below it get from one state to another. What the layer has sent stays
determined by what it has taken in. -/
def Converses (lines : Lines W) (sideOf : T → Side) (side : Side) (codes : List UInt8)
    (x y : (Layer × Handle T) × W) : Prop :=
  ∀ taken, x.1.1.Heard codes taken → transportView sideOf x.1.2 = some (side, []) →
    lines.intact x.2 → Coherent (wordsIn (taken ++ lines.coming side x.2)) → ∃ took put,
      y.1.1.Heard codes (taken ++ took) ∧ transportView sideOf y.1.2 = some (side, []) ∧
        lines.Moved side took put x.2 y.2 ∧
          saying codes (taken ++ took) = saying codes taken ++ put

theorem Converses.refl (x : (Layer × Handle T) × W) : Converses lines sideOf side codes x x := by
  intro taken hl hv hw _
  refine ⟨[], [], ?_, hv, .refl side hw, ?_⟩
  · rwa [List.append_nil]
  · rw [List.append_nil, List.append_nil]

theorem Converses.trans {x y z : (Layer × Handle T) × W}
    (h : Converses lines sideOf side codes x y) (h' : Converses lines sideOf side codes y z) :
    Converses lines sideOf side codes x z := by
  intro taken hl hv hw hc
  obtain ⟨took, put, hl', hv', hm, hsay⟩ := h taken hl hv hw hc
  rw [hm.took, ← List.append_assoc] at hc
  obtain ⟨took', put', hl'', hv'', hm', hsay'⟩ := h' _ hl' hv' hm.intact hc
  refine ⟨took ++ took', put ++ put', ?_, hv'', hm.trans hm', ?_⟩
  · rwa [← List.append_assoc]
  · rw [← List.append_assoc, hsay', hsay, List.append_assoc]

theorem Lossless.guarded_read (hio : Lossless lines sideOf io) {h h' : Handle T} {k : Nat}
    {r : Outcome (List UInt8)} {w w' : W} (hv : transportView sideOf h = some (side, []))
    (hw : lines.intact w) (hr : io.guarded.read k h w = (r, h', w')) :
    transportView sideOf h' = some (side, []) ∧ lines.Moved side r.gained [] w w' := by
  obtain ⟨t, rfl, rfl, -⟩ := transportView_eq_some hv
  cases hc : io.read k t w with
  | mk r₀ rest =>
    obtain ⟨t', w₁⟩ := rest
    obtain ⟨hside, hm⟩ := hio.read hw hc
    simp only [Wire.guarded, Wire.whenOpen, ↓reduceIte, hc, Prod.mk.injEq] at hr
    obtain ⟨rfl, rfl, rfl⟩ := hr
    exact ⟨transportView_open hside, hm⟩

theorem Lossless.converses_of_read (hio : Lossless lines sideOf io) {h h' : Handle T} {k : Nat}
    {r : Outcome (List UInt8)} {w w' : W} (hread : io.guarded.read k h w = (r, h', w'))
    (hr : r.gained = []) (l : Layer) :
    Converses lines sideOf side codes ((l, h), w) ((l, h'), w') := by
  intro taken hl hv hw _
  obtain ⟨hv', hm⟩ := hio.guarded_read hv hw hread
  rw [hr] at hm
  refine ⟨[], [], ?_, hv', hm, ?_⟩
  · rwa [List.append_nil]
  · rw [List.append_nil, List.append_nil]

theorem Lossless.converses_fill (hio : Lossless lines sideOf io) {x y : Layer × Handle T}
    {w w' : W} {r : Outcome Unit} (h : Telnet.fill io.guarded x w = (r, y, w')) :
    Converses lines sideOf side codes (x, w) (y, w') := by
  obtain ⟨l, t⟩ := x
  cases hr : io.guarded.read l.bufferSize t w with
  | mk r₀ rest =>
    obtain ⟨t₁, w₁⟩ := rest
    cases r₀ with
    | ok bytes =>
      intro taken hl hv hw hc
      obtain ⟨hv₁, hm₁⟩ := hio.guarded_read hv hw hr
      obtain ⟨t₂, w₂, happly, hv₂, hm₂⟩ :=
        hio.carrier.applyAll (l.absorb bytes).2 hv₁ hm₁.intact (l := (l.absorb bytes).1)
      simp only [Telnet.fill, hr, happly, Prod.mk.injEq] at h
      obtain ⟨-, rfl, rfl⟩ := h
      have hm := hm₁.trans hm₂
      rw [List.append_nil] at hm
      rw [hm₁.took, ← List.append_assoc] at hc
      obtain ⟨hl', hsay⟩ := hl.after (hc.mono (prefix_wordsIn _ _).subset)
      exact ⟨bytes, _, hl', hv₂, hm, hsay⟩
    | error e =>
      simp only [Telnet.fill, hr, Prod.mk.injEq] at h
      obtain ⟨-, rfl, rfl⟩ := h
      exact hio.converses_of_read hr rfl l
    | waiting =>
      simp only [Telnet.fill, hr, Prod.mk.injEq] at h
      obtain ⟨-, rfl, rfl⟩ := h
      exact hio.converses_of_read hr rfl l
    | stalled =>
      simp only [Telnet.fill, hr, Prod.mk.injEq] at h
      obtain ⟨-, rfl, rfl⟩ := h
      exact hio.converses_of_read hr rfl l

end Telnet

namespace Setup

/-- One layer with the given options has been put on, and it has taken in some bytes; it is settled
if the setup has come to its end. -/
structure Holds (sideOf : T → Side) (side : Side) (codes taken : List UInt8) (s : Setup T) :
    Prop where
  layer : ∃ l, s.view sideOf = some (side, [l]) ∧ l.Heard codes taken ∧
    ∀ e, s = .ended (.ok e) → l.isSettled = true
  missing : s.missing = 0

/-- A setup has got to `x`, unless it has been given up. Before that its layer had taken in some
bytes and sent some. -/
def Continues (lines : Lines W) (sideOf : T → Side) (side : Side) (codes taken sent : List UInt8)
    (w : W) (x : Setup T × W) : Prop :=
  x.1.isGivenUp = false → ∃ took put, x.1.Holds sideOf side codes (taken ++ took) ∧
    lines.Moved side took put w x.2 ∧ saying codes (taken ++ took) = sent ++ put

theorem Continues.stay {s : Setup T} {w : W} (h : s.Holds sideOf side codes taken)
    (hw : lines.intact w) :
    Continues lines sideOf side codes taken (saying codes taken) w (s, w) := by
  intro _
  refine ⟨[], [], ?_, .refl side hw, ?_⟩
  · rwa [List.append_nil]
  · rw [List.append_nil, List.append_nil]

theorem Continues.abandon (sent : List UInt8) (w w' : W) (e : Endpoint T) (reason : String) :
    Continues lines sideOf side codes taken sent w (Setup.abandon io e reason w') := by
  intro hx
  cases hx

theorem Continues.wait {n : Negotiation T} {now : Nat} {w : W}
    (h : (negotiating n).Holds sideOf side codes taken) (hw : lines.intact w) :
    Continues lines sideOf side codes taken (saying codes taken) w (Setup.wait io now n w) := by
  unfold Setup.wait
  split
  · exact .abandon _ _ _ _ _
  · exact .stay h hw

theorem Continues.afterSettle {n : Negotiation T} {now : Nat} {r : Outcome Unit} {l : Layer}
    {s : StackState T n.layers} {w : W} (htodo : n.todo = [])
    (hv : stackView sideOf n.layers s = some (side, [])) (hl : l.Heard codes taken)
    (hsettled : r = .ok () → l.isSettled = true) (hw : lines.intact w) :
    Continues lines sideOf side codes taken (saying codes taken) w
      (Setup.afterSettle io now n (start io now n.todo) (r, (l, s), w)) := by
  have hview : (negotiating { n with state := (l, s) }).view sideOf = some (side, [l]) := by
    simp only [view, hv, Option.map_some]
  have hholds : (negotiating { n with state := (l, s) }).Holds sideOf side codes taken :=
    ⟨⟨l, hview, hl, fun _ h => by cases h⟩, List.length_eq_zero_iff.2 htodo⟩
  cases r with
  | ok =>
    rw [htodo]
    have hdone : (ended (.ok (.addLayer n.layers (l, s)))).Holds sideOf side codes taken :=
      ⟨⟨l, layerView_open hv, hl, fun _ _ => hsettled rfl⟩, rfl⟩
    exact .stay hdone hw
  | error e => exact .abandon _ _ _ _ _
  | waiting => exact .wait hholds hw
  | stalled => exact .wait hholds hw

theorem Continues.after {sent put : List UInt8} {took : List UInt8} {w w' : W} {x : Setup T × W}
    (hm : lines.Moved side took put w w')
    (h : Continues lines sideOf side codes (taken ++ took) (sent ++ put) w' x) :
    Continues lines sideOf side codes taken sent w x := by
  intro hx
  obtain ⟨took', put', hholds, hm', hsay⟩ := h hx
  refine ⟨took ++ took', put ++ put', ?_, hm.trans hm', ?_⟩
  · rwa [← List.append_assoc]
  · rw [← List.append_assoc, hsay, List.append_assoc]

theorem Continues.settle (hio : Lossless lines sideOf io) {now : Nat} {n : Negotiation T}
    {x : Layer × StackState T n.layers} {w : W} (htodo : n.todo = [])
    (hv : stackView sideOf n.layers x.2 = some (side, [])) (hl : x.1.Heard codes taken)
    (hw : lines.intact w) (hc : Coherent (wordsIn (taken ++ lines.coming side w))) :
    Continues lines sideOf side codes taken (saying codes taken) w
      (Setup.afterSettle io now n (start io now n.todo)
        (settle (stackWire io n.layers) x w)) := by
  obtain ⟨layers, state, config, deadline, offered, todo⟩ := n
  have hlayers : layers = 0 := (stackView_length hv).symm
  subst hlayers
  cases hset : Telnet.settle (stackWire io 0) x w with
  | mk r rest =>
    obtain ⟨⟨l, s⟩, w'⟩ := rest
    have hconverses : Converses lines sideOf side codes (x, w) ((l, s), w') :=
      fillUntil_of_fill .refl .trans hio.converses_fill hset
    obtain ⟨took, put, hl', hv', hm, hsay⟩ := hconverses taken hl hv hw hc
    have hsettled : r = .ok () → l.isSettled = true := by
      rintro rfl
      exact done_of_fillUntil hset
    apply Continues.after hm
    rw [← hsay]
    exact .afterSettle htodo hv' hl' hsettled hm.intact

theorem Continues.start (hio : Lossless lines sideOf io) (now : Nat) (config : EndpointConfig)
    {e : Endpoint T} {w : W} (hv : stackView sideOf e.layers e.state = some (side, []))
    (hw : lines.intact w) (hc : Coherent (wordsIn (lines.coming side w))) :
    Continues lines sideOf side (Negotiator.supported config.telnet) [] [] w
      (Setup.start io now [config] e w) := by
  obtain ⟨s, w', hwrite, hv', hm⟩ := (hio.stack e.layers).writeAll hv hw
    (Negotiator.offers (Negotiator.supported config.telnet))
  have hlayers : e.layers = 0 := (stackView_length hv).symm
  have hput : wrap e.layers (Negotiator.offers (Negotiator.supported config.telnet)) =
      saying (Negotiator.supported config.telnet) [] := by
    rw [hlayers, saying_nil]
    rfl
  have hcoming : lines.coming side w = lines.coming side w' := hm.took
  rw [hcoming] at hc
  rw [hput] at hm
  simp only [Setup.start, begin, hwrite]
  exact Continues.after hm (.settle hio rfl hv' ⟨rfl, rfl⟩ hm.intact hc)

theorem Continues.poll (hio : Lossless lines sideOf io) (now : Nat) {s : Setup T} {w : W}
    (h : s.Holds sideOf side codes taken) (hw : lines.intact w)
    (hc : Coherent (wordsIn (taken ++ lines.coming side w))) :
    Continues lines sideOf side codes taken (saying codes taken) w (s.poll io now w) := by
  cases s with
  | ended r => exact .stay h hw
  | negotiating n =>
    simp only [Setup.poll]
    by_cases ho : n.offered = true
    · rw [if_pos ho]
      obtain ⟨⟨l, hview, hl, -⟩, hmissing⟩ := h
      simp only [view, Option.map_eq_some_iff, Prod.mk.injEq] at hview
      obtain ⟨⟨p, ls⟩, hv, rfl, hls⟩ := hview
      obtain ⟨rfl, rfl⟩ := List.cons.inj hls
      exact .settle hio (List.length_eq_zero_iff.1 hmissing) hv hl hw hc
    · rw [if_neg ho]
      exact .wait h hw

end Setup

namespace Party

/-- A party that puts on one layer with the given options, or has done so and has taken in some
bytes since its offers. -/
def Holds (sideOf : T → Side) (side : Side) (codes taken : List UInt8) (p : Party T) : Prop :=
  match p.stage with
  | .inl (configs, t) =>
    (∃ config, configs = [config] ∧ Negotiator.supported config.telnet = codes) ∧
      sideOf t = side ∧ taken = []
  | .inr s => s.Holds sideOf side codes taken

/-- What a party has sent. -/
def sent (codes taken : List UInt8) (p : Party T) : List UInt8 :=
  match p.stage with
  | .inl _ => []
  | .inr _ => saying codes taken

/-- What a party sends is never refused and agreed to at once by the other one. -/
theorem coherent_sent (codes taken : List UInt8) (p : Party T) :
    Coherent (wordsIn (p.sent codes taken)) := by
  refine @coherent_of_subset_said codes (wordsIn taken) _ ?_
  unfold sent
  split
  · exact List.nil_subset _
  · rw [wordsIn_saying]
    exact List.Subset.refl _

theorem Holds.act (hio : Lossless lines sideOf io) {p : Party T} {w : W}
    (h : p.Holds sideOf side codes taken) (hw : lines.intact w)
    (hc : Coherent (wordsIn (taken ++ lines.coming side w))) (now : Nat)
    (hgone : (p.act io (.proceed now) w).1.isGone = false) : ∃ took put,
      (p.act io (.proceed now) w).1.Holds sideOf side codes (taken ++ took) ∧
        lines.Moved side took put w (p.act io (.proceed now) w).2 ∧
          (p.act io (.proceed now) w).1.sent codes (taken ++ took) = p.sent codes taken ++ put := by
  obtain ⟨stage, handed, written, breaks⟩ := p
  cases stage with
  | inl x =>
    obtain ⟨configs, t⟩ := x
    obtain ⟨⟨config, rfl, rfl⟩, rfl, rfl⟩ := h
    exact Setup.Continues.start hio now config (e := .ofTransport t) rfl hw hc hgone
  | inr s => exact Setup.Continues.poll hio now h hw hc hgone

end Party

namespace Link

variable {options : Side → List UInt8} {l : Link T W}

/-- Each side is what it has taken in; that and what is on its way is what the other one has
sent. -/
structure Holds (lines : Lines W) (sideOf : T → Side) (options heard : Side → List UInt8)
    (l : Link T W) (side : Side) : Prop where
  party : (l.party side).Holds sideOf side (options side) (heard side)
  line : heard side ++ lines.coming side l.world =
    (l.party side.other).sent (options side.other) (heard side.other)

/-- Both sides are what they have heard of each other. -/
structure Tells (lines : Lines W) (sideOf : T → Side) (options : Side → List UInt8)
    (l : Link T W) : Prop where
  intact : lines.intact l.world
  holds : ∃ heard, ∀ side, Holds lines sideOf options heard l side

theorem Tells.start {config : Side → EndpointConfig} {transport : Side → T} {w : W}
    (hw : lines.intact w) (hempty : ∀ side, lines.coming side w = [])
    (hside : ∀ side, sideOf (transport side) = side) :
    Tells lines sideOf (fun side => Negotiator.supported (config side).telnet)
      (start (fun side => [config side]) transport w) where
  intact := hw
  holds := ⟨fun _ => [], fun side => ⟨⟨⟨config side, rfl, rfl⟩, hside side, rfl⟩, hempty side⟩⟩

theorem Tells.act (hio : Lossless lines sideOf io) (h : Tells lines sideOf options l) (side : Side)
    (now : Nat) (hgone : ((l.act io (side, .proceed now)).party side).isGone = false) :
    Tells lines sideOf options (l.act io (side, .proceed now)) := by
  obtain ⟨hw, heard, hholds⟩ := h
  obtain ⟨hparty, hline⟩ := hholds side
  obtain ⟨hparty', hline'⟩ := hholds side.other
  have hcoherent : Coherent (wordsIn (heard side ++ lines.coming side l.world)) := by
    rw [hline]
    exact Party.coherent_sent _ _ _
  have hself : (l.act io (side, .proceed now)).party side =
      ((l.party side).act io (.proceed now) l.world).1 := l.act_party_self _
  have hother : (l.act io (side, .proceed now)).party side.other = l.party side.other :=
    l.act_party_other _
  rw [hself] at hgone
  obtain ⟨took, put, hacted, hm, hsent⟩ := hparty.act hio hw hcoherent now hgone
  refine ⟨hm.intact, fun s => if s = side then heard side ++ took else heard s, ?_⟩
  refine Side.forall_of_other side ?_ ?_
  · constructor
    · rw [hself, if_pos rfl]
      exact hacted
    · rw [hother, if_pos rfl, if_neg side.other_ne, act_world, List.append_assoc, ← hm.took, hline]
  · constructor
    · rw [hother, if_neg side.other_ne]
      exact hparty'
    · rw [Side.other_other] at hline' ⊢
      rw [hself, if_pos rfl, if_neg side.other_ne, act_world, hm.put, ← List.append_assoc, hline',
        hsent]

theorem Tells.run (hio : Lossless lines sideOf io) (schedule : List (Side × Nat))
    (h : Tells lines sideOf options l)
    (hgone : ∀ side,
      ((l.run io (schedule.map fun x => (x.1, .proceed x.2))).party side).isGone = false) :
    Tells lines sideOf options (l.run io (schedule.map fun x => (x.1, .proceed x.2))) := by
  induction schedule generalizing l with
  | nil => exact h
  | cons x schedule ih =>
    have hnot : ((l.act io (x.1, .proceed x.2)).party x.1).isGone = false := by
      cases hx : ((l.act io (x.1, .proceed x.2)).party x.1).isGone with
      | false => rfl
      | true =>
        have hlater := (hgone x.1).symm.trans (isGone_run hx _)
        cases hlater
    exact ih (h.act hio x.1 x.2 hnot) hgone

end Link

namespace Telnet

/-- A side with the options `codes` is not settled before it has heard all offers of a side with the
options `other`: it waits for the refusal of an option that the other side does not have, which
follows all offers, or for an option that is offered last. -/
def Covers (codes other : List UInt8) : Prop := ∀ o ∈ other, ∃ p ∈ codes, p ∉ other ∨ o ≤ p

instance (codes other : List UInt8) : Decidable (Covers codes other) :=
  inferInstanceAs (Decidable (∀ o ∈ other, ∃ p ∈ codes, p ∉ other ∨ o ≤ p))

theorem supported_sorted (config : TelnetConfig) :
    (Negotiator.supported config).Pairwise (· < ·) := by
  obtain ⟨goAhead, binary⟩ := config
  cases goAhead <;> cases binary <;> decide

theorem offerWords_append (codes codes' : List UInt8) :
    offerWords (codes ++ codes') = offerWords codes ++ offerWords codes' := List.flatMap_append

variable {other : List UInt8} {heard heard' : List Word}

/-- Who has heard the refusal of an option has heard all offers. -/
theorem offers_prefix_of_refusal {p : UInt8} (h : heard <+: said other heard')
    (hp : ⟨.dontUse, p⟩ ∈ heard) : offerWords other <+: heard := by
  have hoffers : offerWords other <+: said other heard' := List.prefix_append _ _
  rcases List.prefix_or_prefix_of_prefix hoffers h with hall | hpart
  · exact hall
  · obtain ⟨-, hverb⟩ := mem_offerWords.1 (hpart.subset hp)
    rcases hverb with hverb | hverb <;> cases hverb

/-- Who has heard the offer of an option has heard those of all options before it. -/
theorem offers_prefix_of_consent {before after : List UInt8} {p : UInt8}
    (h : heard <+: said (before ++ p :: after) heard') (hp : ⟨.doUse, p⟩ ∈ heard)
    (hnot : p ∉ before) : offerWords before ++ [⟨.willUse, p⟩] <+: heard := by
  have hoffers : offerWords before ++ [⟨.willUse, p⟩] <+: said (before ++ p :: after) heard' := by
    rw [said, offerWords_append, List.append_assoc, List.prefix_append_right_inj]
    exact List.prefix_append [_] _
  rcases List.prefix_or_prefix_of_prefix hoffers h with hall | hpart
  · exact hall
  · rcases List.mem_append.1 (hpart.subset hp) with hbefore | hlast
    · exact absurd (mem_offerWords.1 hbefore).1 hnot
    · cases List.mem_singleton.1 hlast

theorem Covers.offers_subset {codes : List UInt8} (h : Covers codes other)
    (hsorted : other.Pairwise (· < ·)) (hstart : heard <+: said other heard')
    (hsettled : (Negotiator.having codes heard).isSettled) : offerWords other ⊆ heard := by
  intro w hw
  obtain ⟨hcode, hverb⟩ := mem_offerWords.1 hw
  obtain ⟨p, hp, hcovers⟩ := h w.code hcode
  obtain ⟨hanswer, -⟩ := Negotiator.isSettled_having.1 hsettled p hp
  by_cases hother : p ∈ other
  · have hle : w.code ≤ p := hcovers.resolve_left (not_not_intro hother)
    have hconsent : ⟨.doUse, p⟩ ∈ heard := by
      refine hanswer.resolve_right fun hrefusal => ?_
      exact code_notMem_of_refusal (hstart.subset hrefusal) (.inl rfl) hother
    obtain ⟨before, after, rfl⟩ := List.append_of_mem hother
    obtain ⟨-, hafter, hbefore⟩ := List.pairwise_append.1 hsorted
    have hnot : p ∉ before :=
      fun hmem => UInt8.lt_irrefl p (hbefore p hmem p List.mem_cons_self)
    have hheard := (offers_prefix_of_consent hstart hconsent hnot).subset
    rcases List.mem_append.1 hcode with hearlier | hlater
    · exact hheard (List.mem_append_left _ (mem_offerWords.2 ⟨hearlier, hverb⟩))
    · rcases List.mem_cons.1 hlater with hsame | hlater
      · obtain ⟨v, o⟩ := w
        obtain rfl : o = p := hsame
        rcases hverb with rfl | rfl
        · exact hheard (List.mem_append_right _ List.mem_cons_self)
        · exact hconsent
      · have hlt := List.rel_of_pairwise_cons hafter hlater
        exact absurd hle (UInt8.not_le.2 hlt)
  · have hrefusal : ⟨.dontUse, p⟩ ∈ heard := by
      refine hanswer.resolve_left fun hconsent => ?_
      exact hother ((mem_said_consent (.inr rfl)).1 (hstart.subset hconsent))
    exact (offers_prefix_of_refusal hstart hrefusal).subset hw

end Telnet

namespace Party

/-- The party is still negotiating, and the bytes would not change that. -/
def starves (bytes : List UInt8) (p : Party T) : Bool :=
  match p.stage with
  | .inr (.negotiating n) => !(n.state.1.after bytes).isSettled
  | .inr (.ended _) | .inl _ => false

def isNegotiating (p : Party T) : Bool :=
  match p.stage with
  | .inr (.negotiating _) => true
  | .inr (.ended _) | .inl _ => false

theorem starves_eq_true {bytes : List UInt8} {p : Party T} (h : p.starves bytes = true) :
    ∃ n, p.stage = .inr (.negotiating n) ∧ (n.state.1.after bytes).isSettled = false := by
  unfold starves at h
  split at h
  · next n hn => exact ⟨n, hn, by simpa using h⟩
  · cases h
  · cases h

theorem isNegotiating_eq_true {p : Party T} (h : p.isNegotiating = true) :
    ∃ n, p.stage = .inr (.negotiating n) := by
  unfold isNegotiating at h
  split at h
  · next n hn => exact ⟨n, hn⟩
  · cases h
  · cases h

end Party

namespace Link

variable {options heard : Side → List UInt8} {l : Link T W}

/-- What a negotiating side has taken in decides whether it waits for an answer. -/
theorem Holds.negotiating {n : Negotiation T} (h : Holds lines sideOf options heard l side)
    (hn : (l.party side).stage = .inr (.negotiating n)) :
    n.state.1.Heard (options side) (heard side) := by
  have hparty := h.party
  rw [Party.Holds, hn] at hparty
  obtain ⟨layer, hview, hl, -⟩ := hparty.layer
  simp only [Setup.view, Option.map_eq_some_iff, Prod.mk.injEq] at hview
  obtain ⟨v, -, -, hlayers⟩ := hview
  obtain ⟨rfl, -⟩ := List.cons.inj hlayers
  exact hl

theorem Holds.returned {e : Endpoint T} (h : Holds lines sideOf options heard l side)
    (he : (l.party side).endpoint? = some e) :
    (Negotiator.having (options side) (wordsIn (heard side))).isSettled := by
  have hparty := h.party
  rw [Party.Holds, Party.endpoint?_eq_some he] at hparty
  obtain ⟨layer, -, hl, hsettled⟩ := hparty.layer
  rw [← hl.negotiator]
  exact hsettled e rfl

theorem Holds.line_of_started {s : Setup T} (h : Holds lines sideOf options heard l side)
    (hs : (l.party side.other).stage = .inr s) :
    wordsIn (heard side ++ lines.coming side l.world) =
      said (options side.other) (wordsIn (heard side.other)) := by
  rw [h.line, Party.sent, hs]
  exact wordsIn_saying _ _

/-- A side does not wait in vain for one that has heard all its offers. -/
theorem Holds.settled_after {n : Negotiation T} {s : Setup T}
    (h : Holds lines sideOf options heard l side)
    (hn : (l.party side).stage = .inr (.negotiating n))
    (hs : (l.party side.other).stage = .inr s)
    (hoffers : offerWords (options side) ⊆ wordsIn (heard side.other)) :
    (n.state.1.after (lines.coming side l.world)).isSettled = true := by
  have hwords := h.line_of_started hs
  have hcoherent : Coherent (wordsIn (heard side ++ lines.coming side l.world)) := by
    rw [h.line]
    exact Party.coherent_sent _ _ _
  have hafter := ((h.negotiating hn).after hcoherent).1.negotiator
  rw [Layer.isSettled, hafter, hwords]
  exact Negotiator.isSettled_of_said (List.Subset.refl _) hoffers

end Link

/-- Two sides with the given settings meet on a lossless pipe, and their setups are gone on with in
some order, at any times. -/
structure Rendezvous (telnet : Side → TelnetConfig) where
  {T W : Type}
  lines : Lines W
  sideOf : T → Side
  io : Wire T W
  lossless : Lossless lines sideOf io
  world : W
  intact : lines.intact world
  empty : ∀ side, lines.coming side world = []
  transport : Side → T
  sides : ∀ side, sideOf (transport side) = side
  config : Side → EndpointConfig
  telnet_config : ∀ side, (config side).telnet = telnet side
  schedule : List (Side × Nat)

namespace Rendezvous

variable {telnet : Side → TelnetConfig}

/-- What the meeting comes to. -/
def link (r : Rendezvous telnet) : Link r.T r.W :=
  (Link.start (fun side => [r.config side]) r.transport r.world).run r.io
    (r.schedule.map fun x => (x.1, .proceed x.2))

/-- A side is waiting for an answer that is not on its way. -/
def Starves (r : Rendezvous telnet) (side : Side) : Prop :=
  (r.link.party side).starves (r.lines.coming side r.link.world) = true

/-- A side is waiting with nothing left to read. -/
def Waits (r : Rendezvous telnet) (side : Side) : Prop :=
  (r.link.party side).isNegotiating = true ∧ r.lines.coming side r.link.world = []

/-- A side has negotiated all that it wants to. -/
def HasReturned (r : Rendezvous telnet) (side : Side) : Prop :=
  (r.link.party side).endpoint?.isSome = true

instance (r : Rendezvous telnet) (side : Side) : Decidable (r.Starves side) :=
  inferInstanceAs (Decidable (_ = true))

instance (r : Rendezvous telnet) (side : Side) : Decidable (r.HasReturned side) :=
  inferInstanceAs (Decidable (_ = true))

def options (telnet : Side → TelnetConfig) (side : Side) : List UInt8 :=
  Negotiator.supported (telnet side)

theorem tells (r : Rendezvous telnet) (hgone : ∀ side, (r.link.party side).isGone = false) :
    r.link.Tells r.lines r.sideOf (options telnet) := by
  have hstart : (Link.start (fun side => [r.config side]) r.transport r.world).Tells r.lines
      r.sideOf fun side => Negotiator.supported (r.config side).telnet :=
    .start r.intact r.empty r.sides
  simp only [r.telnet_config] at hstart
  exact hstart.run r.lossless r.schedule hgone

theorem Starves.negotiating {r : Rendezvous telnet} {side : Side} (h : r.Starves side) :
    ∃ n, (r.link.party side).stage = .inr (.negotiating n) ∧
      (n.state.1.after (r.lines.coming side r.link.world)).isSettled = false :=
  Party.starves_eq_true h

theorem isGone_of_stage {p : Party T} {s : Setup T} (h : p.stage = .inr s) :
    p.isGone = s.isGivenUp := by
  rw [Party.isGone, h]

/-- Two sides do not wait for each other. -/
theorem Starves.not_waits {r : Rendezvous telnet} {side : Side} (h : r.Starves side) :
    ¬r.Waits side.other := by
  rintro ⟨hwaiting, hnothing⟩
  obtain ⟨n, hn, hunsettled⟩ := h.negotiating
  obtain ⟨n', hn'⟩ := Party.isNegotiating_eq_true hwaiting
  have hgone : ∀ s, (r.link.party s).isGone = false :=
    Side.forall_of_other side (isGone_of_stage hn) (isGone_of_stage hn')
  obtain ⟨-, heard, hholds⟩ := r.tells hgone
  have hstage : (r.link.party side.other.other).stage = .inr (.negotiating n) := by
    rwa [Side.other_other]
  have hheard := (hholds side.other).line_of_started hstage
  rw [hnothing, List.append_nil, Side.other_other] at hheard
  have hoffers : offerWords (options telnet side) ⊆ wordsIn (heard side.other) := by
    rw [hheard]
    exact List.subset_append_left _ _
  have hsettled := (hholds side).settled_after hn hn' hoffers
  rw [hsettled] at hunsettled
  cases hunsettled

/-- A side does not wait for one that was not settled before it had heard all offers. -/
theorem Starves.not_hasReturned {r : Rendezvous telnet} {side : Side} (h : r.Starves side)
    (hcovers : Covers (options telnet side.other) (options telnet side)) :
    ¬r.HasReturned side.other := by
  intro hreturned
  obtain ⟨n, hn, hunsettled⟩ := h.negotiating
  obtain ⟨e, he⟩ := Option.isSome_iff_exists.1 hreturned
  have hn' := Party.endpoint?_eq_some he
  have hgone : ∀ s, (r.link.party s).isGone = false :=
    Side.forall_of_other side (isGone_of_stage hn) (isGone_of_stage hn')
  obtain ⟨-, heard, hholds⟩ := r.tells hgone
  have hstage : (r.link.party side.other.other).stage = .inr (.negotiating n) := by
    rwa [Side.other_other]
  have hstart := prefix_wordsIn (heard side.other)
    (r.lines.coming side.other r.link.world)
  rw [(hholds side.other).line_of_started hstage, Side.other_other] at hstart
  have hoffers := hcovers.offers_subset (supported_sorted (telnet side)) hstart
    ((hholds side.other).returned he)
  have hsettled := (hholds side).settled_after hn hn' hoffers
  rw [hsettled] at hunsettled
  cases hunsettled

end Rendezvous

namespace Scripted.Pipe

/-- A pipe between two devices that take the offer of one option at a time. -/
def piecemeal : Pipe := ⟨{ device := { maxWrite := some 6 } }, { device := { maxWrite := some 6 } }⟩

theorem piecemeal_intact : Pipe.lines.intact piecemeal := by
  intro side
  cases side <;> exact ⟨rfl, rfl, rfl, nofun⟩

/-- One side makes its offers first and waits; then the other side gets as far as it can. -/
def rendezvous (telnet : Side → TelnetConfig) (first : Side) : Rendezvous telnet where
  lines := Pipe.lines
  sideOf := PipeHandle.side
  io := Pipe.wire
  lossless := lossless
  world := piecemeal
  intact := piecemeal_intact
  empty side := by cases side <;> rfl
  transport := piecemeal.handle
  sides _ := rfl
  config side := { telnet := telnet side }
  telnet_config _ := rfl
  schedule := [(first, 0), (first.other, 0)]

theorem rendezvous_of_not_covers {telnet : Side → TelnetConfig} {side : Side}
    (h : ¬Covers (Rendezvous.options telnet side.other) (Rendezvous.options telnet side)) :
    (rendezvous telnet side).Starves side ∧ (rendezvous telnet side).HasReturned side.other := by
  obtain ⟨one, hone⟩ : ∃ c, c = telnet .one := ⟨_, rfl⟩
  obtain ⟨two, htwo⟩ : ∃ c, c = telnet .two := ⟨_, rfl⟩
  have htelnet : telnet = fun s => if s = .one then one else two := by
    funext s
    cases s
    · exact hone.symm
    · exact htwo.symm
  subst htelnet
  clear hone htwo
  obtain ⟨a, b⟩ := one
  obtain ⟨c, d⟩ := two
  revert a b c d
  cases side
  · decide +kernel
  · decide +kernel

end Scripted.Pipe

/-- Two sides with any settings meet on any lossless pipe. They never wait for each other; and one
of them is left waiting by the other one, which has returned, for some pipe and some order of their
steps, exactly if the options of the other one do not cover its own. -/
theorem rendezvous_starves_iff (telnet : Side → TelnetConfig) :
    (¬∃ (r : Rendezvous telnet) (side : Side), r.Starves side ∧ r.Waits side.other) ∧
      ∀ side, (∃ r : Rendezvous telnet, r.Starves side ∧ r.HasReturned side.other) ↔
        ¬Covers (Rendezvous.options telnet side.other) (Rendezvous.options telnet side) := by
  constructor
  · rintro ⟨r, side, hstarves, hwaits⟩
    exact hstarves.not_waits hwaits
  · intro side
    constructor
    · rintro ⟨r, hstarves, hreturned⟩ hcovers
      exact hstarves.not_hasReturned hcovers hreturned
    · intro hcovers
      exact ⟨_, Scripted.Pipe.rendezvous_of_not_covers hcovers⟩

/-- The first side has no options, and the second has both. -/
def oneSided : Side → TelnetConfig
  | .one => ⟨false, false⟩
  | .two => {}

/-- A side without options returns at once and leaves the offers of the other side unanswered. -/
theorem not_every_offer_answered : ¬∀ (telnet : Side → TelnetConfig) (r : Rendezvous telnet)
    (side : Side), r.Starves side → ¬(r.HasReturned side.other ∨ r.Waits side.other) := by
  intro hnever
  have hstarves : (Scripted.Pipe.rendezvous oneSided .two).Starves .two := by decide +kernel
  have hreturned : (Scripted.Pipe.rendezvous oneSided .two).HasReturned .one := by decide +kernel
  exact hnever oneSided _ .two hstarves (.inl hreturned)

end Wirebench

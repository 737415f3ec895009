import Mathlib.Data.List.Perm.Basic
import Wirebench.Proofs.Telnet.Rendezvous
import Wirebench.Scripted.Replay

namespace Wirebench.Telnet

variable {S W : Type}

/-- Commands that nobody would miss: a layer does nothing about them. -/
def Command.isIdle : Command → Bool
  | .negotiate .. | .breakSignal => false
  | .subnegotiation _ | .other _ => true

theorem Command.isIdle_iff {c : Command} :
    c.isIdle = true ↔ c ≠ .breakSignal ∧ Word.ofCommand? c = none := by
  cases c <;> simp [isIdle, Word.ofCommand?]

/-- Bytes that a layer has taken in at once, the commands in them that it has carried out and those
that it has not, and how carrying them out has ended. -/
structure Batch where
  bytes : List UInt8
  obeyed : List Command
  lost : List Command
  outcome : Outcome Unit

def Batch.commands (b : Batch) : List Command := b.obeyed ++ b.lost

/-- The commands that are carried out: all up to the first one whose reply is not sent. -/
def obeyed (io : Wire S W) : List Command → Layer × S → W → List Command
  | [], _, _ => []
  | c :: cs, (l, s), w =>
    match l.apply c with
    | (l, none) => c :: obeyed io cs (l, s) w
    | (l, some reply) =>
      match io.writeAll reply s w with
      | (.ok (), s, w) => c :: obeyed io cs (l, s) w
      | _ => [c]

/-- The batch that bytes make for a layer which takes them in. -/
def Layer.batch (io : Wire S W) (l : Layer) (bytes : List UInt8) (s : S) (w : W) : Batch :=
  let (l, commands) := l.absorb bytes
  let done := obeyed io commands (l, s) w
  ⟨bytes, done, commands.drop done.length, (applyAll io commands (l, s) w).1⟩

/-- The batch that a layer takes in when it reads once from the wire below. -/
def batch? (io : Wire S W) : Layer × S → W → Option Batch
  | (l, s), w =>
    match io.read l.bufferSize s w with
    | (.ok bytes, s, w) => some (l.batch io bytes s w)
    | _ => none

/-- The batches that a layer takes in while it reads on. -/
def batches (io : Wire S W) (done : Layer → Bool) : Nat → Layer × S → W → List Batch
  | 0, _, _ => []
  | fuel + 1, x, w =>
    if done x.1 then []
    else
      (batch? io x w).toList ++
        match fill io x w with
        | (.ok (), x, w) => batches io done fuel x w
        | _ => []

theorem Layer.obey_cons (l : Layer) (c : Command) (cs : List Command) :
    l.obey (c :: cs) = (l.apply c).1.obey cs := rfl

theorem Layer.obey_append (l : Layer) (cs ds : List Command) :
    l.obey (cs ++ ds) = (l.obey cs).obey ds := List.foldl_append

/-- The replies of a layer that carries out some commands, one by one. -/
def Layer.replies (l : Layer) : List Command → List (List UInt8)
  | [] => []
  | c :: cs => (l.apply c).2.toList ++ (l.apply c).1.replies cs

/-- Send one reply after the other. The first that is not sent ends it. -/
def sendAll (io : Wire S W) : List (List UInt8) → S → W → Outcome Unit × S × W
  | [], s, w => (.ok (), s, w)
  | reply :: replies, s, w =>
    match io.writeAll reply s w with
    | (.ok (), s, w) => sendAll io replies s w
    | r => r

/-- To carry out commands is to obey the first of them and to send the replies to these. -/
theorem applyAll_eq (io : Wire S W) (cs : List Command) (l : Layer) (s : S) (w : W) :
    applyAll io cs (l, s) w =
      let r := sendAll io (l.replies (obeyed io cs (l, s) w)) s w
      (r.1, (l.obey (obeyed io cs (l, s) w), r.2.1), r.2.2) := by
  induction cs generalizing l s w with
  | nil => rfl
  | cons c cs ih =>
    -- A command without a reply cannot stop the others; one with a reply does unless it is sent.
    cases hc : l.apply c with
    | mk l' reply =>
      have hobey (ds : List Command) : l.obey (c :: ds) = l'.obey ds := by
        rw [Layer.obey_cons, hc]
      have hreplies (ds : List Command) :
          l.replies (c :: ds) = reply.toList ++ l'.replies ds := by
        rw [Layer.replies, hc]
      cases reply with
      | none =>
        simp only [applyAll, obeyed, hc, hobey, hreplies, Option.toList_none, List.nil_append]
        exact ih l' s w
      | some reply =>
        simp only [applyAll, obeyed, hc]
        cases hw : io.writeAll reply s w with
        | mk r rest =>
          obtain ⟨s', w'⟩ := rest
          cases r with
          | ok =>
            simp only [hobey, hreplies, Option.toList_some, List.singleton_append, sendAll, hw]
            exact ih l' s' w'
          | error | waiting | stalled =>
            simp only [hobey, hreplies, Option.toList_some, List.singleton_append, sendAll, hw]
            rfl

theorem prefix_obeyed (io : Wire S W) (cs : List Command) (l : Layer) (s : S) (w : W) :
    obeyed io cs (l, s) w <+: cs := by
  induction cs generalizing l s w with
  | nil => exact List.prefix_refl _
  | cons c cs ih =>
    rw [obeyed]
    split
    · exact List.cons_prefix_cons.2 ⟨rfl, ih _ _ _⟩
    · split
      · exact List.cons_prefix_cons.2 ⟨rfl, ih _ _ _⟩
      · exact List.cons_prefix_cons.2 ⟨rfl, List.nil_prefix⟩

theorem obeyed_of_ok {io : Wire S W} {cs : List Command} {l : Layer} {s : S} {w : W}
    (h : (applyAll io cs (l, s) w).1 = .ok ()) : obeyed io cs (l, s) w = cs := by
  induction cs generalizing l s w with
  | nil => rfl
  | cons c cs ih =>
    rw [applyAll] at h
    rw [obeyed]
    cases hc : l.apply c with
    | mk l' reply =>
      rw [hc] at h
      cases reply with
      | none => exact congrArg (c :: ·) (ih h)
      | some reply =>
        dsimp only at h ⊢
        cases hw : io.writeAll reply s w with
        | mk r rest =>
          obtain ⟨s', w'⟩ := rest
          rw [hw] at h
          cases r with
          | ok => exact congrArg (c :: ·) (ih h)
          | error | waiting | stalled => cases h

/-- What the commands make of the negotiator depends on nothing else in the layer. -/
theorem Layer.obey_negotiator {l l' : Layer} (h : l.negotiator = l'.negotiator)
    (cs : List Command) : (l.obey cs).negotiator = (l'.obey cs).negotiator := by
  induction cs generalizing l l' with
  | nil => exact h
  | cons c cs ih =>
    rw [obey_cons, obey_cons]
    apply ih
    cases hw : Word.ofCommand? c with
    | none => rw [(l.apply_of_no_word hw).1, (l'.apply_of_no_word hw).1, h]
    | some w => rw [apply_of_word hw, apply_of_word hw, h]

/-- A layer that has taken in some batches and handed out some bytes since it was `l`. Its data is
that of all the bytes, but it has obeyed some of the commands only. -/
structure Account (l l' : Layer) (handed : List UInt8) (bs : List Batch) : Prop where
  parser : l'.parser = (l.parser.feed (bs.flatMap Batch.bytes)).1
  data : l.decoded ++ dataOf (l.parser.feed (bs.flatMap Batch.bytes)).2 = handed ++ l'.decoded
  commands : commandsOf (l.parser.feed (bs.flatMap Batch.bytes)).2 = bs.flatMap Batch.commands
  negotiator : l'.negotiator = (l.obey (bs.flatMap Batch.obeyed)).negotiator
  breaks : l'.breaks = l.breaks + (bs.flatMap Batch.obeyed).count .breakSignal
  lost : ∀ b ∈ bs, b.outcome = .ok () → b.lost = []

namespace Account

variable {l l₁ l₂ l₃ : Layer} {xs ys : List UInt8} {bs bs' : List Batch}

theorem refl (l : Layer) : Account l l [] [] where
  parser := rfl
  data := List.append_nil _
  commands := rfl
  negotiator := rfl
  breaks := rfl
  lost := nofun

theorem trans (h : Account l₁ l₂ xs bs) (h' : Account l₂ l₃ ys bs') :
    Account l₁ l₃ (xs ++ ys) (bs ++ bs') where
  parser := by rw [h'.parser, h.parser, List.flatMap_append, Parser.feed_append]
  data := by
    rw [List.flatMap_append, Parser.feed_append, dataOf_append, ← List.append_assoc, h.data,
      List.append_assoc, ← h.parser, h'.data, List.append_assoc]
  commands := by
    rw [List.flatMap_append, Parser.feed_append, commandsOf_append, h.commands, ← h.parser,
      h'.commands, List.flatMap_append]
  negotiator := by
    rw [h'.negotiator, List.flatMap_append, Layer.obey_append]
    exact Layer.obey_negotiator h.negotiator _
  breaks := by rw [h'.breaks, h.breaks, List.flatMap_append, List.count_append, Nat.add_assoc]
  lost := by
    intro b hb
    rcases List.mem_append.1 hb with hb | hb
    · exact h.lost b hb
    · exact h'.lost b hb

theorem give (l : Layer) (n : Nat) :
    Account l { l with decoded := l.decoded.drop n } (l.decoded.take n) [] where
  parser := rfl
  data := (List.append_nil _).trans (List.take_append_drop n _).symm
  commands := rfl
  negotiator := rfl
  breaks := rfl
  lost := nofun

theorem batch (io : Wire S W) (l : Layer) (bytes : List UInt8) (s : S) (w : W) :
    Account l (applyAll io (l.absorb bytes).2 ((l.absorb bytes).1, s) w).2.1.1 []
      [l.batch io bytes s w] := by
  have hcommands : commandsOf (l.parser.feed bytes).2 = (l.batch io bytes s w).commands :=
    (List.prefix_iff_eq_append.1 (prefix_obeyed io _ _ s w)).symm
  have hnegotiator : (l.absorb bytes).1.negotiator = l.negotiator := rfl
  rw [applyAll_eq]
  constructor
  · rw [Layer.obey_parser, List.flatMap_singleton]
    rfl
  · rw [Layer.obey_decoded, List.flatMap_singleton]
    rfl
  · rw [List.flatMap_singleton, List.flatMap_singleton]
    exact hcommands
  · rw [List.flatMap_singleton]
    exact Layer.obey_negotiator hnegotiator _
  · rw [Layer.obey_breaks, List.flatMap_singleton]
    rfl
  · intro b hb hok
    rw [List.mem_singleton.1 hb] at hok ⊢
    exact List.drop_eq_nil_of_le (Nat.le_of_eq (congrArg List.length (obeyed_of_ok hok)).symm)

theorem fill (io : Wire S W) (x : Layer × S) (w : W) :
    Account x.1 (Telnet.fill io x w).2.1.1 [] (batch? io x w).toList := by
  obtain ⟨l, s⟩ := x
  rw [Telnet.fill, batch?]
  cases io.read l.bufferSize s w with
  | mk r rest =>
    cases r with
    | ok bytes => exact batch io l bytes rest.1 rest.2
    | error | waiting | stalled => exact .refl l

theorem fillUntil (io : Wire S W) (done : Layer → Bool) (fuel : Nat) (x : Layer × S) (w : W) :
    Account x.1 (Telnet.fillUntil io done fuel x w).2.1.1 [] (batches io done fuel x w) := by
  induction fuel generalizing x w with
  | zero =>
    rw [Telnet.fillUntil]
    split <;> exact .refl _
  | succ fuel ih =>
    rw [Telnet.fillUntil, batches]
    split
    · exact .refl _
    · have hfill := fill io x w
      cases hf : Telnet.fill io x w with
      | mk r rest =>
        rw [hf] at hfill
        cases r with
        | ok => exact hfill.trans (ih rest.1 rest.2)
        | error | waiting | stalled =>
          rw [List.append_nil]
          exact hfill

theorem read (io : Wire S W) (x : Layer × S) (w : W) (n : Nat) :
    Account x.1 ((layerWire io).read n x w).2.1.1 ((layerWire io).read n x w).1.gained
      (batches io (fun l => !l.decoded.isEmpty) (io.backlog x.2 w + 1) x w) := by
  have hfill := fillUntil io (fun l => !l.decoded.isEmpty) (io.backlog x.2 w + 1) x w
  simp only [layerWire]
  cases hf : Telnet.fillUntil io (fun l => !l.decoded.isEmpty) (io.backlog x.2 w + 1) x w with
  | mk r rest =>
    rw [hf] at hfill
    cases r with
    | ok =>
      have hgive := hfill.trans (give rest.1.1 n)
      rw [List.append_nil] at hgive
      exact hgive
    | error | waiting | stalled => exact hfill

theorem control (io : Wire S W) (request : ControlRequest) (l : Layer) (s : S) (w : W) :
    Account l ((layerWire io).control request (l, s) w).2.1.1 [] [] := by
  rw [layerWire_control]
  split
  · exact .refl l
  · split
    · exact .refl l
    · split <;> exact .refl l

end Account

/-- A layer over a wire, with the bytes that it has handed out and the batches that it has taken in
so far. -/
structure Session (S W : Type) where
  layer : Layer
  below : S
  world : W
  handed : List UInt8 := []
  batches : List Batch := []

namespace Session

/-- What is done with a layer, or to the world around it. -/
inductive Move (W : Type)
  | settle
  | read (n : Nat)
  | write (data : List UInt8)
  | control (request : ControlRequest)
  | meanwhile (change : W → W)

def consumed (x : Session S W) : List UInt8 := x.batches.flatMap Batch.bytes

def obeyed (x : Session S W) : List Command := x.batches.flatMap Batch.obeyed

def lost (x : Session S W) : List Command := x.batches.flatMap Batch.lost

def after (x : Session S W) (gave : List UInt8) (bs : List Batch) (y : (Layer × S) × W) :
    Session S W :=
  ⟨y.1.1, y.1.2, y.2, x.handed ++ gave, x.batches ++ bs⟩

/-- An operation that waits has been given up when the next move comes. -/
def act (io : Wire S W) (x : Session S W) : Move W → Session S W
  | .settle =>
    let fuel := io.backlog x.below x.world + 1
    x.after [] (Telnet.batches io Layer.isSettled fuel (x.layer, x.below) x.world)
      (Telnet.settle io (x.layer, x.below) x.world).2
  | .read n =>
    let fuel := io.backlog x.below x.world + 1
    let r := (layerWire io).read n (x.layer, x.below) x.world
    x.after r.1.gained
      (Telnet.batches io (fun l => !l.decoded.isEmpty) fuel (x.layer, x.below) x.world) r.2
  | .write data => x.after [] [] ((layerWire io).write data (x.layer, x.below) x.world).2
  | .control request => x.after [] [] ((layerWire io).control request (x.layer, x.below) x.world).2
  | .meanwhile change => { x with world := change x.world }

def run (io : Wire S W) (x : Session S W) (schedule : List (Move W)) : Session S W :=
  schedule.foldl (act io) x

/-- Every break that has been taken in is counted. Every negotiation that has been taken in has been
given to the negotiator, and its reply, if it has one, has at least been begun. -/
structure Complete (l : Layer) (x : Session S W) : Prop where
  breaks : x.layer.breaks = l.breaks + breaksIn (l.parser.feed x.consumed).2
  words : x.obeyed.filterMap Word.ofCommand? =
    (commandsOf (l.parser.feed x.consumed).2).filterMap Word.ofCommand?

/-- The session tells all that its layer has done since it was `l`. -/
def Accounts (l : Layer) (x : Session S W) : Prop := Account l x.layer x.handed x.batches

variable {l : Layer} {x : Session S W}

theorem Accounts.after (h : x.Accounts l) {gave : List UInt8} {bs : List Batch}
    {y : (Layer × S) × W} (hy : Account x.layer y.1.1 gave bs) : (x.after gave bs y).Accounts l :=
  h.trans hy

theorem Accounts.act (h : x.Accounts l) (io : Wire S W) (m : Move W) :
    (x.act io m).Accounts l := by
  cases m with
  | settle => exact h.after (.fillUntil io _ _ (x.layer, x.below) x.world)
  | read n => exact h.after (.read io (x.layer, x.below) x.world n)
  | write data => exact h.after (.refl _)
  | control request => exact h.after (.control io request x.layer x.below x.world)
  | meanwhile change => exact h

theorem Accounts.run (h : x.Accounts l) (io : Wire S W) (schedule : List (Move W)) :
    (x.run io schedule).Accounts l := by
  induction schedule generalizing x with
  | nil => exact h
  | cons m schedule ih => exact ih (h.act io m)

theorem Accounts.commands_perm (h : x.Accounts l) :
    (commandsOf (l.parser.feed x.consumed).2).Perm (x.obeyed ++ x.lost) := by
  rw [consumed, h.commands]
  exact (List.flatMap_append_perm x.batches Batch.obeyed Batch.lost).symm

theorem Accounts.words (h : x.Accounts l) (hlost : ∀ c ∈ x.lost, Word.ofCommand? c = none) :
    x.obeyed.filterMap Word.ofCommand? =
      (commandsOf (l.parser.feed x.consumed).2).filterMap Word.ofCommand? := by
  rw [consumed, h.commands, obeyed, List.filterMap_flatMap, List.filterMap_flatMap]
  apply List.flatMap_congr
  intro b hb
  have hnone : b.lost.filterMap Word.ofCommand? = [] := by
    rw [List.filterMap_eq_nil_iff]
    exact fun c hc => hlost c (List.mem_flatMap.2 ⟨b, hb, hc⟩)
  rw [Batch.commands, List.filterMap_append, hnone, List.append_nil]

/-- Nothing is missed if and only if nobody would miss what was lost. -/
theorem Accounts.complete_iff (h : x.Accounts l) :
    x.Complete l ↔ ∀ c ∈ x.lost, c.isIdle := by
  have hbreaks : breaksIn (l.parser.feed x.consumed).2 =
      x.obeyed.count .breakSignal + x.lost.count .breakSignal := by
    rw [breaksIn, h.commands_perm.count_eq, List.count_append]
  constructor
  · intro hcomplete c hc
    have hcount : x.lost.count .breakSignal = 0 := by
      have hsame := hcomplete.breaks
      rw [h.breaks, hbreaks, obeyed] at hsame
      omega
    -- The words heard are already as many as there were, so none is left for the lost commands.
    have hwords : x.lost.filterMap Word.ofCommand? = [] := by
      have hlength := (h.commands_perm.filterMap Word.ofCommand?).length_eq
      rw [← hcomplete.words, List.filterMap_append, List.length_append] at hlength
      exact List.length_eq_zero_iff.1 (by omega)
    rw [Command.isIdle_iff]
    constructor
    · rintro rfl
      exact List.count_eq_zero.1 hcount hc
    · exact List.filterMap_eq_nil_iff.1 hwords c hc
  · intro hidle
    constructor
    · have hcount : x.lost.count .breakSignal = 0 := by
        rw [List.count_eq_zero]
        exact fun hmem => (Command.isIdle_iff.1 (hidle _ hmem)).1 rfl
      rw [hbreaks, hcount, Nat.add_zero]
      exact h.breaks
    · exact h.words fun c hc => (Command.isIdle_iff.1 (hidle c hc)).2

theorem act_read (io : Wire S W) (h : x.layer.decoded ≠ []) (n : Nat) :
    x.act io (.read n) = { x with
      layer := { x.layer with decoded := x.layer.decoded.drop n }
      handed := x.handed ++ x.layer.decoded.take n } := by
  have hdone : (!x.layer.decoded.isEmpty) = true := by simpa using h
  simp only [act, layerWire, fillUntil, Telnet.batches, hdone, ↓reduceIte, after, Outcome.gained,
    List.append_nil]

/-- Whatever is done with a layer, and whichever replies fail or are given up: its data is that of
all the bytes it has taken in, part of it handed out and the rest handed out next. It counts every
break and hears every negotiation if and only if only idle commands have been lost. -/
theorem commands_survive_iff (io : Wire S W) (l : Layer) (s : S) (w : W)
    (schedule : List (Move W)) :
    let x : Session S W := run io ⟨l, s, w, [], []⟩ schedule
    x.Accounts l ∧
      (x.layer.decoded ≠ [] → ∀ n, x.act io (.read n) = { x with
        layer := { x.layer with decoded := x.layer.decoded.drop n }
        handed := x.handed ++ x.layer.decoded.take n }) ∧
      (x.Complete l ↔ ∀ c ∈ x.lost, c.isIdle) := by
  have haccounts : (⟨l, s, w, [], []⟩ : Session S W).Accounts l := .refl l
  have hrun := haccounts.run io schedule
  exact ⟨hrun, act_read io, hrun.complete_iff⟩

end Session

open Scripted (Replay Stage)

/-- A peer that answers the offers of a layer and then sends a request and a break in one piece.
The replay fails once the offers have been written. -/
def unanswerable : Replay where
  device := { writeFail := some (12, .io "gone") }
  reads := [.data [255, 251, 0, 255, 253, 0, 255, 251, 3, 255, 253, 3],
    .data [255, 253, 5, 255, 243, 97]]
  urgent := none
  hold := false

/-- A layer that has made its offers to that peer. -/
def offered : Session Replay Stage :=
  let (_, (l, s), w) := begin Replay.wire {} unanswerable {}
  { layer := l, below := s, world := w }

/-- The break behind the request is not counted: the reply to the request fails. -/
theorem break_lost :
    ¬(offered.run Replay.wire [.settle, .read 4, .read 4]).Complete offered.layer := by
  intro h
  have hbreaks := h.breaks
  revert hbreaks
  decide +kernel

end Wirebench.Telnet

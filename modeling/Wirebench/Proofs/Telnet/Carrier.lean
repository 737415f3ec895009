import Wirebench.Endpoint
import Wirebench.Proofs.Telnet.Stream
import Wirebench.Scripted.Pipe

namespace Wirebench

def Outcome.gained : Outcome (List UInt8) → List UInt8
  | ok bytes => bytes
  | error _ | waiting | stalled => []

namespace Telnet

open Scripted (Side)

variable {S T W : Type}

/-- A pair of lines in a world, one to each side. -/
structure Lines (W : Type) where
  /-- The bytes on the way to a side. -/
  coming : Side → W → List UInt8
  /-- Both sides are there and can be written to. -/
  intact : W → Prop

/-- A side has taken some bytes off its line and put some on the other one. -/
structure Lines.Moved (lines : Lines W) (side : Side) (took put : List UInt8) (w w' : W) :
    Prop where
  intact : lines.intact w'
  took : lines.coming side w = took ++ lines.coming side w'
  put : lines.coming side.other w' = lines.coming side.other w ++ put

theorem Lines.Moved.refl {lines : Lines W} {w : W} (side : Side) (hw : lines.intact w) :
    lines.Moved side [] [] w w :=
  ⟨hw, rfl, (List.append_nil _).symm⟩

theorem Lines.Moved.trans {lines : Lines W} {side : Side} {a b c d : List UInt8} {w₁ w₂ w₃ : W}
    (h : lines.Moved side a b w₁ w₂) (h' : lines.Moved side c d w₂ w₃) :
    lines.Moved side (a ++ c) (b ++ d) w₁ w₃ where
  intact := h'.intact
  took := by rw [h.took, h'.took, List.append_assoc]
  put := by rw [h'.put, h.put, List.append_assoc]

/-- Transports over lines that lose, add and reorder nothing. A read may give any part of what is
on its way, or none of it yet; a write takes at least one byte. -/
structure Lossless (lines : Lines W) (side : T → Side) (io : Wire T W) : Prop where
  read : ∀ {n t w r t' w'}, lines.intact w → io.read n t w = (r, t', w') →
    side t' = side t ∧ lines.Moved (side t) r.gained [] w w'
  write : ∀ {data t w}, lines.intact w → data ≠ [] → ∃ k t' w',
    io.write data t w = (.ok (k + 1), t', w') ∧ side t' = side t ∧
      lines.Moved (side t) [] (data.take (k + 1)) w w'
  control : ∀ {request t w r t' w'}, lines.intact w → io.control request t w = (r, t', w') →
    side t' = side t ∧ lines.Moved (side t) [] [] w w'

/-- A layer has taken in `consumed` and handed out `handed`. -/
structure Layer.Reads (l : Layer) (consumed handed : List UInt8) : Prop where
  parser : l.parser = (Parser.data.feed consumed).1
  decoded : dataOf (Parser.data.feed consumed).2 = handed ++ l.decoded
  breaks : l.breaks = breaksIn (Parser.data.feed consumed).2

/-- Layers, outermost first, have taken in `taken` and handed out `handed`: what one of them has
taken in is what the next one below has handed out. -/
def Follows : List Layer → List UInt8 → List UInt8 → Prop
  | [], taken, handed => handed = taken
  | l :: ls, taken, handed => ∃ consumed, Follows ls taken consumed ∧ l.Reads consumed handed

/-- Layers go on by taking in `took` and handing out `gave`. -/
def Passes (ls ls' : List Layer) (took gave : List UInt8) : Prop :=
  ∀ taken handed, Follows ls taken handed → Follows ls' (taken ++ took) (handed ++ gave)

/-- What layers will have handed out when some more bytes have come. -/
def ahead : List Layer → List UInt8 → List UInt8
  | [], bytes => bytes
  | l :: ls, bytes => l.decoded ++ dataOf (l.parser.feed (ahead ls bytes)).2

theorem Layer.Reads.new (config : EndpointConfig) : (Layer.new config).Reads [] [] :=
  ⟨rfl, rfl, rfl⟩

theorem Layer.Reads.give {l : Layer} {consumed handed : List UInt8} (h : l.Reads consumed handed)
    (n : Nat) :
    ({ l with decoded := l.decoded.drop n } : Layer).Reads consumed
      (handed ++ l.decoded.take n) where
  parser := h.parser
  decoded := by rw [h.decoded, List.append_assoc, List.take_append_drop]
  breaks := h.breaks

/-- What is still to come is what the layers make of the whole stream, without what they have
handed out. -/
theorem Follows.decode {ls : List Layer} {taken handed : List UInt8} (h : Follows ls taken handed)
    (bytes : List UInt8) :
    Telnet.decode ls.length (taken ++ bytes) = handed ++ ahead ls bytes := by
  induction ls generalizing handed with
  | nil =>
    have he : handed = taken := h
    rw [he]
    rfl
  | cons l ls ih =>
    obtain ⟨consumed, hc, hl⟩ := h
    rw [List.length_cons, Telnet.decode, ih hc, Parser.feed_append, dataOf_append, hl.decoded,
      ← hl.parser, List.append_assoc]
    rfl

theorem Passes.refl (ls : List Layer) : Passes ls ls [] [] := by
  intro taken handed h
  simpa only [List.append_nil] using h

theorem Passes.trans {ls₁ ls₂ ls₃ : List Layer} {a b c d : List UInt8} (h : Passes ls₁ ls₂ a b)
    (h' : Passes ls₂ ls₃ c d) : Passes ls₁ ls₃ (a ++ c) (b ++ d) := by
  intro taken handed hf
  simpa only [List.append_assoc] using h' _ _ (h _ _ hf)

theorem Passes.cons {l l' : Layer} {ls ls' : List Layer} {took given gave : List UInt8}
    (h : Passes ls ls' took given)
    (hl : ∀ consumed handed, l.Reads consumed handed →
      l'.Reads (consumed ++ given) (handed ++ gave)) :
    Passes (l :: ls) (l' :: ls') took gave := by
  intro taken handed hf
  obtain ⟨consumed, hc, hr⟩ := hf
  exact ⟨consumed ++ given, h _ _ hc, hl _ _ hr⟩

def Layer.obey (l : Layer) (cs : List Command) : Layer := cs.foldl (fun l c => (l.apply c).1) l

@[simp] theorem Layer.apply_parser (l : Layer) (c : Command) : (l.apply c).1.parser = l.parser := by
  cases c <;> rfl

@[simp] theorem Layer.apply_decoded (l : Layer) (c : Command) :
    (l.apply c).1.decoded = l.decoded := by
  cases c <;> rfl

theorem Layer.apply_breaks (l : Layer) (c : Command) :
    (l.apply c).1.breaks = l.breaks + [c].count .breakSignal := by
  cases c <;> rfl

theorem Layer.obey_parser (l : Layer) (cs : List Command) : (l.obey cs).parser = l.parser := by
  induction cs generalizing l with
  | nil => rfl
  | cons c cs ih => exact (ih _).trans (l.apply_parser c)

theorem Layer.obey_decoded (l : Layer) (cs : List Command) : (l.obey cs).decoded = l.decoded := by
  induction cs generalizing l with
  | nil => rfl
  | cons c cs ih => exact (ih _).trans (l.apply_decoded c)

theorem Layer.obey_breaks (l : Layer) (cs : List Command) :
    (l.obey cs).breaks = l.breaks + cs.count .breakSignal := by
  induction cs generalizing l with
  | nil => rfl
  | cons c cs ih =>
    have h := ih (l.apply c).1
    rw [l.apply_breaks c, Nat.add_assoc, ← List.count_append] at h
    exact h

theorem Layer.Reads.take {l : Layer} {consumed handed : List UInt8} (h : l.Reads consumed handed)
    (bytes : List UInt8) :
    ((l.absorb bytes).1.obey (l.absorb bytes).2).Reads (consumed ++ bytes) handed where
  parser := by
    rw [Layer.obey_parser, Parser.feed_append, ← h.parser]
    rfl
  decoded := by
    rw [Layer.obey_decoded, Parser.feed_append, dataOf_append, h.decoded, ← h.parser,
      List.append_assoc]
    rfl
  breaks := by
    rw [Layer.obey_breaks, Parser.feed_append, breaksIn_append, ← h.parser, ← h.breaks]
    rfl

theorem Negotiator.handle_reply {n : Negotiator} {v : Verb} {o : UInt8} {reply : List UInt8}
    (h : (n.handle v o).2 = some reply) : ∃ v', reply = negotiation v' o := by
  unfold Negotiator.handle at h
  cases hf : n.find? o with
  | none =>
    rw [hf] at h
    cases v <;> simp only [Option.some.injEq, reduceCtorEq] at h
    · exact ⟨_, h.symm⟩
    · exact ⟨_, h.symm⟩
  | some p =>
    rw [hf] at h
    cases v <;> simp only [Option.ite_none_right_eq_some, Option.some.injEq] at h <;>
      exact ⟨_, h.2.symm⟩

theorem Layer.apply_reply {l : Layer} {c : Command} {reply : List UInt8}
    (h : (l.apply c).2 = some reply) : ∃ v o, reply = negotiation v o := by
  cases c with
  | negotiate v o =>
    obtain ⟨v', hv⟩ := Negotiator.handle_reply h
    exact ⟨v', o, hv⟩
  | breakSignal => cases h
  | subnegotiation => cases h
  | other => cases h

/-- A wire with `n` layers over a lossless pipe. The view of a state is its side with its layers,
outermost first, as long as all of it is open. -/
structure Carrier (lines : Lines W) (n : Nat) (view : S → Option (Side × List Layer))
    (io : Wire S W) : Prop where
  writeAll : ∀ {s side ls w}, view s = some (side, ls) → lines.intact w → ∀ data, ∃ s' w',
    io.writeAll data s w = (.ok (), s', w') ∧ view s' = some (side, ls) ∧
      lines.Moved side [] (wrap n data) w w'
  read : ∀ {s side ls w k r s' w'}, view s = some (side, ls) → lines.intact w →
    io.read k s w = (r, s', w') → ∃ ls' took put, view s' = some (side, ls') ∧
      lines.Moved side took put w w' ∧ Says n put [] ∧ Passes ls ls' took r.gained
  control : ∀ {s side ls w request r s' w'}, view s = some (side, ls) → lines.intact w →
    io.control request s w = (r, s', w') → ∃ put, view s' = some (side, ls) ∧
      lines.Moved side [] put w w' ∧ Says n put []

def transportView (side : T → Side) (h : Handle T) : Option (Side × List Layer) :=
  if h.isOpen then some (side h.inner, []) else none

def layerView (view : S → Option (Side × List Layer)) (h : Handle (Layer × S)) :
    Option (Side × List Layer) :=
  if h.isOpen then (view h.inner.2).map fun v => (v.1, h.inner.1 :: v.2) else none

theorem transportView_eq_some {side : T → Side} {h : Handle T} {p : Side} {ls : List Layer}
    (hv : transportView side h = some (p, ls)) : ∃ t, h = ⟨true, t⟩ ∧ side t = p ∧ ls = [] := by
  obtain ⟨isOpen, t⟩ := h
  cases isOpen with
  | false => cases hv
  | true =>
    cases hv
    exact ⟨t, rfl, rfl, rfl⟩

theorem transportView_open {side : T → Side} {t : T} {p : Side} (hs : side t = p) :
    transportView side ⟨true, t⟩ = some (p, []) := by
  rw [← hs]
  rfl

theorem layerView_eq_some {view : S → Option (Side × List Layer)} {h : Handle (Layer × S)}
    {p : Side} {ls : List Layer} (hv : layerView view h = some (p, ls)) :
    ∃ l s ls', h = ⟨true, l, s⟩ ∧ view s = some (p, ls') ∧ ls = l :: ls' := by
  obtain ⟨isOpen, l, s⟩ := h
  cases isOpen with
  | false => cases hv
  | true =>
    simp only [layerView, ↓reduceIte, Option.map_eq_some_iff, Prod.mk.injEq] at hv
    obtain ⟨⟨q, ls'⟩, hs, rfl, rfl⟩ := hv
    exact ⟨l, s, ls', rfl, hs, rfl⟩

theorem layerView_open {view : S → Option (Side × List Layer)} {l : Layer} {s : S} {p : Side}
    {ls : List Layer} (hv : view s = some (p, ls)) :
    layerView view ⟨true, l, s⟩ = some (p, l :: ls) := by
  simp only [layerView, ↓reduceIte, hv, Option.map_some]

theorem guarded_writeAll {lines : Lines W} {side : T → Side} {io : Wire T W}
    (hio : Lossless lines side io) (data : List UInt8) {t : T} {w : W} (hw : lines.intact w) :
    ∃ t' w', io.guarded.writeAll data ⟨true, t⟩ w = (.ok (), ⟨true, t'⟩, w') ∧ side t' = side t ∧
      lines.Moved (side t) [] data w w' := by
  induction hlen : data.length using Nat.strongRecOn generalizing data t w with
  | _ len ih =>
    subst hlen
    cases data with
    | nil =>
      rw [Wire.writeAll]
      exact ⟨t, w, rfl, rfl, .refl _ hw⟩
    | cons b bs =>
      obtain ⟨k, t', w', hwrite, hside, hmoved⟩ := hio.write hw (List.cons_ne_nil b bs) (t := t)
      have hlt : (bs.drop k).length < (b :: bs).length := by
        simp only [List.length_drop, List.length_cons]
        omega
      obtain ⟨t'', w'', hrest, hside', hmoved'⟩ := ih _ hlt (bs.drop k) (t := t') hmoved.intact rfl
      have hall : io.guarded.writeAll (b :: bs) ⟨true, t⟩ w = (.ok (), ⟨true, t''⟩, w'') := by
        rw [Wire.writeAll]
        simp only [Wire.guarded, Wire.whenOpen, ↓reduceIte, hwrite]
        exact hrest
      rw [hside] at hmoved'
      have hm := hmoved.trans hmoved'
      rw [List.take_succ_cons, List.cons_append, List.take_append_drop, List.nil_append] at hm
      exact ⟨t'', w'', hall, hside'.trans hside, hm⟩

theorem passes_nil (bytes : List UInt8) : Passes [] [] bytes bytes := by
  intro taken handed hf
  have he : handed = taken := hf
  rw [he]
  rfl

theorem Lossless.carrier {lines : Lines W} {side : T → Side} {io : Wire T W}
    (hio : Lossless lines side io) : Carrier lines 0 (transportView side) io.guarded where
  writeAll := by
    intro h p ls w hv hw data
    obtain ⟨t, rfl, rfl, rfl⟩ := transportView_eq_some hv
    obtain ⟨t', w', hwrite, hside, hmoved⟩ := guarded_writeAll hio data (t := t) hw
    exact ⟨_, w', hwrite, transportView_open hside, hmoved⟩
  read := by
    intro h p ls w k r h' w' hv hw hr
    obtain ⟨t, rfl, rfl, rfl⟩ := transportView_eq_some hv
    cases hc : io.read k t w with
    | mk r₀ rest =>
      obtain ⟨t', w₁⟩ := rest
      obtain ⟨hside, hmoved⟩ := hio.read hw hc
      simp only [Wire.guarded, Wire.whenOpen, ↓reduceIte, hc, Prod.mk.injEq] at hr
      obtain ⟨rfl, rfl, rfl⟩ := hr
      exact ⟨[], _, [], transportView_open hside, hmoved, .nil 0, passes_nil _⟩
  control := by
    intro h p ls w request r h' w' hv hw hr
    obtain ⟨t, rfl, rfl, rfl⟩ := transportView_eq_some hv
    cases hc : io.control request t w with
    | mk r₀ rest =>
      obtain ⟨t', w₁⟩ := rest
      obtain ⟨hside, hmoved⟩ := hio.control hw hc
      simp only [Wire.guarded, Wire.whenOpen, ↓reduceIte, hc, Prod.mk.injEq] at hr
      obtain ⟨rfl, rfl, rfl⟩ := hr
      exact ⟨[], transportView_open hside, hmoved, .nil 0⟩

end Telnet

end Wirebench

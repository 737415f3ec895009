import Wirebench.Proofs.Telnet.Carrier

namespace Wirebench

/-- The layer that takes the request sends a break. -/
def ControlRequest.isBreak (r : ControlRequest) : Bool :=
  r.option = .sendBreak ∧ r.depth.targetsHere

namespace Telnet

open Scripted (Side)

variable {S T W : Type} {lines : Lines W} {n : Nat} {view : S → Option (Side × List Layer)}
  {io : Wire S W}

/-- A layer and the wire below it get from one state to another. On the way `gave` is handed out,
and the layer sends nothing but negotiations. -/
def Turn (lines : Lines W) (n : Nat) (view : S → Option (Side × List Layer)) (gave : List UInt8)
    (x y : (Layer × S) × W) : Prop :=
  ∀ side ls, view x.1.2 = some (side, ls) → lines.intact x.2 → ∃ ls' took put ms,
    view y.1.2 = some (side, ls') ∧ lines.Moved side took put x.2 y.2 ∧ Says n put ms ∧
      Negotiations ms ∧ Passes (x.1.1 :: ls) (y.1.1 :: ls') took gave

theorem Turn.trans {x y z : (Layer × S) × W} {a b : List UInt8} (h : Turn lines n view a x y)
    (h' : Turn lines n view b y z) : Turn lines n view (a ++ b) x z := by
  intro side ls hv hw
  obtain ⟨ls', took, put, ms, hv', hm, hs, hn, hp⟩ := h side ls hv hw
  obtain ⟨ls'', took', put', ms', hv'', hm', hs', hn', hp'⟩ := h' side ls' hv' hm.intact
  exact ⟨ls'', _, _, _, hv'', hm.trans hm', hs.append hs', hn.append hn', hp.trans hp'⟩

theorem Turn.refl (x : (Layer × S) × W) : Turn lines n view [] x x := by
  intro side ls hv hw
  exact ⟨ls, [], [], [], hv, .refl side hw, .nil n, .nil, .refl _⟩

/-- The answers of a layer that carries out some commands. -/
def Layer.answers (l : Layer) : List Command → List UInt8
  | [] => []
  | c :: cs => (l.apply c).2.getD [] ++ (l.apply c).1.answers cs

theorem Layer.answers_negotiations (l : Layer) (cs : List Command) :
    ∃ ms, l.answers cs = encode ms ∧ Negotiations ms := by
  induction cs generalizing l with
  | nil => exact ⟨[], rfl, .nil⟩
  | cons c cs ih =>
    obtain ⟨ms, hms, hn⟩ := ih (l.apply c).1
    rw [Layer.answers, hms]
    cases hreply : (l.apply c).2 with
    | none => exact ⟨ms, rfl, hn⟩
    | some reply =>
      obtain ⟨v, o, rfl⟩ := Layer.apply_reply hreply
      exact ⟨.negotiation v o :: ms, rfl, (Negotiations.single v o).append hn⟩

theorem Carrier.applyAll (hio : Carrier lines n view io) {side : Side} {ls : List Layer}
    (cs : List Command) {l : Layer} {s : S} {w : W} (hv : view s = some (side, ls))
    (hw : lines.intact w) : ∃ s' w',
      Telnet.applyAll io cs (l, s) w = (.ok (), (l.obey cs, s'), w') ∧
        view s' = some (side, ls) ∧ lines.Moved side [] (wrap n (l.answers cs)) w w' := by
  induction cs generalizing l s w with
  | nil =>
    rw [Layer.answers, wrap_nil]
    exact ⟨s, w, rfl, hv, .refl side hw⟩
  | cons c cs ih =>
    have hobey : l.obey (c :: cs) = (l.apply c).1.obey cs := by
      rw [Layer.obey, List.foldl_cons]
      rfl
    rw [hobey, Layer.answers, wrap_append]
    cases hc : l.apply c with
    | mk l' reply =>
      cases reply with
      | none =>
        obtain ⟨s', w', happly, hv', hm⟩ := ih hv hw (l := l')
        rw [Option.getD_none, wrap_nil]
        exact ⟨s', w', by simpa only [Telnet.applyAll, hc] using happly, hv', hm⟩
      | some reply =>
        obtain ⟨s₁, w₁, hwrite, hv₁, hm₁⟩ := hio.writeAll hv hw reply
        obtain ⟨s', w', happly, hv', hm'⟩ := ih hv₁ hm₁.intact (l := l')
        exact ⟨s', w', by simpa only [Telnet.applyAll, hc, hwrite] using happly, hv',
          hm₁.trans hm'⟩

theorem Carrier.turn_of_read (hio : Carrier lines n view io) {k : Nat} {s s' : S} {w w' : W}
    {r : Outcome (List UInt8)} (h : io.read k s w = (r, s', w')) (hr : r.gained = []) (l : Layer) :
    Turn lines n view [] ((l, s), w) ((l, s'), w') := by
  intro side ls hv hw
  obtain ⟨ls', took, put, hv', hm, hs, hp⟩ := hio.read hv hw h
  rw [hr] at hp
  have hpasses : Passes (l :: ls) (l :: ls') took [] := by
    apply hp.cons
    intro consumed handed hl
    simpa only [List.append_nil] using hl
  exact ⟨ls', took, put, [], hv', hm, hs, .nil, hpasses⟩

theorem Carrier.fill (hio : Carrier lines n view io) {x y : Layer × S} {w w' : W}
    {r : Outcome Unit} (h : Telnet.fill io x w = (r, y, w')) :
    Turn lines n view [] (x, w) (y, w') := by
  obtain ⟨l, s⟩ := x
  cases hr : io.read l.bufferSize s w with
  | mk r₀ rest =>
    obtain ⟨s₁, w₁⟩ := rest
    cases r₀ with
    | ok bytes =>
      intro side ls hv hw
      obtain ⟨ls₁, took, put, hv₁, hm₁, hs₁, hp₁⟩ := hio.read hv hw hr
      obtain ⟨s₂, w₂, happly, hv₂, hm₂⟩ :=
        hio.applyAll (l.absorb bytes).2 hv₁ hm₁.intact (l := (l.absorb bytes).1)
      obtain ⟨ms, hms, hn⟩ := (l.absorb bytes).1.answers_negotiations (l.absorb bytes).2
      rw [hms] at hm₂
      simp only [Telnet.fill, hr, happly, Prod.mk.injEq] at h
      obtain ⟨-, rfl, rfl⟩ := h
      have hm := hm₁.trans hm₂
      rw [List.append_nil] at hm
      have hpasses :
          Passes (l :: ls) ((l.absorb bytes).1.obey (l.absorb bytes).2 :: ls₁) took [] := by
        apply hp₁.cons
        intro consumed handed hl
        rw [List.append_nil]
        exact hl.take bytes
      exact ⟨ls₁, took, _, _, hv₂, hm, hs₁.append (.wrap n ms), hn, hpasses⟩
    | error e =>
      simp only [Telnet.fill, hr, Prod.mk.injEq] at h
      obtain ⟨-, rfl, rfl⟩ := h
      exact hio.turn_of_read hr rfl l
    | waiting =>
      simp only [Telnet.fill, hr, Prod.mk.injEq] at h
      obtain ⟨-, rfl, rfl⟩ := h
      exact hio.turn_of_read hr rfl l
    | stalled =>
      simp only [Telnet.fill, hr, Prod.mk.injEq] at h
      obtain ⟨-, rfl, rfl⟩ := h
      exact hio.turn_of_read hr rfl l

/-- What holds for every reading on and is passed on holds for reading on until something has been
reached. -/
theorem fillUntil_of_fill {R : (Layer × S) × W → (Layer × S) × W → Prop} (hrefl : ∀ x, R x x)
    (htrans : ∀ {x y z}, R x y → R y z → R x z)
    (hfill : ∀ {x y : Layer × S} {w w' : W} {r : Outcome Unit},
      Telnet.fill io x w = (r, y, w') → R (x, w) (y, w'))
    {done : Layer → Bool} {fuel : Nat} {x y : Layer × S} {w w' : W} {r : Outcome Unit}
    (h : Telnet.fillUntil io done fuel x w = (r, y, w')) : R (x, w) (y, w') := by
  induction fuel generalizing x w with
  | zero =>
    rw [Telnet.fillUntil] at h
    split at h <;> cases h <;> exact hrefl _
  | succ fuel ih =>
    rw [Telnet.fillUntil] at h
    split at h
    · cases h
      exact hrefl _
    · cases hf : Telnet.fill io x w with
      | mk r₀ rest =>
        obtain ⟨x₁, w₁⟩ := rest
        have h₁ := hfill hf
        rw [hf] at h
        cases r₀ with
        | ok => exact htrans h₁ (ih h)
        | error => cases h; exact h₁
        | waiting => cases h; exact h₁
        | stalled => cases h; exact h₁

theorem done_of_fillUntil {done : Layer → Bool} {fuel : Nat} {x y : Layer × S}
    {w w' : W} (h : Telnet.fillUntil io done fuel x w = (.ok (), y, w')) : done y.1 = true := by
  induction fuel generalizing x w with
  | zero =>
    rw [Telnet.fillUntil] at h
    split at h
    · next hdone =>
      cases h
      exact hdone
    · cases h
  | succ fuel ih =>
    rw [Telnet.fillUntil] at h
    split at h
    · next hdone =>
      cases h
      exact hdone
    · cases hf : Telnet.fill io x w with
      | mk r₀ rest =>
        rw [hf] at h
        cases r₀ with
        | ok => exact ih h
        | error => cases h
        | waiting => cases h
        | stalled => cases h

theorem Carrier.fillUntil (hio : Carrier lines n view io) {done : Layer → Bool} {fuel : Nat}
    {x y : Layer × S} {w w' : W} {r : Outcome Unit}
    (h : Telnet.fillUntil io done fuel x w = (r, y, w')) :
    Turn lines n view [] (x, w) (y, w') :=
  fillUntil_of_fill .refl Turn.trans hio.fill h

theorem Carrier.layer_read (hio : Carrier lines n view io) {k : Nat} {x y : Layer × S} {w w' : W}
    {r : Outcome (List UInt8)} (h : (layerWire io).read k x w = (r, y, w')) :
    Turn lines n view r.gained (x, w) (y, w') := by
  simp only [layerWire] at h
  cases hf : Telnet.fillUntil io (fun l => !l.decoded.isEmpty) (io.backlog x.2 w + 1) x w with
  | mk r₀ rest =>
    obtain ⟨⟨l, s⟩, w₁⟩ := rest
    have h₁ := hio.fillUntil hf
    rw [hf] at h
    cases r₀ with
    | ok =>
      obtain ⟨rfl, rfl, rfl⟩ : _ ∧ _ ∧ _ := by simpa only [Prod.mk.injEq] using h
      apply h₁.trans
      intro side ls hv hw
      have hpasses : Passes (l :: ls) ({ l with decoded := l.decoded.drop k } :: ls) []
          (l.decoded.take k) := by
        apply (Passes.refl ls).cons
        intro consumed handed hl
        rw [List.append_nil]
        exact hl.give k
      exact ⟨ls, [], [], [], hv, .refl side hw, .nil n, .nil, hpasses⟩
    | error => cases h; exact h₁
    | waiting => cases h; exact h₁
    | stalled => cases h; exact h₁

theorem Carrier.layer_write (hio : Carrier lines n view io) {side : Side} {ls : List Layer}
    {s : S} {w : W} (hv : view s = some (side, ls)) (hw : lines.intact w) (l : Layer)
    (data : List UInt8) : ∃ s' w',
      (layerWire io).write data (l, s) w = (.ok data.length, (l, s'), w') ∧
        view s' = some (side, ls) ∧ lines.Moved side [] (wrap n (escape data)) w w' := by
  obtain ⟨s', w', hwrite, hv', hm⟩ := hio.writeAll hv hw (escape data)
  have hlayer : (layerWire io).write data (l, s) w = (.ok data.length, (l, s'), w') := by
    simp only [layerWire, hwrite, Outcome.map]
  exact ⟨s', w', hlayer, hv', hm⟩

theorem layerWire_control (io : Wire S W) (request : ControlRequest) (l : Layer) (s : S) (w : W) :
    (layerWire io).control request (l, s) w =
      if request.option = .sendBreak ∧ request.depth.targetsHere then
        let r := io.writeAll breakBytes s w
        (r.1.map fun _ => "", (l, r.2.1), r.2.2)
      else if request.option = .breaksReceived ∧ request.depth.targetsHere ∧ request.get then
        (.ok (String.ofList (Text.decimal l.breaks)), (l, s), w)
      else
        match request.descend with
        | none => (.error request.option.unsupported, (l, s), w)
        | some lower =>
          let r := io.control lower s w
          (r.1, (l, r.2.1), r.2.2) := rfl

/-- A request sends a break in the place of the layer that it names, or nothing. -/
theorem Carrier.layer_control (hio : Carrier lines n view io) {side : Side} {ls : List Layer}
    {request : ControlRequest} {l : Layer} {s : S} {w w' : W} {y : Layer × S} {r : Outcome String}
    (hv : view s = some (side, ls)) (hw : lines.intact w)
    (h : (layerWire io).control request (l, s) w = (r, y, w')) : ∃ put,
      y.1 = l ∧ view y.2 = some (side, ls) ∧ lines.Moved side [] put w w' ∧
        Says n put (if request.isBreak then [.breakSignal] else []) ∧
          (request.isBreak = true → r = .ok "") := by
  rw [layerWire_control] at h
  rw [ControlRequest.isBreak]
  split at h
  · next hb =>
    obtain ⟨s', w₁, hwrite, hv', hm⟩ := hio.writeAll hv hw breakBytes
    rw [hwrite] at h
    cases h
    rw [if_pos (decide_eq_true hb)]
    exact ⟨_, rfl, hv', hm, .single n .breakSignal, fun _ => rfl⟩
  · next hb =>
    have hne : decide (request.option = .sendBreak ∧ request.depth.targetsHere) = false :=
      decide_eq_false hb
    simp only [hne, Bool.false_eq_true, ↓reduceIte, false_implies, and_true]
    split at h
    · cases h
      exact ⟨[], rfl, hv, .refl side hw, .nil n⟩
    · cases hd : request.descend with
      | none =>
        rw [hd] at h
        cases h
        exact ⟨[], rfl, hv, .refl side hw, .nil n⟩
      | some lower =>
        rw [hd] at h
        cases hc : io.control lower s w with
        | mk r₀ rest =>
          obtain ⟨s', w₁⟩ := rest
          obtain ⟨put, hv', hm, hs⟩ := hio.control hv hw hc
          simp only [hc, Prod.mk.injEq] at h
          obtain ⟨-, rfl, rfl⟩ := h
          exact ⟨put, rfl, hv', hm, hs⟩

theorem Carrier.layer (hio : Carrier lines n view io) :
    Carrier lines (n + 1) (layerView view) (layerWire io).guarded where
  writeAll := by
    intro h side ls w hv hw data
    obtain ⟨l, s, ls, rfl, hs, rfl⟩ := layerView_eq_some hv
    cases data with
    | nil =>
      rw [wrap_nil, Wire.writeAll]
      exact ⟨_, w, rfl, layerView_open hs, .refl side hw⟩
    | cons b bs =>
      obtain ⟨s', w', hwrite, hv', hm⟩ := hio.layer_write hs hw l (b :: bs)
      have hall : (layerWire io).guarded.writeAll (b :: bs) ⟨true, l, s⟩ w =
          (.ok (), ⟨true, l, s'⟩, w') := by
        rw [Wire.writeAll]
        simp only [Wire.guarded, Wire.whenOpen, ↓reduceIte, hwrite, List.length_cons,
          List.drop_length]
        rw [Wire.writeAll]
      exact ⟨_, w', hall, layerView_open hv', hm⟩
  read := by
    intro h side ls w k r h' w' hv hw hr
    obtain ⟨l, s, ls, rfl, hs, rfl⟩ := layerView_eq_some hv
    simp only [Wire.guarded, Wire.whenOpen, ↓reduceIte, Prod.mk.injEq] at hr
    obtain ⟨rfl, rfl, rfl⟩ := hr
    obtain ⟨ls', took, put, ms, hs', hm, hsay, hn, hp⟩ :=
      hio.layer_read (k := k) (x := (l, s)) rfl side ls hs hw
    exact ⟨_, took, put, layerView_open hs', hm,
      hsay.above (hn.payload) (Nat.lt_succ_self n), hp⟩
  control := by
    intro h side ls w request r h' w' hv hw hr
    obtain ⟨l, s, ls, rfl, hs, rfl⟩ := layerView_eq_some hv
    cases hc : (layerWire io).control request (l, s) w with
    | mk r₀ rest =>
      obtain ⟨⟨l', s'⟩, w₁⟩ := rest
      obtain ⟨put, rfl, hs', hm, hsay, -⟩ := hio.layer_control hs hw hc
      simp only [Wire.guarded, Wire.whenOpen, ↓reduceIte, hc, Prod.mk.injEq] at hr
      obtain ⟨-, rfl, rfl⟩ := hr
      have hpayload : payload (if request.isBreak then [.breakSignal] else []) = [] := by
        split <;> rfl
      exact ⟨put, layerView_open hs', hm, hsay.above hpayload (Nat.lt_succ_self n)⟩

def stackView (side : T → Side) : (n : Nat) → StackState T n → Option (Side × List Layer)
  | 0 => transportView side
  | n + 1 => layerView (stackView side n)

theorem Lossless.stack {side : T → Side} {io : Wire T W} (hio : Lossless lines side io) (n : Nat) :
    Carrier lines n (stackView side n) (stackWire io n) := by
  induction n with
  | zero => exact hio.carrier
  | succ n ih => exact ih.layer

end Telnet

end Wirebench

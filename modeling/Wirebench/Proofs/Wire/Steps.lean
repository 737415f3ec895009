import Wirebench.Endpoint
import Wirebench.Proofs.Telnet.Stack
import Wirebench.Proofs.Telnet.Words

namespace Wirebench

variable {S W α : Type}

/-- Reading and writing once are steps, and so is what is made of steps. -/
structure Wire.Steps (io : Wire S W) (R : S × W → S × W → Prop) : Prop where
  refl : ∀ x, R x x
  trans : ∀ {x y z}, R x y → R y z → R x z
  read : ∀ n s w, R (s, w) (io.read n s w).2
  write : ∀ data s w, R (s, w) (io.write data s w).2

/-- A handle is as open as before, over a step of what is under it. -/
def Handle.Step (R : S × W → S × W → Prop) (x y : Handle S × W) : Prop :=
  y.1.isOpen = x.1.isOpen ∧ R (x.1.inner, x.2) (y.1.inner, y.2)

/-- A layer that was settled still is, over a step of what is below it. -/
def Telnet.Layer.Step (R : S × W → S × W → Prop) (x y : (Telnet.Layer × S) × W) : Prop :=
  (x.1.1.isSettled → y.1.1.isSettled) ∧ R (x.1.2, x.2) (y.1.2, y.2)

theorem Telnet.Layer.isSettled_apply {l : Telnet.Layer} (hl : l.isSettled) (c : Telnet.Command) :
    (l.apply c).1.isSettled := by
  cases c with
  | negotiate verb option => exact Telnet.Negotiator.isSettled_handle hl verb option
  | breakSignal => exact hl
  | subnegotiation => exact hl
  | other => exact hl

namespace Wire.Steps

variable {io : Wire S W} {R : S × W → S × W → Prop}

theorem writeAll (h : io.Steps R) (data : List UInt8) (s : S) (w : W) :
    R (s, w) (io.writeAll data s w).2 := by
  induction hlen : data.length using Nat.strongRecOn generalizing data s w with
  | _ len ih =>
    subst hlen
    cases data with
    | nil =>
      rw [Wire.writeAll]
      exact h.refl _
    | cons b bs =>
      have hwrite := h.write (b :: bs) s w
      rw [Wire.writeAll]
      cases hr : io.write (b :: bs) s w with
      | mk r rest =>
        obtain ⟨s', w'⟩ := rest
        rw [hr] at hwrite
        cases r with
        | ok n =>
          cases n with
          | zero => exact hwrite
          | succ n =>
            have hlt : (bs.drop n).length < (b :: bs).length := by
              simp only [List.length_drop, List.length_cons]
              omega
            exact h.trans hwrite (ih _ hlt (bs.drop n) s' w' rfl)
        | error => exact hwrite
        | waiting => exact hwrite
        | stalled => exact hwrite

theorem readMore (h : io.Steps R) (fuel want : Nat) (got : List UInt8) (s : S) (w : W) :
    R (s, w) (io.readMore fuel want got s w).2.2 := by
  induction fuel generalizing want got s w with
  | zero =>
    rw [Wire.readMore]
    split <;> exact h.refl _
  | succ fuel ih =>
    rw [Wire.readMore]
    split
    · exact h.refl _
    · have hread := h.read want s w
      cases hr : io.read want s w with
      | mk r rest =>
        obtain ⟨s', w'⟩ := rest
        rw [hr] at hread
        cases r with
        | ok bytes => exact h.trans hread (ih _ _ s' w')
        | error => exact hread
        | waiting => exact hread
        | stalled => exact hread

theorem whenOpen {op : S → W → Outcome α × S × W} (hrefl : ∀ x, R x x)
    (hop : ∀ s w, R (s, w) (op s w).2) (h : Handle S) (w : W) :
    Handle.Step R (h, w) (Wire.whenOpen op h w).2 := by
  obtain ⟨isOpen, s⟩ := h
  cases isOpen with
  | false => exact ⟨rfl, hrefl _⟩
  | true => exact ⟨rfl, hop s w⟩

theorem guarded (h : io.Steps R) : io.guarded.Steps (Handle.Step R) where
  refl _ := ⟨rfl, h.refl _⟩
  trans hxy hyz := ⟨hyz.1.trans hxy.1, h.trans hxy.2 hyz.2⟩
  read n := whenOpen h.refl (h.read n)
  write data := whenOpen h.refl (h.write data)

theorem layer_refl (h : io.Steps R) (x : (Telnet.Layer × S) × W) : Telnet.Layer.Step R x x :=
  ⟨id, h.refl _⟩

theorem layer_trans (h : io.Steps R) {x y z : (Telnet.Layer × S) × W}
    (hxy : Telnet.Layer.Step R x y) (hyz : Telnet.Layer.Step R y z) : Telnet.Layer.Step R x z :=
  ⟨hyz.1 ∘ hxy.1, h.trans hxy.2 hyz.2⟩

theorem applyAll (h : io.Steps R) (cs : List Telnet.Command) (l : Telnet.Layer) (s : S) (w : W) :
    Telnet.Layer.Step R ((l, s), w) (Telnet.applyAll io cs (l, s) w).2 := by
  induction cs generalizing l s w with
  | nil => exact h.layer_refl _
  | cons c cs ih =>
    have hsettled (hl : l.isSettled) : (l.apply c).1.isSettled := Telnet.Layer.isSettled_apply hl c
    rw [Telnet.applyAll]
    cases hc : l.apply c with
    | mk l' reply =>
      rw [hc] at hsettled
      cases reply with
      | none =>
        have hstep : Telnet.Layer.Step R ((l, s), w) ((l', s), w) := ⟨hsettled, h.refl _⟩
        exact h.layer_trans hstep (ih l' s w)
      | some reply =>
        have hwrite := h.writeAll reply s w
        simp only
        cases hr : io.writeAll reply s w with
        | mk r rest =>
          obtain ⟨s', w'⟩ := rest
          rw [hr] at hwrite
          have hstep : Telnet.Layer.Step R ((l, s), w) ((l', s'), w') := ⟨hsettled, hwrite⟩
          cases r with
          | ok => exact h.layer_trans hstep (ih l' s' w')
          | error => exact hstep
          | waiting => exact hstep
          | stalled => exact hstep

theorem fill (h : io.Steps R) {x y : Telnet.Layer × S} {w w' : W} {r : Outcome Unit}
    (hf : Telnet.fill io x w = (r, y, w')) : Telnet.Layer.Step R (x, w) (y, w') := by
  obtain ⟨l, s⟩ := x
  have hread := h.read l.bufferSize s w
  cases hr : io.read l.bufferSize s w with
  | mk r₀ rest =>
    obtain ⟨s₁, w₁⟩ := rest
    rw [hr] at hread
    have hstep (l' : Telnet.Layer) (hl : l.isSettled → l'.isSettled) :
        Telnet.Layer.Step R ((l, s), w) ((l', s₁), w₁) := ⟨hl, hread⟩
    simp only [Telnet.fill, hr] at hf
    cases r₀ with
    | ok bytes =>
      have hcommands := h.applyAll (l.absorb bytes).2 (l.absorb bytes).1 s₁ w₁
      have happly : Telnet.applyAll io _ ((l.absorb bytes).1, s₁) w₁ = (r, y, w') := hf
      rw [happly] at hcommands
      exact h.layer_trans (hstep _ id) hcommands
    | error e => cases hf; exact hstep l id
    | waiting => cases hf; exact hstep l id
    | stalled => cases hf; exact hstep l id

theorem fillUntil (h : io.Steps R) (done : Telnet.Layer → Bool) (fuel : Nat)
    (x : Telnet.Layer × S) (w : W) :
    Telnet.Layer.Step R (x, w) (Telnet.fillUntil io done fuel x w).2 :=
  Telnet.fillUntil_of_fill h.layer_refl h.layer_trans h.fill rfl

theorem layer (h : io.Steps R) : (Telnet.layerWire io).Steps (Telnet.Layer.Step R) where
  refl := h.layer_refl
  trans := h.layer_trans
  read := by
    intro n x w
    have hfill := h.fillUntil (fun l => !l.decoded.isEmpty) (io.backlog x.2 w + 1) x w
    simp only [Telnet.layerWire]
    cases hr : Telnet.fillUntil io (fun l => !l.decoded.isEmpty) (io.backlog x.2 w + 1) x w with
    | mk r rest =>
      obtain ⟨⟨l, s⟩, w'⟩ := rest
      rw [hr] at hfill
      cases r <;> exact hfill
  write data x w := ⟨id, h.writeAll (Telnet.escape data) x.2 w⟩

end Wire.Steps

end Wirebench

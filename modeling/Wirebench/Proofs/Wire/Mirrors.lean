import Wirebench.Endpoint
import Wirebench.Proofs.Telnet.Stack

namespace Wirebench

variable {S S' T T' W W' α X Y : Type}

/-- Two operations come to the same answer, and leave behind what is related. -/
def Agree (ρ : X → Y → Prop) (r : α × X) (r' : α × Y) : Prop := r.1 = r'.1 ∧ ρ r.2 r'.2

structure Wire.Alike (io : Wire S W) (io' : Wire S' W') (ρ : S × W → S' × W' → Prop) : Prop where
  read : ∀ {s w s' w'} n, ρ (s, w) (s', w') → Agree ρ (io.read n s w) (io'.read n s' w')
  write : ∀ {s w s' w'} data, ρ (s, w) (s', w') → Agree ρ (io.write data s w) (io'.write data s' w')
  backlog : ∀ {s w s' w'}, ρ (s, w) (s', w') → io.backlog s w = io'.backlog s' w'

structure Wire.AlikeInUse (io : Wire S W) (io' : Wire S' W') (ρ : S × W → S' × W' → Prop) : Prop
    extends io.Alike io' ρ where
  writeUrgent : ∀ {s w s' w'} data, ρ (s, w) (s', w') →
    Agree ρ (io.writeUrgent data s w) (io'.writeUrgent data s' w')
  readUrgent : ∀ {s w s' w'} n, ρ (s, w) (s', w') →
    Agree ρ (io.readUrgent n s w) (io'.readUrgent n s' w')
  control : ∀ {s w s' w'} request, ρ (s, w) (s', w') →
    Agree ρ (io.control request s w) (io'.control request s' w')

structure Wire.Mirrors (io : Wire S W) (io' : Wire S' W') (ρ : S × W → S' × W' → Prop) : Prop
    extends io.AlikeInUse io' ρ where
  close : ∀ {s w s' w'}, ρ (s, w) (s', w') → Agree ρ (io.close s w) (io'.close s' w')
  discard : ∀ {s w s' w'}, ρ (s, w) (s', w') → ρ (s, io.discard s w) (s', io'.discard s' w')

/-- Handles are open at the same time, over what is related. -/
def Handle.Both (ρ : S × W → S' × W' → Prop) (x : Handle S × W) (y : Handle S' × W') : Prop :=
  x.1.isOpen = y.1.isOpen ∧ ρ (x.1.inner, x.2) (y.1.inner, y.2)

/-- Layers are the same, over what is related. -/
def Telnet.Layer.Both (ρ : S × W → S' × W' → Prop) (x : (Telnet.Layer × S) × W)
    (y : (Telnet.Layer × S') × W') : Prop :=
  x.1.1 = y.1.1 ∧ ρ (x.1.2, x.2) (y.1.2, y.2)

variable {io : Wire S W} {io' : Wire S' W'} {ρ : S × W → S' × W' → Prop} {s : S} {w : W} {s' : S'}
  {w' : W'}

namespace Wire.Alike

theorem writeAll (h : io.Alike io' ρ) (data : List UInt8) (hρ : ρ (s, w) (s', w')) :
    Agree ρ (io.writeAll data s w) (io'.writeAll data s' w') := by
  induction hlen : data.length using Nat.strongRecOn generalizing data s w s' w' with
  | _ len ih =>
    subst hlen
    cases data with
    | nil =>
      rw [Wire.writeAll, Wire.writeAll]
      exact ⟨rfl, hρ⟩
    | cons b bs =>
      rw [Wire.writeAll, Wire.writeAll]
      have hwrite := h.write (b :: bs) hρ
      revert hwrite
      obtain ⟨r, s₁, w₁⟩ := io.write (b :: bs) s w
      obtain ⟨r', s₁', w₁'⟩ := io'.write (b :: bs) s' w'
      rintro ⟨⟨⟩, hρ'⟩
      cases r with
      | ok n =>
        cases n with
        | zero => exact ⟨rfl, hρ'⟩
        | succ n =>
          have hlt : (bs.drop n).length < (b :: bs).length := by
            simp only [List.length_drop, List.length_cons]
            omega
          exact ih _ hlt (bs.drop n) hρ' rfl
      | error e => exact ⟨rfl, hρ'⟩
      | waiting => exact ⟨rfl, hρ'⟩
      | stalled => exact ⟨rfl, hρ'⟩

theorem readMore (h : io.Alike io' ρ) (fuel want : Nat) (got : List UInt8)
    (hρ : ρ (s, w) (s', w')) :
    Agree (fun x y => x.1 = y.1 ∧ ρ x.2 y.2) (io.readMore fuel want got s w)
      (io'.readMore fuel want got s' w') := by
  induction fuel generalizing want got s w s' w' with
  | zero =>
    rw [Wire.readMore, Wire.readMore]
    split <;> exact ⟨rfl, rfl, hρ⟩
  | succ fuel ih =>
    rw [Wire.readMore, Wire.readMore]
    split
    · exact ⟨rfl, rfl, hρ⟩
    · have hread := h.read want hρ
      revert hread
      obtain ⟨r, s₁, w₁⟩ := io.read want s w
      obtain ⟨r', s₁', w₁'⟩ := io'.read want s' w'
      rintro ⟨⟨⟩, hρ'⟩
      cases r with
      | ok bytes => exact ih _ _ hρ'
      | error e => exact ⟨rfl, rfl, hρ'⟩
      | waiting => exact ⟨rfl, rfl, hρ'⟩
      | stalled => exact ⟨rfl, rfl, hρ'⟩

theorem readExact (h : io.Alike io' ρ) (n : Nat) (got : List UInt8) (hρ : ρ (s, w) (s', w')) :
    Agree (fun x y => x.1 = y.1 ∧ ρ x.2 y.2) (io.readExact n got s w)
      (io'.readExact n got s' w') := by
  rw [Wire.readExact, Wire.readExact, h.backlog hρ]
  exact h.readMore _ _ _ hρ

theorem whenOpen {op : S → W → Outcome α × S × W} {op' : S' → W' → Outcome α × S' × W'}
    (hop : ∀ {s w s' w'}, ρ (s, w) (s', w') → Agree ρ (op s w) (op' s' w'))
    {h : Handle S} {h' : Handle S'} (hh : Handle.Both ρ (h, w) (h', w')) :
    Agree (Handle.Both ρ) (whenOpen op h w) (whenOpen op' h' w') := by
  obtain ⟨o, s⟩ := h
  obtain ⟨o', s'⟩ := h'
  obtain ⟨rfl : o = o', hρ⟩ := hh
  cases o with
  | false => exact ⟨rfl, rfl, hρ⟩
  | true =>
    obtain ⟨hr, hρ'⟩ := hop hρ
    exact ⟨hr, rfl, hρ'⟩

theorem guarded (h : io.Alike io' ρ) : io.guarded.Alike io'.guarded (Handle.Both ρ) where
  read n hh := whenOpen (h.read n) hh
  write data hh := whenOpen (h.write data) hh
  backlog hh := h.backlog hh.2

theorem applyAll (h : io.Alike io' ρ) (cs : List Telnet.Command) (l : Telnet.Layer)
    (hρ : ρ (s, w) (s', w')) :
    Agree (Telnet.Layer.Both ρ) (Telnet.applyAll io cs (l, s) w)
      (Telnet.applyAll io' cs (l, s') w') := by
  induction cs generalizing l s w s' w' with
  | nil => exact ⟨rfl, rfl, hρ⟩
  | cons c cs ih =>
    rw [Telnet.applyAll, Telnet.applyAll]
    obtain ⟨l₁, reply⟩ := l.apply c
    cases reply with
    | none => exact ih l₁ hρ
    | some reply =>
      have hwrite := h.writeAll reply hρ
      revert hwrite
      dsimp only
      obtain ⟨r, s₁, w₁⟩ := io.writeAll reply s w
      obtain ⟨r', s₁', w₁'⟩ := io'.writeAll reply s' w'
      rintro ⟨⟨⟩, hρ'⟩
      cases r with
      | ok => exact ih l₁ hρ'
      | error e => exact ⟨rfl, rfl, hρ'⟩
      | waiting => exact ⟨rfl, rfl, hρ'⟩
      | stalled => exact ⟨rfl, rfl, hρ'⟩

theorem fill (h : io.Alike io' ρ) (l : Telnet.Layer) (hρ : ρ (s, w) (s', w')) :
    Agree (Telnet.Layer.Both ρ) (Telnet.fill io (l, s) w) (Telnet.fill io' (l, s') w') := by
  rw [Telnet.fill, Telnet.fill]
  have hread := h.read l.bufferSize hρ
  revert hread
  obtain ⟨r, s₁, w₁⟩ := io.read l.bufferSize s w
  obtain ⟨r', s₁', w₁'⟩ := io'.read l.bufferSize s' w'
  rintro ⟨⟨⟩, hρ'⟩
  cases r with
  | ok bytes => exact h.applyAll (l.absorb bytes).2 (l.absorb bytes).1 hρ'
  | error e => exact ⟨rfl, rfl, hρ'⟩
  | waiting => exact ⟨rfl, rfl, hρ'⟩
  | stalled => exact ⟨rfl, rfl, hρ'⟩

theorem fillUntil (h : io.Alike io' ρ) (done : Telnet.Layer → Bool) (fuel : Nat)
    (l : Telnet.Layer) (hρ : ρ (s, w) (s', w')) :
    Agree (Telnet.Layer.Both ρ) (Telnet.fillUntil io done fuel (l, s) w)
      (Telnet.fillUntil io' done fuel (l, s') w') := by
  induction fuel generalizing l s w s' w' with
  | zero =>
    rw [Telnet.fillUntil, Telnet.fillUntil]
    split <;> exact ⟨rfl, rfl, hρ⟩
  | succ fuel ih =>
    rw [Telnet.fillUntil, Telnet.fillUntil]
    split
    · exact ⟨rfl, rfl, hρ⟩
    · have hfill := h.fill l hρ
      revert hfill
      obtain ⟨r, ⟨l₁, s₁⟩, w₁⟩ := Telnet.fill io (l, s) w
      obtain ⟨r', ⟨l₁', s₁'⟩, w₁'⟩ := Telnet.fill io' (l, s') w'
      rintro ⟨⟨⟩, ⟨⟩, hρ'⟩
      cases r with
      | ok => exact ih l₁ hρ'
      | error e => exact ⟨rfl, rfl, hρ'⟩
      | waiting => exact ⟨rfl, rfl, hρ'⟩
      | stalled => exact ⟨rfl, rfl, hρ'⟩

theorem layer (h : io.Alike io' ρ) :
    (Telnet.layerWire io).Alike (Telnet.layerWire io') (Telnet.Layer.Both ρ) where
  read := by
    rintro ⟨l, s⟩ w ⟨_, s'⟩ w' n ⟨rfl, hρ⟩
    simp only [Telnet.layerWire, h.backlog hρ]
    have hfill := h.fillUntil (fun l => !l.decoded.isEmpty) (io'.backlog s' w' + 1) l hρ
    revert hfill
    obtain ⟨r, ⟨l₁, s₁⟩, w₁⟩ := Telnet.fillUntil io _ _ (l, s) w
    obtain ⟨r', ⟨l₁', s₁'⟩, w₁'⟩ := Telnet.fillUntil io' _ _ (l, s') w'
    rintro ⟨⟨⟩, ⟨⟩, hρ'⟩
    cases r <;> exact ⟨rfl, rfl, hρ'⟩
  write := by
    rintro ⟨l, s⟩ w ⟨_, s'⟩ w' data ⟨rfl, hρ⟩
    obtain ⟨hr, hρ'⟩ := h.writeAll (Telnet.escape data) hρ
    exact ⟨congrArg (Outcome.map _) hr, rfl, hρ'⟩
  backlog := by
    rintro ⟨l, s⟩ w ⟨_, s'⟩ w' ⟨rfl, hρ⟩
    exact congrArg (l.decoded.length + ·) (h.backlog hρ)

/-- A layer sends a break, or it hands the request on, if it does not answer by itself. -/
theorem layer_control (h : io.Alike io' ρ) {request : ControlRequest}
    (hcontrol : ∀ lower, request.descend = some lower →
      Agree ρ (io.control lower s w) (io'.control lower s' w'))
    (l : Telnet.Layer) (hρ : ρ (s, w) (s', w')) :
    Agree (Telnet.Layer.Both ρ) ((Telnet.layerWire io).control request (l, s) w)
      ((Telnet.layerWire io').control request (l, s') w') := by
  rw [Telnet.layerWire_control, Telnet.layerWire_control]
  split
  · obtain ⟨hr, hρ'⟩ := h.writeAll Telnet.breakBytes hρ
    exact ⟨congrArg (Outcome.map _) hr, rfl, hρ'⟩
  · split
    · exact ⟨rfl, rfl, hρ⟩
    · cases hd : request.descend with
      | none => exact ⟨rfl, rfl, hρ⟩
      | some lower =>
        obtain ⟨hr, hρ'⟩ := hcontrol lower hd
        exact ⟨hr, rfl, hρ'⟩

end Wire.Alike

namespace Wire.AlikeInUse

theorem guarded (h : io.AlikeInUse io' ρ) :
    io.guarded.AlikeInUse io'.guarded (Handle.Both ρ) where
  toAlike := h.toAlike.guarded
  writeUrgent data hh := Wire.Alike.whenOpen (h.writeUrgent data) hh
  readUrgent n hh := Wire.Alike.whenOpen (h.readUrgent n) hh
  control request hh := Wire.Alike.whenOpen (h.control request) hh

theorem layer (h : io.AlikeInUse io' ρ) :
    (Telnet.layerWire io).AlikeInUse (Telnet.layerWire io') (Telnet.Layer.Both ρ) where
  toAlike := h.toAlike.layer
  writeUrgent _ hl := ⟨rfl, hl⟩
  readUrgent _ hl := ⟨rfl, hl⟩
  control := by
    rintro ⟨l, s⟩ w ⟨_, s'⟩ w' request ⟨rfl, hρ⟩
    exact h.layer_control (fun lower _ => h.control lower hρ) l hρ

end Wire.AlikeInUse

namespace Wire.Mirrors

theorem guarded (h : io.Mirrors io' ρ) : io.guarded.Mirrors io'.guarded (Handle.Both ρ) where
  toAlikeInUse := h.toAlikeInUse.guarded
  close := by
    rintro ⟨o, s⟩ w ⟨_, s'⟩ w' ⟨rfl, hρ⟩
    cases o with
    | false => exact ⟨rfl, rfl, hρ⟩
    | true =>
      obtain ⟨hr, hρ'⟩ := h.close hρ
      exact ⟨hr, rfl, hρ'⟩
  discard hh := ⟨hh.1, h.discard hh.2⟩

theorem layer (h : io.Mirrors io' ρ) :
    (Telnet.layerWire io).Mirrors (Telnet.layerWire io') (Telnet.Layer.Both ρ) where
  toAlikeInUse := h.toAlikeInUse.layer
  close := by
    rintro ⟨l, s⟩ w ⟨_, s'⟩ w' ⟨rfl, hρ⟩
    obtain ⟨hr, hρ'⟩ := h.close hρ
    exact ⟨hr, rfl, hρ'⟩
  discard hl := ⟨hl.1, h.discard hl.2⟩

end Wire.Mirrors

/-- The states are the same and the worlds are related. -/
def SameState (Q : W → W' → Prop) (x : S × W) (y : S × W') : Prop := x.1 = y.1 ∧ Q x.2 y.2

theorem Handle.both_sameState (Q : W → W' → Prop) :
    Handle.Both (SameState (S := S) Q) = SameState Q := by
  funext ⟨⟨o, s⟩, w⟩ ⟨⟨o', s'⟩, w'⟩
  simp only [Handle.Both, SameState, Handle.mk.injEq, and_assoc]

theorem Telnet.Layer.both_sameState (Q : W → W' → Prop) :
    Telnet.Layer.Both (SameState (S := S) Q) = SameState Q := by
  funext ⟨⟨l, s⟩, w⟩ ⟨⟨l', s'⟩, w'⟩
  simp only [Telnet.Layer.Both, SameState, Prod.mk.injEq, and_assoc]

variable {Q : W → W' → Prop} {io : Wire S W} {io' : Wire S W'}

theorem Wire.Alike.guarded_same (h : io.Alike io' (SameState Q)) :
    io.guarded.Alike io'.guarded (SameState Q) :=
  Handle.both_sameState Q ▸ h.guarded

theorem Wire.Alike.layer_same (h : io.Alike io' (SameState Q)) :
    (Telnet.layerWire io).Alike (Telnet.layerWire io') (SameState Q) :=
  Telnet.Layer.both_sameState Q ▸ h.layer

theorem Wire.Mirrors.guarded_same (h : io.Mirrors io' (SameState Q)) :
    io.guarded.Mirrors io'.guarded (SameState Q) :=
  Handle.both_sameState Q ▸ h.guarded

theorem Wire.Mirrors.layer_same (h : io.Mirrors io' (SameState Q)) :
    (Telnet.layerWire io).Mirrors (Telnet.layerWire io') (SameState Q) :=
  Telnet.Layer.both_sameState Q ▸ h.layer

theorem Wire.Mirrors.stack_same {io : Wire T W} {io' : Wire T W'}
    (h : io.Mirrors io' (SameState Q)) (n : Nat) :
    (stackWire io n).Mirrors (stackWire io' n) (SameState Q) := by
  induction n with
  | zero => exact h.guarded_same
  | succ n ih => exact ih.layer_same.guarded_same

end Wirebench

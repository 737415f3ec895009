import Wirebench.Proofs.Telnet.Interruption
import Wirebench.Proofs.Wire.Lifecycle
import Wirebench.Proofs.Wire.Steps

namespace Wirebench

variable {S T W α β : Type}

/-- An operation has kept `I`, and does not repeat itself forever. -/
structure Advances (I : S → W → Prop) (x : Outcome α × S × W) : Prop where
  kept : I x.2.1 x.2.2
  moves : x.1 ≠ .stalled

namespace Outcome

theorem ok_ne_stalled (a : α) : ok a ≠ stalled := by
  intro h
  cases h

theorem error_ne_stalled (e : StreamError) : (error e : Outcome α) ≠ stalled := by
  intro h
  cases h

theorem waiting_ne_stalled : (waiting : Outcome α) ≠ stalled := by
  intro h
  cases h

theorem map_ne_stalled {f : α → β} {r : Outcome α} (h : r ≠ stalled) : r.map f ≠ stalled := by
  cases r with
  | ok a => exact ok_ne_stalled (f a)
  | error e => exact error_ne_stalled e
  | waiting => exact waiting_ne_stalled
  | stalled => exact (h rfl).elim

end Outcome

theorem take_ne_nil {n : Nat} {xs : List α} (hn : 0 < n) (hxs : xs ≠ []) : xs.take n ≠ [] := by
  intro h
  rcases List.take_eq_nil_iff.1 h with hzero | hnil
  · exact Nat.ne_of_gt hn hzero
  · exact hxs hnil

namespace Wire

/-- As long as `I` holds, writing gets on, and a write of something takes something. -/
structure Takes (io : Wire S W) (I : S → W → Prop) : Prop where
  write : ∀ {s w} data, I s w → Advances I (io.write data s w)
  takes : ∀ {s w data}, I s w → data ≠ [] → (io.write data s w).1 ≠ .ok 0

/-- As long as `I` holds, reading gets on as well. A read for something gives something, which is
then no longer there to be read, and nothing more is there to be read after a write. -/
structure GetsOn (io : Wire S W) (I : S → W → Prop) : Prop extends Takes io I where
  quiet : ∀ {s w} data, I s w →
    io.backlog (io.write data s w).2.1 (io.write data s w).2.2 ≤ io.backlog s w
  read : ∀ {s w} n, I s w → Advances I (io.read n s w)
  gives : ∀ {s w n bytes s' w'}, I s w → io.read n s w = (.ok bytes, s', w') →
    (0 < n → bytes ≠ []) ∧ bytes.length + io.backlog s' w' ≤ io.backlog s w

variable {io : Wire S W} {I : S → W → Prop} {s s' : S} {w w' : W}

theorem Takes.writeAll (h : io.Takes I) (data : List UInt8) (hI : I s w) :
    Advances I (io.writeAll data s w) := by
  have hwritten {data : List UInt8} {s s' : S} {w w' : W} {r : Outcome Nat} (hI : I s w)
      (hw : io.write data s w = (r, s', w')) : Advances I (r, s', w') := hw ▸ h.write data hI
  fun_induction Wire.writeAll io data s w with
  | case1 s w => exact ⟨hI, Outcome.ok_ne_stalled _⟩
  | case2 s w b bs s' w' hw =>
    exact (h.takes hI (List.cons_ne_nil b bs) (congrArg Prod.fst hw)).elim
  | case3 s w b bs n s' w' hw ih => exact ih (hwritten hI hw).kept
  | case4 s w b bs e s' w' hw => exact ⟨(hwritten hI hw).kept, Outcome.error_ne_stalled e⟩
  | case5 s w b bs s' w' hw => exact ⟨(hwritten hI hw).kept, Outcome.waiting_ne_stalled⟩
  | case6 s w b bs s' w' hw => exact ((hwritten hI hw).moves rfl).elim

theorem Takes.guarded (h : io.Takes I) : io.guarded.Takes fun x w => I x.inner w where
  write := by
    intro x w data hI
    obtain ⟨o, s⟩ := x
    cases o with
    | false => exact ⟨hI, Outcome.error_ne_stalled _⟩
    | true => exact ⟨(h.write data hI).kept, (h.write data hI).moves⟩
  takes := by
    intro x w data hI hdata
    obtain ⟨o, s⟩ := x
    cases o with
    | false => exact fun hzero => by cases hzero
    | true => exact h.takes hI hdata

theorem Takes.watched (h : io.Takes I) : io.watched.Takes fun s w => I s w.2 where
  write data hI := ⟨(h.write data hI).kept, (h.write data hI).moves⟩
  takes hI hdata := h.takes hI hdata

/-- The same wire, on which a write is for so many bytes at most. -/
def capped (io : Wire S W) (most : Nat) : Wire S W :=
  { io with write := fun data => io.write (data.take most) }

theorem Takes.capped (h : io.Takes I) {most : Nat} (hmost : 0 < most) :
    (io.capped most).Takes I where
  write data hI := h.write (data.take most) hI
  takes hI hdata := h.takes hI (take_ne_nil hmost hdata)

namespace GetsOn

theorem takesWithin (h : io.GetsOn I) (bound : Nat) :
    io.Takes fun s w => I s w ∧ io.backlog s w ≤ bound where
  write data hI :=
    ⟨⟨(h.write data hI.1).kept, Nat.le_trans (h.quiet data hI.1) hI.2⟩, (h.write data hI.1).moves⟩
  takes hI := h.takes hI.1

theorem quiet_writeAll (h : io.GetsOn I) (data : List UInt8) (hI : I s w) :
    io.backlog (io.writeAll data s w).2.1 (io.writeAll data s w).2.2 ≤ io.backlog s w :=
  ((h.takesWithin (io.backlog s w)).writeAll data ⟨hI, Nat.le_refl _⟩).kept.2

theorem guarded (h : io.GetsOn I) : io.guarded.GetsOn fun x w => I x.inner w where
  toTakes := h.toTakes.guarded
  quiet := by
    intro x w data hI
    obtain ⟨o, s⟩ := x
    cases o with
    | false => exact Nat.le_refl _
    | true => exact h.quiet data hI
  read := by
    intro x w n hI
    obtain ⟨o, s⟩ := x
    cases o with
    | false => exact ⟨hI, Outcome.error_ne_stalled _⟩
    | true => exact ⟨(h.read n hI).kept, (h.read n hI).moves⟩
  gives := by
    intro x w n bytes x' w' hI hread
    obtain ⟨o, s⟩ := x
    cases o with
    | false => cases hread
    | true =>
      cases hr : io.read n s w with
      | mk r rest =>
        simp only [Wire.guarded, whenOpen, hr, ↓reduceIte, Prod.mk.injEq] at hread
        obtain ⟨rfl, rfl, rfl⟩ := hread
        exact h.gives hI hr

theorem readMore (h : io.GetsOn I) {fuel want : Nat} {got : List UInt8} (hI : I s w)
    (hfuel : io.backlog s w < fuel) :
    Advances (fun _ x => I x.1 x.2) (io.readMore fuel want got s w) := by
  induction fuel generalizing want got s w with
  | zero => exact (Nat.not_lt_zero _ hfuel).elim
  | succ fuel ih =>
    rw [Wire.readMore]
    split
    · exact ⟨hI, Outcome.ok_ne_stalled _⟩
    · next hwant =>
      have hread := h.read want hI
      cases hr : io.read want s w with
      | mk r rest =>
        rw [hr] at hread
        cases r with
        | ok bytes =>
          obtain ⟨hbytes, hless⟩ := h.gives hI hr
          have hpos := List.length_pos_iff.2 (hbytes (Nat.pos_of_ne_zero hwant))
          exact ih hread.kept (by omega)
        | error => exact ⟨hread.kept, Outcome.error_ne_stalled _⟩
        | waiting => exact ⟨hread.kept, Outcome.waiting_ne_stalled⟩
        | stalled => exact (hread.moves rfl).elim

theorem readExact (h : io.GetsOn I) (n : Nat) (got : List UInt8) (hI : I s w) :
    Advances (fun _ x => I x.1 x.2) (io.readExact n got s w) :=
  h.readMore hI (Nat.lt_succ_self _)

end GetsOn

end Wire

namespace Telnet

variable {io : Wire S W} {I : S → W → Prop} {s : S} {w w' : W} {x y : Layer × S} {m : Nat}

theorem Parser.length_step_le (p : Parser) (b : UInt8) : (dataOf (p.step b).2).length ≤ 1 := by
  cases p with
  | data =>
    rw [step]
    split
    · exact Nat.zero_le 1
    · exact Nat.le_refl 1
  | command =>
    rw [step]
    split
    · exact Nat.le_refl 1
    · split
      · exact Nat.zero_le 1
      · split
        · exact Nat.zero_le 1
        · split <;> exact Nat.zero_le 1
  | verb v => exact Nat.zero_le 1
  | sub payload =>
    rw [step]
    split <;> exact Nat.zero_le 1
  | subCommand payload =>
    rw [step]
    split <;> exact Nat.zero_le 1

/-- A byte of the stream makes at most one byte of data. -/
theorem Parser.length_feed_le (p : Parser) (bs : List UInt8) :
    (dataOf (p.feed bs).2).length ≤ bs.length := by
  induction bs generalizing p with
  | nil => exact Nat.le_refl 0
  | cons b bs ih =>
    have hstep := p.length_step_le b
    have hrest := ih (p.step b).1
    rw [Parser.feed_cons, dataOf_append, List.length_append, List.length_cons]
    omega

@[simp] theorem Layer.apply_bufferSize (l : Layer) (c : Command) :
    (l.apply c).1.bufferSize = l.bufferSize := by
  cases c <;> rfl

theorem Layer.obey_bufferSize (l : Layer) (cs : List Command) :
    (l.obey cs).bufferSize = l.bufferSize := by
  induction cs generalizing l with
  | nil => rfl
  | cons c cs ih => exact (ih _).trans (l.apply_bufferSize c)

/-- The layer asks for so many bytes at a time, over a wire of which `I` holds. -/
def Layer.On (m : Nat) (I : S → W → Prop) (x : Layer × S) (w : W) : Prop :=
  x.1.bufferSize = m ∧ I x.2 w

theorem advances_sendAll (h : io.Takes I) (replies : List (List UInt8)) (hI : I s w) :
    Advances I (sendAll io replies s w) := by
  induction replies generalizing s w with
  | nil => exact ⟨hI, Outcome.ok_ne_stalled _⟩
  | cons reply replies ih =>
    have hreply := h.writeAll reply hI
    rw [sendAll]
    cases hr : io.writeAll reply s w with
    | mk r rest =>
      rw [hr] at hreply
      cases r with
      | ok => exact ih hreply.kept
      | error => exact hreply
      | waiting => exact hreply
      | stalled => exact hreply

theorem advances_applyAll (h : io.Takes I) (cs : List Command) (l : Layer) (hI : I s w) :
    Advances (fun x w => x.1.bufferSize = l.bufferSize ∧ x.1.decoded = l.decoded ∧ I x.2 w)
      (applyAll io cs (l, s) w) := by
  rw [applyAll_eq]
  have hsend := advances_sendAll h (l.replies (obeyed io cs (l, s) w)) hI
  exact ⟨⟨l.obey_bufferSize _, l.obey_decoded _, hsend.kept⟩, hsend.moves⟩

/-- Reading on gets on. After it there is less to be read below, and no more on the whole. -/
theorem advances_fill (h : io.GetsOn I) (hm : 0 < m) (hx : Layer.On m I x w) :
    Advances (Layer.On m I) (fill io x w) ∧
      ∀ y w', fill io x w = (.ok (), y, w') → io.backlog y.2 w' < io.backlog x.2 w ∧
        (layerWire io).backlog y w' ≤ (layerWire io).backlog x w := by
  obtain ⟨l, s⟩ := x
  obtain ⟨rfl, hI⟩ : l.bufferSize = m ∧ I s w := hx
  have hread := h.read l.bufferSize hI
  rw [fill]
  cases hr : io.read l.bufferSize s w with
  | mk r rest =>
    obtain ⟨s₁, w₁⟩ := rest
    rw [hr] at hread
    cases r with
    | error => exact ⟨⟨⟨rfl, hread.kept⟩, Outcome.error_ne_stalled _⟩, fun y w' hy => by cases hy⟩
    | waiting => exact ⟨⟨⟨rfl, hread.kept⟩, Outcome.waiting_ne_stalled⟩, fun y w' hy => by cases hy⟩
    | stalled => exact (hread.moves rfl).elim
    | ok bytes =>
      obtain ⟨hbytes, hless⟩ := h.gives hI hr
      have hpos := List.length_pos_iff.2 (hbytes hm)
      have hdata := l.parser.length_feed_le bytes
      -- The replies are writes, so after them there is no more to be read below than before.
      have happly := advances_applyAll (h.takesWithin (io.backlog s₁ w₁)) (l.absorb bytes).2
        (l.absorb bytes).1 ⟨hread.kept, Nat.le_refl _⟩
      refine ⟨⟨⟨happly.kept.1, happly.kept.2.2.1⟩, happly.moves⟩, fun y w' hy => ?_⟩
      have hy : applyAll io (l.absorb bytes).2 ((l.absorb bytes).1, s₁) w₁ = (.ok (), y, w') := hy
      have hkept := happly.kept
      simp only [hy] at hkept
      obtain ⟨-, hdecoded, -, hbacklog⟩ := hkept
      have hdecoded : y.1.decoded = l.decoded ++ dataOf (l.parser.feed bytes).2 := hdecoded
      simp only [layerWire, hdecoded, List.length_append]
      omega

theorem advances_fillUntil (h : io.GetsOn I) (hm : 0 < m) (done : Layer → Bool) {fuel : Nat}
    (hx : Layer.On m I x w) (hfuel : io.backlog x.2 w < fuel) :
    Advances (Layer.On m I) (fillUntil io done fuel x w) ∧
      ∀ y w', fillUntil io done fuel x w = (.ok (), y, w') →
        (layerWire io).backlog y w' ≤ (layerWire io).backlog x w := by
  induction fuel generalizing x w with
  | zero => exact (Nat.not_lt_zero _ hfuel).elim
  | succ fuel ih =>
    rw [fillUntil]
    split
    · refine ⟨⟨hx, Outcome.ok_ne_stalled _⟩, fun y w' hy => ?_⟩
      cases hy
      exact Nat.le_refl _
    · obtain ⟨hfill, hok⟩ := advances_fill h hm hx
      cases hf : fill io x w with
      | mk r rest =>
        obtain ⟨x₁, w₁⟩ := rest
        rw [hf] at hfill
        cases r with
        | ok =>
          obtain ⟨hbelow, hwhole⟩ := hok x₁ w₁ hf
          have hfuel₁ : io.backlog x₁.2 w₁ < fuel := by omega
          obtain ⟨hrest, hrestOk⟩ := ih hfill.kept hfuel₁
          exact ⟨hrest, fun y w' hy => Nat.le_trans (hrestOk y w' hy) hwhole⟩
        | error => exact ⟨hfill, fun y w' hy => by cases hy⟩
        | waiting => exact ⟨hfill, fun y w' hy => by cases hy⟩
        | stalled => exact (hfill.moves rfl).elim

theorem advances_settle (h : io.GetsOn I) (hm : 0 < m) (hx : Layer.On m I x w) :
    Advances (Layer.On m I) (settle io x w) :=
  (advances_fillUntil h hm Layer.isSettled hx (Nat.lt_succ_self _)).1

theorem getsOn_layer (h : io.GetsOn I) (hm : 0 < m) : (layerWire io).GetsOn (Layer.On m I) where
  write data hx :=
    have hwrite := h.writeAll (escape data) hx.2
    ⟨⟨hx.1, hwrite.kept⟩, Outcome.map_ne_stalled hwrite.moves⟩
  takes := by
    intro x w data _ hdata
    simp only [layerWire]
    cases (io.writeAll (escape data) x.2 w).1 with
    | ok => exact fun hzero => hdata (List.length_eq_zero_iff.1 (Outcome.ok.inj hzero))
    | error | waiting | stalled => exact fun hzero => by cases hzero
  quiet data hx := Nat.add_le_add_left (h.quiet_writeAll (escape data) hx.2) _
  read := by
    intro x w n hx
    obtain ⟨hfill, -⟩ :=
      advances_fillUntil h hm (fun l => !l.decoded.isEmpty) hx (Nat.lt_succ_self _)
    simp only [layerWire]
    cases hf : fillUntil io (fun l => !l.decoded.isEmpty) (io.backlog x.2 w + 1) x w with
    | mk r rest =>
      rw [hf] at hfill
      cases r with
      | ok => exact ⟨hfill.kept, Outcome.ok_ne_stalled _⟩
      | error => exact ⟨hfill.kept, Outcome.error_ne_stalled _⟩
      | waiting => exact ⟨hfill.kept, Outcome.waiting_ne_stalled⟩
      | stalled => exact (hfill.moves rfl).elim
  gives := by
    intro x w n bytes y w' hx hread
    obtain ⟨-, hwhole⟩ :=
      advances_fillUntil h hm (fun l => !l.decoded.isEmpty) hx (Nat.lt_succ_self _)
    simp only [layerWire] at hread
    cases hf : fillUntil io (fun l => !l.decoded.isEmpty) (io.backlog x.2 w + 1) x w with
    | mk r rest =>
      obtain ⟨⟨l, s⟩, w₁⟩ := rest
      rw [hf] at hread
      cases r with
      | ok =>
        cases hread
        have hdone : l.decoded ≠ [] := by simpa using done_of_fillUntil hf
        constructor
        · exact fun hn => take_ne_nil hn hdone
        · have hless := hwhole (l, s) _ hf
          have hsplit := congrArg List.length (List.take_append_drop n l.decoded)
          simp only [layerWire, List.length_append] at hless hsplit ⊢
          omega
      | error => cases hread
      | waiting => cases hread
      | stalled => cases hread

end Telnet

/-- The layers of a stack ask for so many bytes at a time, over a transport of which `I` holds. -/
def StackState.On (m : Nat) (I : T → W → Prop) : (n : Nat) → StackState T n → W → Prop
  | 0, x, w => I (Handle.inner x) w
  | n + 1, x, w => Telnet.Layer.On m (StackState.On m I n) (Handle.inner x) w

theorem Wire.GetsOn.stack {io : Wire T W} {I : T → W → Prop} (h : io.GetsOn I) {m : Nat}
    (hm : 0 < m) (n : Nat) : (stackWire io n).GetsOn (StackState.On m I n) := by
  induction n with
  | zero => exact h.guarded
  | succ n ih => exact (Telnet.getsOn_layer ih hm).guarded

namespace Telnet

variable {io : Wire S W}

theorem bufferSize_fill {x y : Layer × S} {w w' : W} {r : Outcome Unit}
    (h : fill io x w = (r, y, w')) : y.1.bufferSize = x.1.bufferSize := by
  obtain ⟨l, s⟩ := x
  rw [fill] at h
  cases hr : io.read l.bufferSize s w with
  | mk r₀ rest =>
    obtain ⟨s₁, w₁⟩ := rest
    rw [hr] at h
    cases r₀ with
    | ok bytes =>
      have happly : applyAll io (l.absorb bytes).2 ((l.absorb bytes).1, s₁) w₁ = (r, y, w') := h
      rw [applyAll_eq] at happly
      cases happly
      exact Layer.obey_bufferSize _ _
    | error => cases h; rfl
    | waiting => cases h; rfl
    | stalled => cases h; rfl

theorem bufferSize_fillUntil (io : Wire S W) (done : Layer → Bool) (fuel : Nat) (x : Layer × S)
    (w : W) :
    (fillUntil io done fuel x w).2.1.1.bufferSize = x.1.bufferSize :=
  fillUntil_of_fill (R := fun x y => y.1.1.bufferSize = x.1.1.bufferSize) (fun _ => rfl)
    (fun hxy hyz => hyz.trans hxy) bufferSize_fill rfl

theorem steps_bufferSize (io : Wire S W) :
    (layerWire io).Steps fun x y => y.1.1.bufferSize = x.1.1.bufferSize where
  refl _ := rfl
  trans hxy hyz := hyz.trans hxy
  read := by
    intro n x w
    have hfill := bufferSize_fillUntil io (fun l => !l.decoded.isEmpty) (io.backlog x.2 w + 1) x w
    simp only [layerWire]
    cases hf : fillUntil io (fun l => !l.decoded.isEmpty) (io.backlog x.2 w + 1) x w with
    | mk r rest =>
      rw [hf] at hfill
      cases r <;> exact hfill
  write _ _ _ := rfl

theorem bufferSize_perform (o : Operation) (x : (Layer × S) × W) :
    ((layerWire io).perform o x).2.1.1.bufferSize = x.1.1.bufferSize := by
  obtain ⟨⟨l, s⟩, w⟩ := x
  cases o with
  | read n => exact (steps_bufferSize io).read n (l, s) w
  | readExact n got => exact (steps_bufferSize io).readMore _ _ _ (l, s) w
  | write data => rfl
  | writeAll data => exact (steps_bufferSize io).writeAll data (l, s) w
  | writeUrgent data => rfl
  | readUrgent n => rfl
  | control request =>
    simp only [Wire.perform, layerWire_control, answering]
    split
    · rfl
    · split
      · rfl
      · split <;> rfl
  | close => rfl

/-- The layers that come of settings: those that have made their offers, and what becomes of them in
negotiation and in use, whatever happens to the wire below in between. -/
inductive Layer.Made (io : Wire S W) (config : EndpointConfig) : Layer → Prop
  | begun (s : S) (w : W) : Made io config (begin io config s w).2.1.1
  | settled {l : Layer} (s : S) (w : W) (h : Made io config l) :
      Made io config (settle io (l, s) w).2.1.1
  | used {l : Layer} (o : Operation) (s : S) (w : W) (h : Made io config l) :
      Made io config ((layerWire io).perform o ((l, s), w)).2.1.1

theorem Layer.Made.bufferSize {config : EndpointConfig} {l : Layer} (h : l.Made io config) :
    l.bufferSize = config.readBufferSize.toNat := by
  induction h with
  | begun s w => rfl
  | settled s w _ ih => exact (bufferSize_fillUntil _ _ _ _ w).trans ih
  | used o s w _ ih => exact (bufferSize_perform o _).trans ih

end Telnet

def Call.isWrite : Call → Bool
  | .write .. => true
  | .read .. | .writeUrgent .. | .readUrgent .. | .control .. | .close _ => false

/-- A record has gone on with some writes, so many at most. -/
def AddsWrites (most : Nat) (calls calls' : List Call) : Prop :=
  ∃ more, calls' = calls ++ more ∧ more.length ≤ most ∧ ∀ c ∈ more, c.isWrite

namespace AddsWrites

variable {m n : Nat} {calls calls₁ calls₂ : List Call}

theorem refl (m : Nat) (calls : List Call) : AddsWrites m calls calls :=
  ⟨[], (List.append_nil calls).symm, Nat.zero_le m, List.forall_mem_nil _⟩

theorem trans (h : AddsWrites m calls calls₁) (h' : AddsWrites n calls₁ calls₂) :
    AddsWrites (m + n) calls calls₂ := by
  obtain ⟨more, rfl, hlength, hwrites⟩ := h
  obtain ⟨more', rfl, hlength', hwrites'⟩ := h'
  refine ⟨more ++ more', List.append_assoc .., ?_, List.forall_mem_append.2 ⟨hwrites, hwrites'⟩⟩
  rw [List.length_append]
  exact Nat.add_le_add hlength hlength'

theorem mono (h : AddsWrites m calls calls₁) (hmn : m ≤ n) : AddsWrites n calls calls₁ := by
  obtain ⟨more, hcalls, hlength, hwrites⟩ := h
  exact ⟨more, hcalls, Nat.le_trans hlength hmn, hwrites⟩

end AddsWrites

namespace Wire

/-- A write is written down as one write, or not at all. -/
def NotesWrites (io : Wire S (List Call × W)) : Prop :=
  ∀ data s w, AddsWrites 1 w.1 (io.write data s w).2.2.1

theorem notesWrites_watched (io : Wire S W) : io.watched.NotesWrites :=
  fun _ _ _ => ⟨[_], rfl, Nat.le_refl 1, List.forall_mem_singleton.2 rfl⟩

variable {io : Wire S (List Call × W)}

theorem NotesWrites.capped (h : io.NotesWrites) (most : Nat) : (io.capped most).NotesWrites :=
  fun data => h (data.take most)

theorem NotesWrites.guarded (h : io.NotesWrites) : io.guarded.NotesWrites := by
  intro data x w
  obtain ⟨o, s⟩ := x
  cases o with
  | false => exact .refl 1 w.1
  | true => exact h data s w

theorem NotesWrites.writeAll (h : io.NotesWrites) (data : List UInt8) (s : S)
    (w : List Call × W) : AddsWrites data.length w.1 (io.writeAll data s w).2.2.1 := by
  have hwritten {b : UInt8} {bs : List UInt8} {s s' : S} {w w' : List Call × W} {r : Outcome Nat}
      (hw : io.write (b :: bs) s w = (r, s', w')) : AddsWrites 1 w.1 w'.1 := by
    have hwrite := h (b :: bs) s w
    rwa [hw] at hwrite
  have hone (b : UInt8) (bs : List UInt8) : 1 ≤ (b :: bs).length := Nat.le_add_left 1 _
  fun_induction Wire.writeAll io data s w with
  | case1 s w => exact .refl 0 w.1
  | case2 s w b bs s' w' hw => exact (hwritten hw).mono (hone b bs)
  | case3 s w b bs n s' w' hw ih =>
    apply ((hwritten hw).trans ih).mono
    rw [List.length_drop, List.length_cons]
    omega
  | case4 s w b bs e s' w' hw => exact (hwritten hw).mono (hone b bs)
  | case5 s w b bs s' w' hw => exact (hwritten hw).mono (hone b bs)
  | case6 s w b bs s' w' hw => exact (hwritten hw).mono (hone b bs)

end Wire

namespace Telnet

theorem addsWrites_sendAll {io : Wire S (List Call × W)} (h : io.NotesWrites)
    (replies : List (List UInt8)) (s : S) (w : List Call × W) :
    AddsWrites replies.flatten.length w.1 (sendAll io replies s w).2.2.1 := by
  induction replies generalizing s w with
  | nil => exact .refl 0 w.1
  | cons reply replies ih =>
    have hreply := h.writeAll reply s w
    rw [sendAll, List.flatten_cons, List.length_append]
    cases hr : io.writeAll reply s w with
    | mk r rest =>
      obtain ⟨s', w'⟩ := rest
      rw [hr] at hreply
      cases r with
      | ok => exact hreply.trans (ih s' w')
      | error => exact hreply.mono (Nat.le_add_right _ _)
      | waiting => exact hreply.mono (Nat.le_add_right _ _)
      | stalled => exact hreply.mono (Nat.le_add_right _ _)

theorem addsWrites_applyAll {io : Wire S (List Call × W)} (h : io.NotesWrites) (cs : List Command)
    (l : Layer) (s : S) (w : List Call × W) :
    AddsWrites (l.replies (obeyed io cs (l, s) w)).flatten.length w.1
      (applyAll io cs (l, s) w).2.2.1 := by
  rw [applyAll_eq]
  exact addsWrites_sendAll h _ s w

/-- Reading on is one read for as many bytes as the layer asks for, and then writes only. -/
theorem record_fill (io : Wire S W) (l : Layer) (s : S) (calls : List Call) (w : W) :
    ∃ r more, (fill io.watched (l, s) (calls, w)).2.2.1 = calls ++ .read l.bufferSize r :: more ∧
      ∀ c ∈ more, c.isWrite := by
  rw [fill]
  cases hr : io.read l.bufferSize s w with
  | mk r rest =>
    obtain ⟨s₁, w₁⟩ := rest
    have hread : io.watched.read l.bufferSize s (calls, w) =
        (r, s₁, (calls ++ [.read l.bufferSize r], w₁)) := by
      simp only [Wire.watched, Wire.noted, Wire.beside, Wire.noting, Wire.aside, hr]
    rw [hread]
    cases r with
    | ok bytes =>
      obtain ⟨more, hmore, -, hwrites⟩ := addsWrites_applyAll io.notesWrites_watched
        (l.absorb bytes).2 (l.absorb bytes).1 s₁ (calls ++ [.read l.bufferSize (.ok bytes)], w₁)
      exact ⟨.ok bytes, more, hmore.trans (List.append_assoc ..), hwrites⟩
    | error e => exact ⟨.error e, [], rfl, List.forall_mem_nil _⟩
    | waiting => exact ⟨.waiting, [], rfl, List.forall_mem_nil _⟩
    | stalled => exact ⟨.stalled, [], rfl, List.forall_mem_nil _⟩

end Telnet

theorem Wire.writeAll_stalled {io : Wire S W} {s : S} {w : W} {data : List UInt8}
    (hdata : data ≠ []) (h : (io.write data s w).1 = .ok 0) :
    (io.writeAll data s w).1 = .stalled := by
  obtain ⟨b, bs, rfl⟩ := List.exists_cons_of_ne_nil hdata
  rw [Wire.writeAll]
  revert h
  obtain ⟨r, s', w'⟩ := io.write (b :: bs) s w
  rintro (rfl : r = .ok 0)
  rfl

namespace Telnet

variable {io : Wire S W} {x : Layer × S} {w : W}

theorem fill_nothing (h : io.read x.1.bufferSize x.2 w = (.ok [], x.2, w)) :
    fill io x w = (.ok (), x, w) := by
  obtain ⟨l, s⟩ := x
  simp only [fill, h, Layer.absorb, Parser.feed_nil, dataOf, commandsOf, List.append_nil, applyAll]

theorem fillUntil_stalled (h : io.read x.1.bufferSize x.2 w = (.ok [], x.2, w))
    {done : Layer → Bool} (hdone : done x.1 = false) (fuel : Nat) :
    fillUntil io done fuel x w = (.stalled, x, w) := by
  induction fuel with
  | zero =>
    rw [fillUntil]
    simp only [hdone, Bool.false_eq_true, ↓reduceIte]
  | succ fuel ih =>
    rw [fillUntil, fill_nothing h]
    simp only [hdone, Bool.false_eq_true, ↓reduceIte]
    exact ih

end Telnet

end Wirebench

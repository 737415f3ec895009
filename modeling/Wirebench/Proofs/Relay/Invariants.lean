import Wirebench.Proofs.Relay.Trace

namespace Wirebench.Relay

variable {H S W : Type} {io : Wire S W} {handler : Option (Handler H S W)} {c : UInt8}
variable {p : Progress H S W}

theorem stepByte_plain {escape : UInt8} (hp : p.escape = .normal)
    (hc : c ≠ escape) : stepByte io handler escape c p =
      (.ok none, { p with escape := .normal, pending := p.pending ++ [c] }) := by
  rw [stepByte, hp]
  simp only [if_neg hc]

theorem stepByte_escape (escape : UInt8) (hp : p.escape = .normal) :
    stepByte io handler escape escape p = (.ok none, { p with escape := .escaped }) := by
  rw [stepByte, hp]
  simp only [↓reduceIte]

theorem stepByte_itself (escape : UInt8) (hp : p.escape = .escaped) :
    stepByte io handler escape escape p =
      (.ok none, { p with escape := .normal, pending := p.pending ++ [escape] }) := by
  rw [stepByte, hp]
  simp only [↓reduceIte]

theorem stepByte_gather {escape : UInt8} {sequence : List UInt8}
    (hp : p.escape = .collecting sequence) (hc : isLineEnd c = false) :
    stepByte io handler escape c p =
      (.ok none, { p with escape := .collecting (sequence ++ [c]) }) := by
  rw [stepByte, hp]
  simp only [hc, Bool.false_eq_true, ↓reduceIte]

theorem stepByte_command {escape : UInt8} (hp : p.escape = .escaped) (hc : c ≠ escape) :
    stepByte io handler escape c p =
      afterFlush io (perform io handler c) { p with escape := .normal } := by
  rw [stepByte, hp, ← command_eq]
  simp only [if_neg hc]

theorem stepByte_lineEnd {escape : UInt8} {sequence : List UInt8}
    (hp : p.escape = .collecting sequence) (hc : isLineEnd c = true) :
    stepByte io handler escape c p =
      afterFlush io (handOver handler sequence) { p with escape := .normal } := by
  rw [stepByte, hp, ← endSequence_eq]
  simp only [hc, ↓reduceIte]

/-- All that the escape processing calls keeps something that is known of the handler's state, the
far side and the world. -/
structure Maintains (io : Wire S W) (handler : Option (Handler H S W)) (Q : H → S → W → Prop) :
    Prop where
  write : ∀ {h far w} data, Q h far w → Q h (io.write data far w).2.1 (io.write data far w).2.2
  control : ∀ {h far w}, Q h far w → Q h
    (io.control ⟨.first, false, .sendBreak, none⟩ far w).2.1
    (io.control ⟨.first, false, .sendBreak, none⟩ far w).2.2
  command : ∀ hd ∈ handler, ∀ {h far w} c, Q h far w →
    Q (hd.command c h far w).2.1 (hd.command c h far w).2.2.1 (hd.command c h far w).2.2.2
  sequence : ∀ hd ∈ handler, ∀ {h far w} bytes, Q h far w →
    Q (hd.sequence bytes h far w).2.1 (hd.sequence bytes h far w).2.2.1
      (hd.sequence bytes h far w).2.2.2

namespace Maintains

variable {Q : H → S → W → Prop} (hkeeps : Maintains io handler Q)

include hkeeps

theorem writeAll (data : List UInt8) {h : H} {far : S} {w : W} (hQ : Q h far w) :
    Q h (io.writeAll data far w).2.1 (io.writeAll data far w).2.2 := by
  fun_induction io.writeAll data far w with
  | case1 far w => exact hQ
  | case2 far w b bs far' w' hw | case4 far w b bs e far' w' hw | case5 far w b bs far' w' hw
  | case6 far w b bs far' w' hw =>
    have hwrite := hkeeps.write (b :: bs) hQ
    rwa [hw] at hwrite
  | case3 far w b bs n far' w' hw ih =>
    have hwrite := hkeeps.write (b :: bs) hQ
    rw [hw] at hwrite
    exact ih hwrite

theorem afterFlush {next : Progress H S W → Outcome (Option Exit) × Progress H S W}
    (hnext : ∀ p, Q p.handler p.far p.world →
      Q (next p).2.handler (next p).2.far (next p).2.world)
    (p : Progress H S W) (hQ : Q p.handler p.far p.world) :
    Q (afterFlush io next p).2.handler (afterFlush io next p).2.far
      (afterFlush io next p).2.world := by
  have hflush : Q (flush io p).2.handler (flush io p).2.far (flush io p).2.world :=
    hkeeps.writeAll p.pending hQ
  rw [Relay.afterFlush]
  revert hflush
  obtain ⟨r, p₁⟩ := flush io p
  intro hflush
  cases r with
  | ok => exact hnext p₁ hflush
  | error => exact hflush
  | waiting => exact hflush
  | stalled => exact hflush

theorem perform (c : UInt8) (p : Progress H S W) (hQ : Q p.handler p.far p.world) :
    Q (perform io handler c p).2.handler (perform io handler c p).2.far
      (perform io handler c p).2.world := by
  rw [Relay.perform]
  by_cases hq : c = quitCommand
  · rw [if_pos hq]
    exact hQ
  · rw [if_neg hq]
    by_cases hb : c = breakCommand
    · rw [if_pos hb, sendBreak_eq]
      exact hkeeps.control hQ
    · rw [if_neg hb]
      cases handler with
      | none => exact hQ
      | some hd =>
        have hcommand := hkeeps.command hd rfl c hQ
        rw [dispatch]
        revert hcommand
        obtain ⟨r, h, far, world⟩ := hd.command c p.handler p.far p.world
        intro hcommand
        cases r with
        | ok collects => cases collects <;> exact hcommand
        | error => exact hcommand
        | waiting => exact hcommand
        | stalled => exact hcommand

theorem handOver (sequence : List UInt8) (p : Progress H S W) (hQ : Q p.handler p.far p.world) :
    Q (handOver handler sequence p).2.handler (handOver handler sequence p).2.far
      (handOver handler sequence p).2.world := by
  cases handler with
  | none => exact hQ
  | some hd => exact hkeeps.sequence hd rfl sequence hQ

theorem stepByte (escape c : UInt8) (p : Progress H S W) (hQ : Q p.handler p.far p.world) :
    Q (stepByte io handler escape c p).2.handler (stepByte io handler escape c p).2.far
      (stepByte io handler escape c p).2.world := by
  cases hp : p.escape with
  | normal =>
    by_cases hc : c = escape
    · rw [hc, stepByte_escape escape hp]
      exact hQ
    · rw [stepByte_plain hp hc]
      exact hQ
  | escaped =>
    by_cases hc : c = escape
    · rw [hc, stepByte_itself escape hp]
      exact hQ
    · rw [stepByte_command hp hc]
      exact hkeeps.afterFlush (hkeeps.perform c) _ hQ
  | collecting sequence =>
    cases hc : isLineEnd c with
    | false =>
      rw [stepByte_gather hp hc]
      exact hQ
    | true =>
      rw [stepByte_lineEnd hp hc]
      exact hkeeps.afterFlush (hkeeps.handOver sequence) _ hQ

theorem stepBytes (escape : UInt8) (bytes : List UInt8) (p : Progress H S W)
    (hQ : Q p.handler p.far p.world) :
    Q (stepBytes io handler escape bytes p).2.handler (stepBytes io handler escape bytes p).2.far
      (stepBytes io handler escape bytes p).2.world := by
  induction bytes generalizing p with
  | nil => exact hQ
  | cons c cs ih =>
    have hbyte := hkeeps.stepByte escape c p hQ
    by_cases hy : (Relay.stepByte io handler escape c p).1 = .ok none
    · rw [stepBytes_cons cs hy]
      exact ih _ hbyte
    · rw [stepBytes_cons_of_stop cs hy]
      exact hbyte

theorem forward (escape : Option UInt8) (bytes : List UInt8) (p : Progress H S W)
    (hQ : Q p.handler p.far p.world) :
    Q (forward io handler escape bytes p).2.handler (forward io handler escape bytes p).2.far
      (forward io handler escape bytes p).2.world := by
  cases escape with
  | none => exact hkeeps.writeAll bytes hQ
  | some escape =>
    have hbytes := hkeeps.stepBytes escape bytes { p with pending := [] } hQ
    rw [Relay.forward]
    revert hbytes
    obtain ⟨y, p₁⟩ := Relay.stepBytes io handler escape bytes { p with pending := [] }
    intro hbytes
    cases y with
    | ok stop =>
      cases stop with
      | none => exact hkeeps.writeAll p₁.pending hbytes
      | some => exact hbytes
    | error => exact hbytes
    | waiting => exact hbytes
    | stalled => exact hbytes

end Maintains

end Wirebench.Relay

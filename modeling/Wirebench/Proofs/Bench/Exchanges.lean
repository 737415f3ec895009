import Wirebench.Proofs.Bench.Ledger
import Wirebench.Proofs.Bench.Turns

namespace Wirebench.Bench

variable {S W : Type} {io : Wire S (W × Ledger)} {tag : S → Bool × Nat}

namespace Link

/-- Both ends are as open as before and have the same numbers, and nothing has been written down. -/
structure Still (tag : S → Bool × Nat) (x y : Link S (W × Ledger)) : Prop where
  source : tag y.source = tag x.source
  sink : tag y.sink = tag x.sink
  ledger : y.world.2 = x.world.2

variable {x y z : Link S (W × Ledger)}

theorem Still.refl (x : Link S (W × Ledger)) : Still tag x x := ⟨rfl, rfl, rfl⟩

theorem Still.trans (h : Still tag x y) (h' : Still tag y z) : Still tag x z :=
  ⟨h'.source.trans h.source, h'.sink.trans h.sink, h'.ledger.trans h.ledger⟩

theorem Still.report (e : Event) (x : Link S (W × Ledger)) : Still tag x (x.report e) :=
  ⟨rfl, rfl, rfl⟩

theorem Still.swap (h : Still tag x y) : Still tag x.swap y.swap := ⟨h.sink, h.source, h.ledger⟩

end Link

theorem still_writeOn (h : io.Keeps tag) (todo : List (List UInt8)) (s : S) (w : W × Ledger) :
    Still tag (s, w) (writeOn io todo s w).2.2 := by
  have hwritten {data : List UInt8} {s s' : S} {w w' : W × Ledger} {r : Outcome Nat}
      (hw : io.write data s w = (r, s', w')) : Still tag (s, w) (s', w') := by
    have hwrite := h.write data s w
    rwa [hw] at hwrite
  fun_induction writeOn io todo s w with
  | case1 s w => exact .refl _
  | case2 s w ps ih => exact ih
  | case3 s w b bs ps s' w' hw => exact hwritten hw
  | case4 s w b bs ps n s' w' hw ih => exact (hwritten hw).trans ih
  | case5 s w b bs ps e s' w' hw => exact hwritten hw
  | case6 s w b bs ps s' w' hw => exact hwritten hw
  | case7 s w b bs ps s' w' hw => exact hwritten hw

theorem still_readOn (h : io.Keeps tag) (size fuel received : Nat) (expected : List UInt8) (s : S)
    (w : W × Ledger) : Still tag (s, w) (readOn io size fuel received expected s w).2.2 := by
  induction fuel generalizing received expected s w with
  | zero =>
    rw [readOn]
    split <;> exact .refl _
  | succ fuel ih =>
    rw [readOn]
    split
    · exact .refl _
    · have hread := h.read (readSize size expected.length) s w
      cases hr : io.read (readSize size expected.length) s w with
      | mk r rest =>
        obtain ⟨s', w'⟩ := rest
        rw [hr] at hread
        cases r with
        | ok bytes =>
          simp only
          cases expectBytes (expected.take bytes.length) bytes with
          | ok => exact hread.trans (ih _ _ s' w')
          | error m => exact hread
        | error => exact hread
        | waiting => exact hread
        | stalled => exact hread

theorem still_turns (h : io.Keeps tag) {p : Params} {size received : Nat}
    {todo : List (List UInt8)} {expected : List UInt8} {a b : S} {w : W × Ledger}
    {x : Except BenchError Unit × S × S × W × Ledger}
    (hx : Turns io p size todo received expected a b w x) :
    tag x.2.1 = tag a ∧ tag x.2.2.1 = tag b ∧ x.2.2.2.2 = w.2 := by
  have hwritten {todo todo' : List (List UInt8)} {s s' : S} {w w' : W × Ledger}
      {r : Outcome Unit} (hw : writeOn io todo s w = (r, todo', s', w')) :
      Still tag (s, w) (s', w') := by
    have hwrite := still_writeOn h todo s w
    rwa [hw] at hwrite
  have hreading {fuel received : Nat} {expected : List UInt8} {s s' : S} {w w' : W × Ledger}
      {r : Except BenchError Unit} {rest : Nat × List UInt8}
      (hr : readOn io size fuel received expected s w = (r, rest, s', w')) :
      Still tag (s, w) (s', w') := by
    have hread := still_readOn h size fuel received expected s w
    rwa [hr] at hread
  induction hx with
  | writeFailed hw _ =>
    obtain ⟨hsource, hledger⟩ := hwritten hw
    exact ⟨hsource, rfl, hledger⟩
  | readFailed hw _ hr | done hw _ hr | late hw _ hr =>
    obtain ⟨hsource, hledger⟩ := hwritten hw
    obtain ⟨hsink, hledger'⟩ := hreading hr
    exact ⟨hsource, hsink, hledger'.trans hledger⟩
  | goesOn hw _ hr _ _ _ ih =>
    obtain ⟨hsource, hledger⟩ := hwritten hw
    obtain ⟨hsink, hledger'⟩ := hreading hr
    obtain ⟨hsource', hsink', hledger''⟩ := ih
    exact ⟨hsource'.trans hsource, hsink'.trans hsink, hledger''.trans (hledger'.trans hledger)⟩

theorem still_transfer (h : io.Keeps tag) (p : Params) (data : List UInt8)
    (l : Link S (W × Ledger)) : l.Still tag (transfer io p data l).2 := by
  have hcontrol := h.control packetQuery l.source l.world
  cases hquery : io.control packetQuery l.source l.world with
  | mk answer rest =>
    obtain ⟨source, w⟩ := rest
    rw [hquery] at hcontrol
    rw [transfer_eq p data hquery]
    obtain ⟨hsource, hsink, hledger⟩ :=
      still_turns h (turns_takeTurns io p _ _ 0 data source l.sink w)
    exact ⟨hsource.trans hcontrol.1, hsink, hledger.trans hcontrol.2⟩

theorem still_readUrgent (h : io.Keeps tag) (p : Params) (fuel missing : Nat) (got : List UInt8)
    (s : S) (w : W × Ledger) : Still tag (s, w) (readUrgent io p fuel missing got s w).2 := by
  induction fuel generalizing missing got s w with
  | zero =>
    rw [readUrgent]
    split <;> exact .refl _
  | succ fuel ih =>
    rw [readUrgent]
    split
    · exact .refl _
    · have hread := h.readUrgent missing s w
      cases hr : io.readUrgent missing s w with
      | mk r rest =>
        obtain ⟨s', w'⟩ := rest
        rw [hr] at hread
        cases r with
        | ok bytes => exact hread.trans (ih _ _ s' w')
        | error => exact hread
        | waiting => exact hread
        | stalled => exact hread

theorem still_transferUrgent (h : io.Keeps tag) (p : Params) (data : List UInt8)
    (l : Link S (W × Ledger)) : l.Still tag (transferUrgent io p data l).2 := by
  have hwrite := h.writeUrgent data l.source l.world
  rw [transferUrgent]
  cases hr : io.writeUrgent data l.source l.world with
  | mk r rest =>
    obtain ⟨source, w⟩ := rest
    rw [hr] at hwrite
    cases r with
    | ok =>
      have hread := still_readUrgent h p (io.backlog l.sink w + 1) data.length [] l.sink w
      simp only
      cases hr' : readUrgent io p (io.backlog l.sink w + 1) data.length [] l.sink w with
      | mk r' rest' =>
        obtain ⟨sink, w'⟩ := rest'
        rw [hr'] at hread
        cases r' <;> exact ⟨hwrite.1, hread.1, hread.2.trans hwrite.2⟩
    | error => exact ⟨hwrite.1, rfl, hwrite.2⟩
    | waiting => exact ⟨hwrite.1, rfl, hwrite.2⟩
    | stalled => exact ⟨hwrite.1, rfl, hwrite.2⟩

theorem still_bothWays
    {send : Link S (W × Ledger) → Except BenchError Unit × Link S (W × Ledger)}
    (hsend : ∀ l : Link S (W × Ledger), l.Still tag (send l).2) (l : Link S (W × Ledger)) :
    l.Still tag (bothWays send l).2 := by
  have hfirst := (Link.Still.report .firstToSecond l).trans (hsend _)
  rw [bothWays]
  cases hr : send (l.report .firstToSecond) with
  | mk r l₁ =>
    rw [hr] at hfirst
    cases r with
    | error => exact hfirst
    | ok =>
      have hsecond := (Link.Still.report .secondToFirst l₁).swap.trans (hsend _)
      simp only
      cases hr' : send (l₁.report .secondToFirst).swap with
      | mk r' l₂ =>
        rw [hr'] at hsecond
        have hboth : l.Still tag l₂.swap := hfirst.trans hsecond.swap
        cases r' with
        | error => exact hboth
        | ok => exact hboth.trans (.report _ _)

theorem still_run (h : io.Keeps tag) (p : Params) (l : Link S (W × Ledger)) (e : Exchange) :
    l.Still tag (e.run io p l).2 := by
  cases e with
  | data payload =>
    exact (Link.Still.report _ l).trans (still_bothWays (still_transfer h p payload) _)
  | urgent payload =>
    exact (Link.Still.report _ l).trans (still_bothWays (still_transferUrgent h p payload) _)
  | small => exact still_bothWays (still_transfer h _ smallPayload) l
  | random size =>
    exact (Link.Still.report _ l).trans (still_bothWays (still_transfer h p _) _)
  | fail e => exact .refl l

end Wirebench.Bench

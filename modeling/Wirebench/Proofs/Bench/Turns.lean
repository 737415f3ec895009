import Wirebench.Bench.Exchange

namespace Wirebench.Bench

variable {S W : Type} {io : Wire S W} {p : Params} {size : Nat}

/-- What the turns of a writer and a reader come to: of the writer that has pieces to write, and of
the reader that expects some bytes after those it has received. -/
inductive Turns (io : Wire S W) (p : Params) (size : Nat) :
    List (List UInt8) → Nat → List UInt8 → S → S → W → Except BenchError Unit × S × S × W → Prop
  | writeFailed {todo rest received expected a a' b w w' r e}
      (hw : writeOn io todo a w = (r, rest, a', w')) (he : writeFailure? p r = some e) :
      Turns io p size todo received expected a b w (.error e, a', b, w')
  | readFailed {todo rest received expected a a' b b' w w' w'' r e left}
      (hw : writeOn io todo a w = (r, rest, a', w')) (hnone : writeFailure? p r = none)
      (hr : readOn io size (io.backlog b w' + 1) received expected b w' =
        (.error e, left, b', w'')) :
      Turns io p size todo received expected a b w (.error e, a', b', w'')
  | done {todo received received' expected a a' b b' w w' w'' r}
      (hw : writeOn io todo a w = (r, [], a', w')) (hnone : writeFailure? p r = none)
      (hr : readOn io size (io.backlog b w' + 1) received expected b w' =
        (.ok (), (received', []), b', w'')) :
      Turns io p size todo received expected a b w (.ok (), a', b', w'')
  | goesOn {todo rest received received' expected expected' a a' b b' w w' w'' r y}
      (hw : writeOn io todo a w = (r, rest, a', w')) (hnone : writeFailure? p r = none)
      (hr : readOn io size (io.backlog b w' + 1) received expected b w' =
        (.ok (), (received', expected'), b', w''))
      (hrest : rest ≠ []) (hless : expected'.length < expected.length)
      (hlater : Turns io p size rest received' expected' a' b' w'' y) :
      Turns io p size todo received expected a b w y
  | late {todo rest received received' expected expected' a a' b b' w w' w'' r}
      (hw : writeOn io todo a w = (r, rest, a', w')) (hnone : writeFailure? p r = none)
      (hr : readOn io size (io.backlog b w' + 1) received expected b w' =
        (.ok (), (received', expected'), b', w''))
      (hopen : ¬(rest = [] ∧ expected' = []))
      (hvain : ¬(rest ≠ [] ∧ expected'.length < expected.length)) :
      Turns io p size todo received expected a b w (.error (readTimeout p), a', b', w'')

theorem turns_takeTurns (io : Wire S W) (p : Params) (size : Nat) (todo : List (List UInt8))
    (received : Nat) (expected : List UInt8) (a b : S) (w : W) :
    Turns io p size todo received expected a b w
      (takeTurns io p size todo received expected a b w) := by
  fun_induction takeTurns io p size todo received expected a b w with
  | case1 todo received expected a b w r rest a' w' hw e he =>
    simp only [hw, he]
    exact .writeFailed hw he
  | case2 todo received expected a b w r rest a' w' hw hnone e left b' w'' hr =>
    simp only [hw, hnone, hr]
    exact .readFailed hw hnone hr
  | case3 todo received expected a b w r rest a' w' hw hnone received' expected' b' w'' hr hdone =>
    simp only [hw, hnone, hr, if_pos hdone]
    obtain ⟨rfl, rfl⟩ := hdone
    exact .done hw hnone hr
  | case4 todo received expected a b w r rest a' w' hw hnone received' expected' b' w'' hr hopen
      hless ih =>
    simp only [hw, hnone, hr, if_neg hopen, if_pos hless]
    exact .goesOn hw hnone hr hless.1 hless.2 ih
  | case5 todo received expected a b w r rest a' w' hw hnone received' expected' b' w'' hr hopen
      hvain =>
    simp only [hw, hnone, hr, if_neg hopen, if_neg hvain]
    exact .late hw hnone hr hopen hvain

theorem Turns.eq {todo : List (List UInt8)} {received : Nat} {expected : List UInt8} {a b : S}
    {w : W} {x : Except BenchError Unit × S × S × W}
    (h : Turns io p size todo received expected a b w x) :
    takeTurns io p size todo received expected a b w = x := by
  induction h with
  | writeFailed hw he =>
    rw [takeTurns]
    simp only [hw, he]
  | readFailed hw hnone hr =>
    rw [takeTurns]
    simp only [hw, hnone, hr]
  | done hw hnone hr =>
    rw [takeTurns]
    simp only [hw, hnone, hr, and_self, if_true]
  | goesOn hw hnone hr hrest hless _ ih =>
    rw [takeTurns]
    simp only [hw, hnone, hr, hrest, hless, false_and, if_false, ne_eq, not_false_eq_true, and_self,
      if_true, ih]
  | late hw hnone hr hopen hvain =>
    rw [takeTurns]
    simp only [hw, hnone, hr, if_neg hopen, if_neg hvain]

theorem flatten_pieces (n : Nat) (data : List UInt8) : (pieces n data).flatten = data := by
  fun_induction pieces n data with
  | case1 => rfl
  | case2 b bs ih => rw [List.flatten_cons, ih, List.cons_append, List.take_append_drop]

/-- What is asked of the sender before it writes. -/
abbrev packetQuery : ControlRequest := ⟨.first, true, .maxWritePacket, none⟩

theorem transfer_eq (p : Params) (data : List UInt8) {l : Link S W} {answer : Outcome String}
    {source : S} {w : W} (hquery : io.control packetQuery l.source l.world = (answer, source, w)) :
    let chunk := writeLimit p.chunkSize (packetLimit answer)
    let todo := pieces (chunk.getD data.length) data
    let x := takeTurns io p data.length todo 0 data source l.sink w
    transfer io p data l = (x.1, ⟨x.2.1, x.2.2.1, x.2.2.2,
      l.log ++ [.transferStarted data.length chunk]⟩) := by
  rw [transfer, hquery]

end Wirebench.Bench

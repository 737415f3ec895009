import Mathlib.Control.Monad.Basic
import Wirebench.Proofs.Bench.Turns
import Wirebench.Proofs.Wire.Streams

namespace Wirebench

variable {es as : List UInt8} {o : Nat} {a b : UInt8}

theorem firstDifference?_append {fs cs : List UInt8} (h : es.length = as.length) :
    firstDifference? (es ++ fs) (as ++ cs) = (firstDifference? es as).or
      ((firstDifference? fs cs).map fun d => (d.1 + es.length, d.2)) := by
  induction es generalizing as with
  | nil =>
    cases as with
    | nil => simp only [List.nil_append, firstDifference?, Option.none_or, List.length_nil,
        Nat.add_zero, Prod.eta, Option.map_id']
    | cons => cases h
  | cons e es ih =>
    cases as with
    | nil => cases h
    | cons a as =>
      rw [List.cons_append, List.cons_append, firstDifference?, firstDifference?]
      split
      · rw [ih (Nat.succ.inj h)]
        cases firstDifference? es as with
        | some d => rfl
        | none => cases firstDifference? fs cs <;> rfl
      · rfl

theorem firstDifference?_eq_none_iff :
    firstDifference? es as = none ↔ es.take as.length = as.take es.length := by
  induction es generalizing as with
  | nil => simp [firstDifference?]
  | cons e es ih =>
    cases as with
    | nil => simp [firstDifference?]
    | cons a as =>
      rw [firstDifference?]
      split
      · next h => simp [ih, h]
      · next h => simp [h]

namespace Bench

/-- The verdict on a payload and the whole stream that comes, of which `compared` bytes have been
compared before; after the stream reading fails with `e`. -/
def verdict (e : StreamError) (compared : Nat) (expected stream : List UInt8) :
    Except BenchError Unit :=
  match firstDifference? expected stream with
  | some (offset, x, y) => .error (.dataMismatch (.byte (compared + offset) x y))
  | none => if expected.length ≤ stream.length then .ok () else .error (.stream e)

variable {S W : Type} {io : Wire S W} {T : Transit S W} {e : StreamError} {compared : Nat}
  {expected stream : List UInt8}

theorem expectBytes_of_length (h : expected.length = stream.length) :
    expectBytes expected stream =
      match firstDifference? expected stream with
      | some (offset, x, y) => .error (.byte offset x y)
      | none => .ok () := by
  cases hd : firstDifference? expected stream with
  | some d => simp only [expectBytes, hd]
  | none => simp only [expectBytes, if_pos h, hd]

theorem expectBytes_eq_ok_iff : expectBytes expected stream = .ok () ↔ expected = stream := by
  rw [expectBytes]
  cases hd : firstDifference? expected stream with
  | some d =>
    refine iff_of_false nofun ?_
    rintro rfl
    cases (firstDifference?_eq_none_iff.2 rfl).symm.trans hd
  | none =>
    dsimp only
    split
    · next hlength =>
      have htake := firstDifference?_eq_none_iff.1 hd
      rw [hlength, List.take_length, ← hlength, List.take_length] at htake
      exact iff_of_true rfl htake
    · next hlength => exact iff_of_false nofun fun heq => hlength (congrArg List.length heq)

/-- A piece decides, or the verdict is that on what follows it. -/
theorem verdict_append (e : StreamError) (compared : Nat)
    (h : expected.length = stream.length) (more rest : List UInt8) :
    verdict e compared (expected ++ more) (stream ++ rest) =
      match expectBytes expected stream with
      | .ok () => verdict e (compared + stream.length) more rest
      | .error m => .error (.dataMismatch (m.shift compared)) := by
  rw [verdict, firstDifference?_append h, expectBytes_of_length h]
  cases firstDifference? expected stream with
  | some d => rfl
  | none =>
    rw [Option.none_or, verdict]
    cases firstDifference? more rest with
    | some d => simp only [Option.map_some, h, Nat.add_assoc, Nat.add_comm d.1]
    | none => simp only [Option.map_none, List.length_append, h, Nat.add_le_add_iff_left]

theorem readSize_pos {missing : Nat} (size : Nat) (h : 0 < missing) :
    0 < readSize size missing := by
  rw [readSize]
  omega

/-- How a reader ends that has taken some bytes, while others have come and are still to come. All
it has taken was expected, and when more is expected nothing else has come; or the verdict on the
whole stream is known. -/
def Came (e : StreamError) (compared : Nat) (expected bytes arrived later : List UInt8)
    (r : Except BenchError Unit) (left : Nat × List UInt8) : Prop :=
  (r = .ok () ∧ left.1 = compared + bytes.length ∧ bytes ++ left.2 = expected ∧
    (left.2 ≠ [] → arrived = [])) ∨
  ∃ m, r = .error m ∧ verdict e compared expected (bytes ++ (arrived ++ later)) = .error m

/-- What is expected and has been taken before comes first. -/
theorem Came.goesOn {piece bytes arrived later : List UInt8} {r : Except BenchError Unit}
    {left : Nat × List UInt8}
    (h : Came e (compared + piece.length) expected bytes arrived later r left) :
    Came e compared (piece ++ expected) (piece ++ bytes) arrived later r left := by
  rcases h with ⟨hr, hleft, hall, hmore⟩ | ⟨m, hr, hm⟩
  · refine .inl ⟨hr, ?_, ?_, hmore⟩
    · rw [hleft, List.length_append, Nat.add_assoc]
    · rw [List.append_assoc, hall]
  · refine .inr ⟨m, hr, ?_⟩
    rw [List.append_assoc, verdict_append e compared rfl, expectBytes_eq_ok_iff.2 rfl]
    exact hm

/-- The result is that of comparing the whole payload with the whole stream, whose end is met as the
error `e`. -/
structure Agrees (data stream : List UInt8) (e : StreamError) (result : Except BenchError Unit) :
    Prop where
  ok : result = .ok () ↔ data.length ≤ stream.length ∧ stream.take data.length = data
  /-- The first byte that differs is reported with its offset in the payload. -/
  byte : ∀ o (ho : o < data.length) (ho' : o < stream.length), stream.take o = data.take o →
    data[o] ≠ stream[o] → result = .error (.dataMismatch (.byte o data[o] stream[o])) ∧
      expectBytes data stream = .error (.byte o data[o] stream[o])
  short : stream.length < data.length → stream = data.take stream.length →
    result = .error (.stream e)
  noLength : ∀ m n, result ≠ .error (.dataMismatch (.length m n))

/-- How a transfer ends: with a result that is good in some way, unless it takes too long. It has
taken no more of the stream than is expected. It takes too long only when bytes are missing or
still to be written, and what is missing has not come. -/
structure Compares (T : Transit S W) (p : Params) (good : Except BenchError Unit → Prop)
    (expected stream : List UInt8) (x : Except BenchError Unit × S × S × W) : Prop where
  result : x.1 ≠ .error (readTimeout p) → good x.1
  taken : ∃ bytes us arrived later, bytes ++ (arrived ++ later) = stream ∧
    bytes.length ≤ expected.length ∧ T us x.2.1 x.2.2.1 x.2.2.2 arrived later ∧
    (x.1 = .error (readTimeout p) → (us = [] → bytes.length < expected.length) ∧
      (bytes.length < expected.length → arrived = []))

/-- What the later turns of a transfer come to is what all of them come to. -/
theorem Compares.goesOn {p : Params} {x : Except BenchError Unit × S × S × W}
    {bytes expected : List UInt8}
    (h : Compares T p (· = verdict e (compared + bytes.length) expected stream) expected stream x) :
    Compares T p (· = verdict e compared (bytes ++ expected) (bytes ++ stream)) (bytes ++ expected)
      (bytes ++ stream) x where
  result hlate := by
    rw [verdict_append e compared rfl, expectBytes_eq_ok_iff.2 rfl]
    exact h.result hlate
  taken := by
    obtain ⟨more, us, arrived, later, hsplit, hmore, hT, hlate⟩ := h.taken
    refine ⟨bytes ++ more, us, arrived, later, ?_, ?_, hT, ?_⟩
    · rw [List.append_assoc, hsplit]
    · rw [List.length_append, List.length_append]
      exact Nat.add_le_add_left hmore _
    · rw [List.length_append, List.length_append, Nat.add_lt_add_iff_left]
      exact hlate

end Bench

namespace Scripted.Replay

def player (reads : List ReadEvent) : Replay := ⟨{}, reads, none, true⟩

/-- The fourth of five bytes arrives changed, as the second byte of a piece. -/
def changed : Bench.Link Replay Stage :=
  ⟨player [], player [.data [1, 2], .data [3, 9, 5]], {}, []⟩

end Scripted.Replay

end Wirebench

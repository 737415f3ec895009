import Wirebench.Scripted.Replay

namespace Wirebench

variable {S W : Type}

/-- Two ends are in a world while bytes go from the first one to the second one: some are not
written yet, some have come and wait to be read, and some are still to come. -/
abbrev Transit (S W : Type) : Type :=
  (unsent : List UInt8) → S → S → W → (arrived later : List UInt8) → Prop

/-- Whatever comes to the second end is settled. Every write at the first end takes at least a byte
or waits, and lets more of it come. A read gives any part of what has come, but at least one byte;
when nothing has come it waits, or fails with `e` if nothing is to come any more. -/
structure Wire.Carries (io : Wire S W) (T : Transit S W) (e : StreamError) : Prop where
  write : ∀ {data more a b w xs ys}, T (data ++ more) a b w xs ys → data ≠ [] →
    ∃ r rest zs later a' w', io.write data a w = (r, a', w') ∧
      T (rest ++ more) a' b w' (xs ++ zs) later ∧ zs ++ later = ys ∧
      ((∃ k, 0 < k ∧ k ≤ data.length ∧ r = .ok k ∧ rest = data.drop k) ∨
        r = .waiting ∧ rest = data)
  piece : ∀ {us a b w x xs ys n}, T us a b w (x :: xs) ys → 0 < n →
    ∃ k b' w', k < n ∧ k ≤ xs.length ∧
      io.read n b w = (.ok ((x :: xs).take (k + 1)), b', w') ∧ T us a b' w' (xs.drop k) ys
  idle : ∀ {us a b w ys n}, T us a b w [] ys → 0 < n → ∃ r b' w', io.read n b w = (r, b', w') ∧
    T us a b' w' [] ys ∧ (r = .waiting ∨ r = .error e ∧ ys = [])
  backlog : ∀ {us a b w xs ys}, T us a b w xs ys → xs.length ≤ io.backlog b w

theorem Wire.Carries.wrote {io : Wire S W} {T : Transit S W} {e : StreamError}
    (h : io.Carries T e) {data more xs ys : List UInt8} {a b a' : S} {w w' : W} {r : Outcome Nat}
    (hT : T (data ++ more) a b w xs ys) (hdata : data ≠ []) (hw : io.write data a w = (r, a', w')) :
    ∃ rest zs later, T (rest ++ more) a' b w' (xs ++ zs) later ∧ zs ++ later = ys ∧
      ((∃ k, 0 < k ∧ k ≤ data.length ∧ r = .ok k ∧ rest = data.drop k) ∨
        r = .waiting ∧ rest = data) := by
  obtain ⟨r', rest, zs, later, a'', w'', hw', hT'⟩ := h.write hT hdata
  cases hw.symm.trans hw'
  exact ⟨rest, zs, later, hT'⟩

namespace Scripted.Replay

/-- The bytes of pieces none of which is empty. -/
def stream? : List ReadEvent → Option (List UInt8)
  | [] => some []
  | .data [] :: _ | .fail _ :: _ => none
  | .data (b :: bs) :: es => (stream? es).map (b :: bs ++ ·)

/-- Every write to the replay takes something. -/
def Takes (r : Replay) : Prop := r.device.writeFail = none ∧ r.device.maxWrite ≠ some 0

theorem Takes.write {r : Replay} (h : r.Takes) {data : List UInt8} (hdata : data ≠ []) (w : Stage) :
    ∃ k r' w', 0 < k ∧ k ≤ data.length ∧ wire.write data r w = (.ok k, r', w') ∧ r'.Takes := by
  have htake : r.device.take data = .ok (data.take (r.device.maxWrite.getD data.length)) := by
    simp only [Device.take, h.1]
  have hlen := List.length_pos_iff.2 hdata
  have hpos : 0 < (data.take (r.device.maxWrite.getD data.length)).length := by
    rw [List.length_take]
    cases hm : r.device.maxWrite with
    | none => exact Nat.lt_min.2 ⟨hlen, hlen⟩
    | some m =>
      refine Nat.lt_min.2 ⟨Nat.pos_of_ne_zero ?_, hlen⟩
      rintro rfl
      exact h.2 hm
  have hwrite : wire.write data r w =
      (.ok (data.take (r.device.maxWrite.getD data.length)).length,
        { r with device := { r.device with written := r.device.written +
          (data.take (r.device.maxWrite.getD data.length)).length } },
        w.note r.device.label (.wrote (data.take (r.device.maxWrite.getD data.length)))) := by
    simp only [wire, Replay.write, htake]
  exact ⟨_, _, _, hpos, List.length_take_le' _ _, hwrite, h⟩

/-- The bytes that a replay has still to deliver, to a sender that can write. -/
def transit : Transit Replay Stage := fun _ a b _ xs ys =>
  a.Takes ∧ stream? b.reads = some xs ∧ ys = []

theorem length_le_weight {es : List ReadEvent} {bs : List UInt8} (h : stream? es = some bs) :
    bs.length ≤ weight es := by
  induction es generalizing bs with
  | nil =>
    cases h
    exact Nat.le_refl 0
  | cons event es ih =>
    match event with
    | .fail _ | .data [] => cases h
    | .data (c :: cs) =>
      obtain ⟨ds, hds, rfl⟩ := Option.map_eq_some_iff.1 h
      have hrest := ih hds
      have hweight : weight (.data (c :: cs) :: es) = max (cs.length + 1) 1 + weight es := rfl
      rw [hweight, List.length_append, List.length_cons]
      omega

theorem stream?_data {bs : List UInt8} (h : bs ≠ []) (es : List ReadEvent) :
    stream? (.data bs :: es) = (stream? es).map (bs ++ ·) := by
  obtain ⟨b, bs, rfl⟩ := List.exists_cons_of_ne_nil h
  rfl

theorem take_data (c : UInt8) (cs : List UInt8) {ds : List UInt8} {es : List ReadEvent}
    (hds : stream? es = some ds) {n : Nat} (hn : 0 < n) : ∃ k rest, k < n ∧ k ≤ cs.length ∧
      (ReadEvent.data (c :: cs)).take n es = (.ok ((c :: (cs ++ ds)).take (k + 1)), rest) ∧
        stream? rest = some ((cs ++ ds).drop k) := by
  by_cases hle : (c :: cs).length ≤ n
  · have htake : (c :: cs).take n = (c :: (cs ++ ds)).take (cs.length + 1) := by
      rw [List.take_of_length_le hle, List.take_succ_cons, List.take_left]
    refine ⟨cs.length, es, hle, Nat.le_refl _, ?_, ?_⟩
    · rw [ReadEvent.take, if_pos hle, htake]
    · rw [List.drop_left, hds]
  · obtain ⟨m, rfl⟩ := Nat.exists_eq_succ_of_ne_zero (Nat.ne_of_gt hn)
    rw [List.length_cons] at hle
    have hm : m < cs.length := by omega
    have hrest : cs.drop m ≠ [] := by
      rw [ne_eq, List.drop_eq_nil_iff]
      omega
    refine ⟨m, .data (cs.drop m) :: es, Nat.lt_succ_self m, Nat.le_of_lt hm, ?_, ?_⟩
    · rw [ReadEvent.take, List.length_cons, if_neg hle, List.take_succ_cons, List.take_succ_cons,
        List.take_append_of_le_length (Nat.le_of_lt hm), List.drop_succ_cons]
    · rw [stream?_data hrest, hds, List.drop_append_of_le_length (Nat.le_of_lt hm)]
      rfl

/-- A read takes a piece of what is still to be delivered, and changes nothing else. -/
theorem read_piece {r : Replay} {x : UInt8} {xs : List UInt8} (h : stream? r.reads = some (x :: xs))
    {n : Nat} (hn : 0 < n) (w : Stage) : ∃ k reads, k < n ∧ k ≤ xs.length ∧
      wire.read n r w = (.ok ((x :: xs).take (k + 1)), { r with reads }, w) ∧
      stream? reads = some (xs.drop k) := by
  match hreads : r.reads, h with
  | .data (c :: cs) :: es, h =>
    obtain ⟨ds, hds, hxs⟩ := Option.map_eq_some_iff.1 h
    obtain ⟨rfl, rfl⟩ := List.cons.inj hxs
    obtain ⟨k, rest, hk, hle, htake, hrest⟩ := take_data c cs hds hn
    have hlen : k ≤ (cs ++ ds).length := by
      rw [List.length_append]
      omega
    refine ⟨k, rest, hk, hlen, ?_, hrest⟩
    simp only [wire, read, hreads, htake]
    rfl

theorem read_end {r : Replay} (h : stream? r.reads = some []) (n : Nat) (w : Stage) :
    wire.read n r w = (if r.hold then .waiting else .error .remoteClosed, r, w) := by
  match hreads : r.reads, h with
  | [], _ => simp only [wire, read, hreads]
  | .data (c :: cs) :: es, h =>
    obtain ⟨ds, -, hxs⟩ := Option.map_eq_some_iff.1 h
    cases hxs

/-- Replays deliver what they are given. After it they wait, or have been closed. -/
theorem carries : wire.Carries transit .remoteClosed where
  write := by
    rintro data more a b w xs ys ⟨htakes, hstream, rfl⟩ hdata
    obtain ⟨k, a', w', hpos, hle, hwrite, htakes'⟩ := htakes.write hdata w
    rw [← List.append_nil xs] at hstream
    exact ⟨.ok k, data.drop k, [], [], a', w', hwrite, ⟨htakes', hstream, rfl⟩, rfl,
      .inl ⟨k, hpos, hle, rfl, rfl⟩⟩
  piece := by
    rintro us a b w x xs ys n ⟨htakes, hstream, rfl⟩ hn
    obtain ⟨k, reads, hk, hle, hread, hrest⟩ := read_piece hstream hn w
    exact ⟨k, _, w, hk, hle, hread, htakes, hrest, rfl⟩
  idle := by
    rintro us a b w ys n ⟨htakes, hstream, rfl⟩ -
    refine ⟨_, b, w, read_end hstream n w, ⟨htakes, hstream, rfl⟩, ?_⟩
    cases b.hold with
    | true => exact .inl rfl
    | false => exact .inr ⟨rfl, rfl⟩
  backlog := by
    rintro us a b w xs ys ⟨-, hstream, -⟩
    exact Nat.le_add_right_of_le (length_le_weight hstream)

end Scripted.Replay

end Wirebench

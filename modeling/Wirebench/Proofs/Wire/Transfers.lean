import Mathlib.Data.Stream.Init
import Wirebench.Proofs.Wire.Lifecycle
import Wirebench.Proofs.Wire.Progress

namespace Wirebench

variable {S W : Type}

namespace Wire

/-- As long as `I` holds, a write of something that succeeds takes a part of it: at least a byte,
and all of it at most. -/
structure TakesPart (io : Wire S W) (I : S → W → Prop) : Prop extends Takes io I where
  within : ∀ {s w data n}, I s w → (io.write data s w).1 = .ok n → n ≤ data.length

/-- The writes by which some data is written, with the states from the first to the last of them.
Each is for all that is left. -/
inductive WritesAll (io : Wire S W) :
    List UInt8 → S × W → List Call → Outcome Unit → S × W → Prop
  | done {x} : WritesAll io [] x [] (.ok ()) x
  | took {data n s w x calls r y} (hw : io.write data s w = (.ok n, x)) (hpos : 0 < n)
    (hle : n ≤ data.length) (rest : WritesAll io (data.drop n) x calls r y) :
    WritesAll io data (s, w) (.write data (.ok n) :: calls) r y
  | failed {data s w e x} (hdata : data ≠ []) (hw : io.write data s w = (.error e, x)) :
    WritesAll io data (s, w) [.write data (.error e)] (.error e) x
  | waits {data s w x} (hdata : data ≠ []) (hw : io.write data s w = (.waiting, x)) :
    WritesAll io data (s, w) [.write data .waiting] .waiting x

/-- Some data has been written by some calls up to `rest`. -/
structure Written (data rest : List UInt8) (made : List Call) (r : Outcome Unit) : Prop where
  taken : made.flatMap Call.taken ++ rest = data
  ok : r = .ok () ↔ rest = []
  error : ∀ e, r = .error e ↔ made.getLast? = some (.write rest (.error e))
  waiting : r = .waiting ↔ made.getLast? = some (.write rest .waiting)
  moves : r ≠ .stalled
  length : made.length ≤ data.length

theorem getLast?_cons_of_ne {α : Type} {a b : α} (h : a ≠ b) (as : List α) :
    (a :: as).getLast? = some b ↔ as.getLast? = some b := by
  rw [List.getLast?_cons, Option.some.injEq]
  cases as.getLast? with
  | none => exact ⟨fun hab => (h hab).elim, nofun⟩
  | some c => exact Option.some.injEq c b ▸ Iff.rfl

theorem WritesAll.written {io : Wire S W} {data : List UInt8} {x y : S × W} {made : List Call}
    {r : Outcome Unit} (h : io.WritesAll data x made r y) : ∃ rest, Written data rest made r := by
  induction h with
  | done => exact ⟨[], rfl, by simp, fun e => ⟨nofun, nofun⟩, ⟨nofun, nofun⟩, nofun, Nat.le_refl 0⟩
  | @took data n s w x calls r y hw hpos hle _ ih =>
    obtain ⟨rest, htaken, hok, herror, hwaiting, hmoves, hlength⟩ := ih
    refine ⟨rest, ?_, hok, fun e => ?_, ?_, hmoves, ?_⟩
    · rw [List.flatMap_cons, List.append_assoc, htaken]
      exact List.take_append_drop n data
    · exact (herror e).trans (getLast?_cons_of_ne (by nofun) calls).symm
    · exact hwaiting.trans (getLast?_cons_of_ne (by nofun) calls).symm
    · rw [List.length_drop] at hlength
      rw [List.length_cons]
      omega
  | @failed data s w e x hdata hw =>
    refine ⟨data, rfl, ⟨nofun, fun h => (hdata h).elim⟩, fun e' => ?_, ⟨nofun, nofun⟩, nofun, ?_⟩
    · simp
    · exact List.length_pos_iff.2 hdata
  | @waits data s w x hdata hw =>
    refine ⟨data, rfl, ⟨nofun, fun h => (hdata h).elim⟩, fun e' => ⟨nofun, nofun⟩, ?_, nofun, ?_⟩
    · simp
    · exact List.length_pos_iff.2 hdata

theorem WritesAll.succeeds {io : Wire S W} {I : S → W → Prop} (h : io.TakesPart I)
    (hok : ∀ s w data, I s w → data ≠ [] → ∃ n, (io.write data s w).1 = .ok n) {data : List UInt8}
    {x y : S × W} {made : List Call} {r : Outcome Unit} (hall : io.WritesAll data x made r y)
    (hI : I x.1 x.2) : r = .ok () := by
  induction hall with
  | done => rfl
  | @took data n s w x calls r y hw _ _ _ ih =>
    have hkept := (h.write data hI).kept
    rw [hw] at hkept
    exact ih hkept
  | failed hdata hw =>
    obtain ⟨n, hn⟩ := hok _ _ _ hI hdata
    cases hn.symm.trans (congrArg Prod.fst hw)
  | waits hdata hw =>
    obtain ⟨n, hn⟩ := hok _ _ _ hI hdata
    cases hn.symm.trans (congrArg Prod.fst hw)

/-- What is done on an open handle is done on the wire under it, and written down. -/
theorem writeAll_watched {io : Wire S W} {I : S → W → Prop} (h : io.TakesPart I) {s : S} {w : W}
    (hI : I s w) (data : List UInt8) (calls : List Call) : ∃ made r s' w', I s' w' ∧
      io.WritesAll data (s, w) made r (s', w') ∧
      io.watched.guarded.writeAll data ⟨true, s⟩ (calls, w) =
        (r, ⟨true, s'⟩, (calls ++ made, w')) := by
  induction hlen : data.length using Nat.strongRecOn generalizing data s w calls with
  | _ len ih =>
    subst hlen
    cases data with
    | nil =>
      refine ⟨[], .ok (), s, w, hI, .done, ?_⟩
      rw [writeAll, List.append_nil]
    | cons b bs =>
      have hkept := h.write (b :: bs) hI
      have htakes := h.takes hI (List.cons_ne_nil b bs)
      have hwithin {n : Nat} : (io.write (b :: bs) s w).1 = .ok n → n ≤ (b :: bs).length :=
        h.within hI
      have hguarded : io.watched.guarded.write (b :: bs) ⟨true, s⟩ (calls, w) =
          ((io.write (b :: bs) s w).1, ⟨true, (io.write (b :: bs) s w).2.1⟩,
            (calls ++ [.write (b :: bs) (io.write (b :: bs) s w).1],
              (io.write (b :: bs) s w).2.2)) := rfl
      rw [writeAll, hguarded]
      cases hw : io.write (b :: bs) s w with
      | mk r rest =>
        obtain ⟨s', w'⟩ := rest
        rw [hw] at hkept htakes hwithin
        cases r with
        | ok n =>
          have hle : n ≤ (b :: bs).length := hwithin rfl
          obtain ⟨n, rfl⟩ := Nat.exists_eq_succ_of_ne_zero fun hn => htakes (congrArg Outcome.ok hn)
          have hlt : (bs.drop n).length < (b :: bs).length := by
            rw [List.length_drop, List.length_cons]
            omega
          obtain ⟨made, r, s₂, w₂, hI₂, hall, heq⟩ := ih _ hlt hkept.kept (bs.drop n)
            (calls ++ [.write (b :: bs) (.ok (n + 1))]) rfl
          rw [List.append_assoc] at heq
          exact ⟨_, r, s₂, w₂, hI₂, .took hw n.succ_pos hle hall, heq⟩
        | error e =>
          exact ⟨_, .error e, s', w', hkept.kept, .failed (List.cons_ne_nil b bs) hw, rfl⟩
        | waiting =>
          exact ⟨_, .waiting, s', w', hkept.kept, .waits (List.cons_ne_nil b bs) hw, rfl⟩
        | stalled => exact (hkept.moves rfl).elim

/-- In these states the bytes of a stream are ahead. A read gives some of those that come first, as
many as it is for at most, and what fails or waits takes none of them away. Every read that succeeds
makes the backlog smaller. -/
structure Streams (io : Wire S W) (Ahead : S → W → Stream' UInt8 → Prop) : Prop where
  read : ∀ {s w σ} n, Ahead s w σ → ∃ σ', (Call.read n (io.read n s w).1).handed ++ₛ σ' = σ ∧
    Ahead (io.read n s w).2.1 (io.read n s w).2.2 σ'
  within : ∀ {s w σ n bytes}, Ahead s w σ → (io.read n s w).1 = .ok bytes → bytes.length ≤ n
  moves : ∀ {s w σ} n, Ahead s w σ → (io.read n s w).1 ≠ .stalled
  counts : ∀ {s w σ n bytes s' w'}, Ahead s w σ → 0 < n → io.read n s w = (.ok bytes, s', w') →
    io.backlog s' w' < io.backlog s w

/-- By some calls `bytes` have been read, of the `n` bytes that were to be read after `got`. -/
structure Got (n : Nat) (got bytes : List UInt8) (made : List Call)
    (r : Outcome (List UInt8)) : Prop where
  handed : made.flatMap Call.handed = bytes
  within : bytes.length ≤ n
  ok : ∀ value, r = .ok value ↔ bytes.length = n ∧ value = got ++ bytes
  error : ∀ e, r = .error e ↔ ∃ k, made.getLast? = some (.read k (.error e))
  waiting : r = .waiting ↔ ∃ k, made.getLast? = some (.read k .waiting)
  moves : r ≠ .stalled

theorem Got.nothing (got : List UInt8) : Got 0 got [] [] (.ok got) where
  handed := rfl
  within := Nat.le_refl 0
  ok value := by simp [eq_comm]
  error e := ⟨nofun, nofun⟩
  waiting := ⟨nofun, nofun⟩
  moves := nofun

theorem Got.failed {n : Nat} (hn : n ≠ 0) (got : List UInt8) (e : StreamError) :
    Got n got [] [.read n (.error e)] (.error e) where
  handed := rfl
  within := Nat.zero_le n
  ok value := ⟨nofun, fun h => (hn h.1.symm).elim⟩
  error e' := by simp
  waiting := by simp
  moves := nofun

theorem Got.waits {n : Nat} (hn : n ≠ 0) (got : List UInt8) :
    Got n got [] [.read n .waiting] .waiting where
  handed := rfl
  within := Nat.zero_le n
  ok value := ⟨nofun, fun h => (hn h.1.symm).elim⟩
  error e' := by simp
  waiting := by simp
  moves := nofun

theorem Got.cons {n : Nat} {got piece bytes : List UInt8} {made : List Call}
    {r : Outcome (List UInt8)} (hpiece : piece.length ≤ n)
    (h : Got (n - piece.length) (got ++ piece) bytes made r) :
    Got n got (piece ++ bytes) (.read n (.ok piece) :: made) r where
  handed := by
    rw [List.flatMap_cons, h.handed]
    rfl
  within := by
    have hwithin := h.within
    rw [List.length_append]
    omega
  ok value := by
    rw [h.ok, List.append_assoc, List.length_append]
    have hcount : bytes.length = n - piece.length ↔ piece.length + bytes.length = n := by omega
    rw [hcount]
  error e := by
    rw [h.error]
    exact exists_congr fun k => (getLast?_cons_of_ne (by nofun) made).symm
  waiting := by
    rw [h.waiting]
    exact exists_congr fun k => (getLast?_cons_of_ne (by nofun) made).symm
  moves := h.moves

theorem readMore_watched {io : Wire S W} {Ahead : S → W → Stream' UInt8 → Prop}
    (h : io.Streams Ahead) {s : S} {w : W} {σ : Stream' UInt8} (hσ : Ahead s w σ)
    {fuel : Nat} (hfuel : io.backlog s w < fuel) (n : Nat) (got : List UInt8) (calls : List Call) :
    ∃ made bytes r s' w' σ', bytes ++ₛ σ' = σ ∧ Ahead s' w' σ' ∧ Got n got bytes made r ∧
      io.watched.guarded.readMore fuel n got ⟨true, s⟩ (calls, w) =
        (r, got ++ bytes, ⟨true, s'⟩, (calls ++ made, w')) := by
  induction fuel generalizing s w σ n got calls with
  | zero => exact (Nat.not_lt_zero _ hfuel).elim
  | succ fuel ih =>
    rw [readMore]
    split
    · next hn =>
      subst hn
      refine ⟨[], [], .ok got, s, w, σ, Stream'.nil_append_stream σ, hσ, .nothing got, ?_⟩
      rw [List.append_nil, List.append_nil]
    · next hn =>
      have hpos : 0 < n := Nat.pos_of_ne_zero hn
      obtain ⟨σ', hstream, hahead⟩ := h.read n hσ
      have hguarded : io.watched.guarded.read n ⟨true, s⟩ (calls, w) =
          ((io.read n s w).1, ⟨true, (io.read n s w).2.1⟩,
            (calls ++ [.read n (io.read n s w).1], (io.read n s w).2.2)) := rfl
      rw [hguarded]
      cases hr : io.read n s w with
      | mk r rest =>
        obtain ⟨s', w'⟩ := rest
        rw [hr] at hstream hahead
        cases r with
        | ok piece =>
          have hless := h.counts hσ hpos hr
          have hpiece : piece.length ≤ n := h.within hσ (congrArg Prod.fst hr)
          obtain ⟨made, bytes, r, s₂, w₂, σ₂, hstream₂, hahead₂, hgot, heq⟩ :=
            ih hahead (Nat.lt_of_lt_of_le hless (Nat.le_of_lt_succ hfuel)) (n - piece.length)
              (got ++ piece) (calls ++ [.read n (.ok piece)])
          rw [List.append_assoc, List.append_assoc] at heq
          refine ⟨_, piece ++ bytes, r, s₂, w₂, σ₂, ?_, hahead₂, hgot.cons hpiece, heq⟩
          rw [Stream'.append_append_stream, hstream₂]
          exact hstream
        | error e =>
          refine ⟨_, [], .error e, s', w', σ', hstream, hahead, .failed hn got e, ?_⟩
          rw [List.append_nil]
        | waiting =>
          refine ⟨_, [], .waiting, s', w', σ', hstream, hahead, .waits hn got, ?_⟩
          rw [List.append_nil]
        | stalled => exact (h.moves n hσ (congrArg Prod.fst hr)).elim

end Wire

/-- A read, or an exact read from the beginning. -/
def Operation.isReading : Operation → Bool
  | read _ | readExact _ [] => true
  | readExact _ (_ :: _) | write _ | writeAll _ | writeUrgent _ | readUrgent _ | control _
  | close => false

def Operation.isExact : Operation → Bool
  | readExact .. => true
  | read _ | write _ | writeAll _ | writeUrgent _ | readUrgent _ | control _ | close => false

def Outcome.isOk {α : Type} : Outcome α → Bool
  | ok _ => true
  | error _ | waiting | stalled => false

/-- The bytes that an answer gives. -/
def Answer.given : Outcome Answer → List UInt8
  | .ok (.bytes bs) => bs
  | .ok (.count _) | .ok (.text _) | .ok .done | .error _ | .waiting | .stalled => []

theorem Answer.given_map (r : Outcome (List UInt8)) (n : Nat) :
    given (r.map .bytes) = (Call.read n r).handed := by
  cases r <;> rfl

namespace Wire

/-- By some calls `bytes` have been read, which come first of what was ahead. -/
structure Consumed (Ahead : S → W → Stream' UInt8 → Prop) (σ : Stream' UInt8) (made : List Call)
    (bytes : List UInt8) (s : S) (w : W) : Prop where
  handed : made.flatMap Call.handed = bytes
  stream : ∃ σ', bytes ++ₛ σ' = σ ∧ Ahead s w σ'

/-- Writing all is exact, in states of which `I` holds. It fails or waits only with a write of the
wire. -/
def WritesExactly (io : Wire S W) (I : S → W → Prop) : Prop :=
  ∀ s w, I s w → ∀ data calls, ∃ made rest r s' w',
    io.watched.guarded.writeAll data ⟨true, s⟩ (calls, w) =
        (r, ⟨true, s'⟩, (calls ++ made, w')) ∧
      I s' w' ∧ Written data rest made r ∧
      ((∀ s w data, I s w → data ≠ [] → ∃ n, (io.write data s w).1 = .ok n) → r = .ok ())

/-- Exact reads are exact, in states in which a stream is ahead. -/
structure ReadsExactly (io : Wire S W) (Ahead : S → W → Stream' UInt8 → Prop) : Prop where
  exact : ∀ s w σ, Ahead s w σ → ∀ n got calls, ∃ made bytes r s' w',
    io.watched.guarded.readExact n got ⟨true, s⟩ (calls, w) =
        (r, got ++ bytes, ⟨true, s'⟩, (calls ++ made, w')) ∧
      Consumed Ahead σ made bytes s' w' ∧ Got (n - got.length) got bytes made r
  /-- In a row, reads give one part of the stream after the other. Only what has been read for an
  exact read that fails is not given. -/
  inARow : ∀ s w σ, Ahead s w σ → ∀ os : List Operation, (∀ o ∈ os, o.isReading) → ∀ calls,
    ∃ made bytes as s' w',
      useAll io.watched.guarded.perform os (⟨true, s⟩, (calls, w)) =
          (as, ⟨true, s'⟩, (calls ++ made, w')) ∧
        Consumed Ahead σ made bytes s' w' ∧
        ((∀ x ∈ os.zip as, x.1.isExact → x.2.isOk) → as.flatMap Answer.given = bytes)

theorem TakesPart.writesExactly {io : Wire S W} {I : S → W → Prop} (h : io.TakesPart I) :
    io.WritesExactly I := by
  intro s w hI data calls
  obtain ⟨made, r, s', w', hI', hall, heq⟩ := writeAll_watched h hI data calls
  obtain ⟨rest, hwritten⟩ := hall.written
  exact ⟨made, rest, r, s', w', heq, hI', hwritten, fun hok => hall.succeeds h hok hI⟩

namespace Streams

variable {io : Wire S W} {Ahead : S → W → Stream' UInt8 → Prop} {s : S} {w : W} {σ : Stream' UInt8}

theorem readExact (h : io.Streams Ahead) (hσ : Ahead s w σ) (n : Nat) (got : List UInt8)
    (calls : List Call) : ∃ made bytes r s' w',
    io.watched.guarded.readExact n got ⟨true, s⟩ (calls, w) =
        (r, got ++ bytes, ⟨true, s'⟩, (calls ++ made, w')) ∧
      Consumed Ahead σ made bytes s' w' ∧ Got (n - got.length) got bytes made r := by
  obtain ⟨made, bytes, r, s', w', σ', hstream, hahead, hgot, heq⟩ :=
    readMore_watched h hσ (Nat.lt_succ_self _) (n - got.length) got calls
  exact ⟨made, bytes, r, s', w', heq, ⟨hgot.handed, σ', hstream, hahead⟩, hgot⟩

theorem perform (h : io.Streams Ahead) (hσ : Ahead s w σ) {o : Operation} (ho : o.isReading)
    (calls : List Call) : ∃ made bytes a s' w',
    io.watched.guarded.perform o (⟨true, s⟩, (calls, w)) = (a, ⟨true, s'⟩, (calls ++ made, w')) ∧
      Consumed Ahead σ made bytes s' w' ∧ ((o.isExact → a.isOk) → Answer.given a = bytes) := by
  match o, ho with
  | .read n, _ =>
    obtain ⟨σ', hstream, hahead⟩ := h.read n hσ
    exact ⟨[.read n (io.read n s w).1], _, _, _, _, rfl,
      ⟨List.flatMap_singleton .., σ', hstream, hahead⟩, fun _ => Answer.given_map _ n⟩
  | .readExact n [], _ =>
    obtain ⟨made, bytes, r, s', w', heq, hconsumed, hgot⟩ := h.readExact hσ n [] calls
    refine ⟨made, bytes, r.map .bytes, s', w', ?_, hconsumed, fun hok => ?_⟩
    · simp only [Wire.perform, heq, answering]
    · cases r with
      | ok value => exact ((hgot.ok value).1 rfl).2
      | error | waiting | stalled => cases hok rfl

theorem useAll (h : io.Streams Ahead) (hσ : Ahead s w σ) {os : List Operation}
    (hos : ∀ o ∈ os, o.isReading) (calls : List Call) : ∃ made bytes as s' w',
    Wirebench.useAll io.watched.guarded.perform os (⟨true, s⟩, (calls, w)) =
        (as, ⟨true, s'⟩, (calls ++ made, w')) ∧
      Consumed Ahead σ made bytes s' w' ∧
      ((∀ x ∈ os.zip as, x.1.isExact → x.2.isOk) → as.flatMap Answer.given = bytes) := by
  induction os generalizing s w σ calls with
  | nil =>
    refine ⟨[], [], [], s, w, ?_, ⟨rfl, σ, rfl, hσ⟩, fun _ => rfl⟩
    rw [List.append_nil]
    rfl
  | cons o os ih =>
    obtain ⟨ho, hos⟩ := List.forall_mem_cons.1 hos
    obtain ⟨made, bytes, a, s₁, w₁, heq, ⟨hhanded, σ₁, hstream, hahead⟩, hgiven⟩ :=
      h.perform hσ ho calls
    obtain ⟨made', bytes', as, s₂, w₂, heq', ⟨hhanded', σ₂, hstream', hahead'⟩, hgiven'⟩ :=
      ih hahead hos (calls ++ made)
    refine ⟨made ++ made', bytes ++ bytes', a :: as, s₂, w₂, ?_, ⟨?_, σ₂, ?_, hahead'⟩, ?_⟩
    · rw [useAll_cons, heq, heq', List.append_assoc]
    · rw [List.flatMap_append, hhanded, hhanded']
    · rw [Stream'.append_append_stream, hstream', hstream]
    · intro hok
      rw [List.zip_cons_cons, List.forall_mem_cons] at hok
      rw [List.flatMap_cons, hgiven hok.1, hgiven' hok.2]

theorem readsExactly (h : io.Streams Ahead) : io.ReadsExactly Ahead where
  exact _ _ _ hσ := h.readExact hσ
  inARow _ _ _ hσ _ hos := h.useAll hσ hos

end Streams

end Wire

end Wirebench

import Wirebench.Proofs.Bench.Comparison
import Wirebench.Proofs.Wire.Calls

namespace Wirebench

/-- The bytes that a call offers to be taken in. -/
def Call.offered : Call → List UInt8
  | write data _ => data
  | read .. | writeUrgent .. | readUrgent .. | control .. | close _ => []

namespace Bench

/-- So many bytes of a payload are no more than the limits allow; where a limit is zero, one byte
is. -/
structure WithinLimits (p : Params) (answer : Outcome String) (data : List UInt8) (n : Nat) :
    Prop where
  chunk : ∀ c, p.chunkSize = some c → n ≤ max 1 c
  packet : ∀ m, packetLimit answer = some m → n ≤ max 1 m
  payload : n ≤ data.length

theorem length_le_of_mem_pieces {n : Nat} {data piece : List UInt8} (h : piece ∈ pieces n data) :
    piece.length ≤ min (max 1 n) data.length := by
  fun_induction pieces n data with
  | case1 => cases h
  | case2 b bs ih =>
    rcases List.mem_cons.1 h with rfl | hlater
    · simp only [List.length_cons, List.length_take]
      omega
    · have hrest := ih hlater
      simp only [List.length_cons, List.length_drop] at hrest ⊢
      omega

/-- The largest piece that a payload is cut into. -/
def largestPiece (p : Params) (answer : Outcome String) (data : List UInt8) : Nat :=
  min (max 1 ((writeLimit p.chunkSize (packetLimit answer)).getD data.length)) data.length

theorem withinLimits_of_le {p : Params} {answer : Outcome String} {data : List UInt8} {n : Nat}
    (h : n ≤ largestPiece p answer data) : WithinLimits p answer data n where
  chunk c hc := by
    rw [largestPiece, hc] at h
    cases hm : packetLimit answer <;> simp only [hm, writeLimit, Option.getD_some] at h <;> omega
  packet m hm := by
    rw [largestPiece, hm] at h
    cases hc : p.chunkSize <;> simp only [hc, writeLimit, Option.getD_some] at h <;> omega
  payload := Nat.le_trans h (Nat.min_le_right _ _)

variable {S W : Type} {io : Wire S W} {m : Nat}

/-- By some calls all has been written of what was to do, up to `rest`. -/
structure Wrote (m : Nat) (todo rest : List (List UInt8)) (made : List Call) : Prop where
  taken : made.flatMap Call.taken ++ rest.flatten = todo.flatten
  handed : made.flatMap Call.handed = []
  offered : ∀ c ∈ made, c.offered.length ≤ m
  rest : ∀ piece ∈ rest, piece.length ≤ m

theorem Wrote.nothing {todo : List (List UInt8)} (hm : ∀ piece ∈ todo, piece.length ≤ m) :
    Wrote m todo todo [] :=
  ⟨rfl, rfl, List.forall_mem_nil _, hm⟩

theorem Wrote.refused {data : List UInt8} {todo : List (List UInt8)} {r : Outcome Nat}
    (hm : ∀ piece ∈ data :: todo, piece.length ≤ m) (hr : (Call.write data r).taken = []) :
    Wrote m (data :: todo) (data :: todo) [.write data r] where
  taken := by rw [List.flatMap_singleton, hr, List.nil_append]
  handed := rfl
  offered c hc := by
    rw [List.mem_singleton.1 hc]
    exact hm data List.mem_cons_self
  rest := hm

theorem Wrote.cons {data : List UInt8} {todo rest : List (List UInt8)} {made : List Call} {n : Nat}
    (hm : data.length ≤ m) (h : Wrote m (data.drop n :: todo) rest made) :
    Wrote m (data :: todo) rest (.write data (.ok n) :: made) where
  taken := by
    have htaken : (Call.write data (.ok n)).taken = data.take n := rfl
    rw [List.flatMap_cons, List.append_assoc, h.taken, htaken, List.flatten_cons, List.flatten_cons,
      ← List.append_assoc, List.take_append_drop]
  handed := h.handed
  offered := List.forall_mem_cons.2 ⟨hm, h.offered⟩
  rest := h.rest

theorem watched_write {data : List UInt8} {s s' : S} {w w' : List Call × W} {r : Outcome Nat}
    (h : io.watched.write data s w = (r, s', w')) : w'.1 = w.1 ++ [.write data r] := by
  obtain ⟨rfl, hrest⟩ := Prod.mk.inj h
  exact (congrArg (fun x => x.2.1) hrest).symm

theorem watched_read {n : Nat} {s s' : S} {w w' : List Call × W} {r : Outcome (List UInt8)}
    (h : io.watched.read n s w = (r, s', w')) : w'.1 = w.1 ++ [.read n r] := by
  obtain ⟨rfl, hrest⟩ := Prod.mk.inj h
  exact (congrArg (fun x => x.2.1) hrest).symm

theorem writeOn_watched (io : Wire S W) {todo : List (List UInt8)}
    (hm : ∀ piece ∈ todo, piece.length ≤ m) (s : S) (w : List Call × W) :
    ∃ made, (writeOn io.watched todo s w).2.2.2.1 = w.1 ++ made ∧
      Wrote m todo (writeOn io.watched todo s w).2.1 made := by
  fun_induction writeOn io.watched todo s w with
  | case1 s w => exact ⟨[], (List.append_nil _).symm, .nothing hm⟩
  | case2 s w ps ih =>
    obtain ⟨made, hrecord, hwrote⟩ := ih (List.forall_mem_cons.1 hm).2
    exact ⟨made, hrecord, hwrote.taken, hwrote.handed, hwrote.offered, hwrote.rest⟩
  | case3 s w b bs ps s' w' hw => exact ⟨_, watched_write hw, .refused hm rfl⟩
  | case4 s w b bs ps n s' w' hw ih =>
    obtain ⟨hpiece, hps⟩ := List.forall_mem_cons.1 hm
    have hrest : (bs.drop n).length ≤ m := by
      simp only [List.length_cons, List.length_drop] at hpiece ⊢
      omega
    obtain ⟨made, hrecord, hwrote⟩ := ih (List.forall_mem_cons.2 ⟨hrest, hps⟩)
    rw [watched_write hw, List.append_assoc] at hrecord
    exact ⟨_, hrecord, hwrote.cons (n := n + 1) hpiece⟩
  | case5 s w b bs ps e s' w' hw => exact ⟨_, watched_write hw, .refused hm rfl⟩
  | case6 s w b bs ps s' w' hw => exact ⟨_, watched_write hw, .refused hm rfl⟩
  | case7 s w b bs ps s' w' hw => exact ⟨_, watched_write hw, .refused hm rfl⟩

/-- Some calls only read, and if all went well they have read what was expected, up to `rest`. -/
structure HasRead (expected rest : List UInt8) (made : List Call) (r : Except BenchError Unit) :
    Prop where
  taken : made.flatMap Call.taken = []
  offered : ∀ c ∈ made, c.offered = []
  handed : r = .ok () → made.flatMap Call.handed ++ rest = expected

theorem HasRead.nothing (expected : List UInt8) (r : Except BenchError Unit) :
    HasRead expected expected [] r :=
  ⟨rfl, List.forall_mem_nil _, fun _ => rfl⟩

theorem HasRead.refused (expected : List UInt8) {n : Nat} {r : Outcome (List UInt8)}
    {r' : Except BenchError Unit} (h : r' = .ok () → (Call.read n r).handed = []) :
    HasRead expected expected [.read n r] r' where
  taken := rfl
  offered := List.forall_mem_singleton.2 rfl
  handed hr := by rw [List.flatMap_singleton, h hr, List.nil_append]

theorem HasRead.cons {expected bytes rest : List UInt8} {made : List Call} {n : Nat}
    {r : Except BenchError Unit} (hbytes : expected.take bytes.length = bytes)
    (h : HasRead (expected.drop bytes.length) rest made r) :
    HasRead expected rest (.read n (.ok bytes) :: made) r where
  taken := h.taken
  offered := List.forall_mem_cons.2 ⟨rfl, h.offered⟩
  handed hr := by
    have hhanded : (Call.read n (.ok bytes)).handed = expected.take bytes.length := hbytes.symm
    rw [List.flatMap_cons, List.append_assoc, h.handed hr, hhanded, List.take_append_drop]

theorem readOn_watched (io : Wire S W) (size fuel received : Nat) (expected : List UInt8) (s : S)
    (w : List Call × W) : ∃ made,
      (readOn io.watched size fuel received expected s w).2.2.2.1 = w.1 ++ made ∧
      HasRead expected (readOn io.watched size fuel received expected s w).2.1.2 made
        (readOn io.watched size fuel received expected s w).1 := by
  fun_induction readOn io.watched size fuel received expected s w with
  | case1 fuel received s w => exact ⟨[], (List.append_nil _).symm, .nothing [] _⟩
  | case2 received expected s w => exact ⟨[], (List.append_nil _).symm, .nothing expected _⟩
  | case3 received expected s w _ fuel bytes s' w' hr hpiece ih =>
    obtain ⟨made, hrecord, hread⟩ := ih
    rw [watched_read hr, List.append_assoc] at hrecord
    exact ⟨_, hrecord, hread.cons (expectBytes_eq_ok_iff.1 hpiece)⟩
  | case4 received expected s w _ fuel bytes s' w' hr =>
    exact ⟨_, watched_read hr, .refused expected nofun⟩
  | case5 received expected s w _ fuel e s' w' hr =>
    exact ⟨_, watched_read hr, .refused expected nofun⟩
  | case6 received expected s w _ fuel s' w' hr =>
    exact ⟨_, watched_read hr, .refused expected fun _ => rfl⟩
  | case7 received expected s w _ fuel s' w' hr =>
    exact ⟨_, watched_read hr, .refused expected fun _ => rfl⟩

/-- Some calls offer so many bytes at most, and if all went well then `data` has been written and
what was expected has been read. -/
structure Exchanged (m : Nat) (data expected : List UInt8) (made : List Call)
    (r : Except BenchError Unit) : Prop where
  offered : ∀ c ∈ made, c.offered.length ≤ m
  taken : r = .ok () → made.flatMap Call.taken = data
  handed : r = .ok () → made.flatMap Call.handed = expected

theorem Exchanged.nothing (r : Except BenchError Unit) : Exchanged m [] [] [] r :=
  ⟨List.forall_mem_nil _, fun _ => rfl, fun _ => rfl⟩

theorem Exchanged.failed {data expected : List UInt8} {made : List Call} {e : BenchError}
    (h : ∀ c ∈ made, c.offered.length ≤ m) : Exchanged m data expected made (.error e) :=
  ⟨h, nofun, nofun⟩

section

variable {todo rest : List (List UInt8)} {expected expected' : List UInt8}
  {made made' more : List Call} {r : Except BenchError Unit}

theorem Wrote.offered_append (h : Wrote m todo rest made)
    (h' : HasRead expected expected' made' r) : ∀ c ∈ made ++ made', c.offered.length ≤ m := by
  refine List.forall_mem_append.2 ⟨h.offered, fun c hc => ?_⟩
  rw [h'.offered c hc]
  exact Nat.zero_le m

/-- A turn of writing and reading comes before what is left to do. -/
theorem Wrote.turn (h : Wrote m todo rest made) (h' : HasRead expected expected' made' (.ok ()))
    (hmore : Exchanged m rest.flatten expected' more r) :
    Exchanged m todo.flatten expected (made ++ made' ++ more) r where
  offered := List.forall_mem_append.2 ⟨h.offered_append h', hmore.offered⟩
  taken hr := by
    rw [List.flatMap_append, List.flatMap_append, h'.taken, List.append_nil, hmore.taken hr,
      h.taken]
  handed hr := by
    rw [List.flatMap_append, List.flatMap_append, h.handed, List.nil_append, hmore.handed hr,
      h'.handed rfl]

end

theorem turns_watched {p : Params} {size received : Nat} {todo : List (List UInt8)}
    {expected : List UInt8} {a b : S} {w : List Call × W}
    {x : Except BenchError Unit × S × S × List Call × W}
    (hm : ∀ piece ∈ todo, piece.length ≤ m)
    (hx : Turns io.watched p size todo received expected a b w x) :
    ∃ made, x.2.2.2.1 = w.1 ++ made ∧ Exchanged m todo.flatten expected made x.1 := by
  have hwriting {todo todo' : List (List UInt8)} {s s' : S} {w w' : List Call × W}
      {r : Outcome Unit} (hm : ∀ piece ∈ todo, piece.length ≤ m)
      (hw : writeOn io.watched todo s w = (r, todo', s', w')) :
      ∃ made, w'.1 = w.1 ++ made ∧ Wrote m todo todo' made := by
    have hwrite := writeOn_watched io hm s w
    rwa [hw] at hwrite
  have hreading {fuel received : Nat} {rest : Nat × List UInt8} {expected : List UInt8} {s s' : S}
      {w w' : List Call × W} {r : Except BenchError Unit}
      (hr : readOn io.watched size fuel received expected s w = (r, rest, s', w')) :
      ∃ made, w'.1 = w.1 ++ made ∧ HasRead expected rest.2 made r := by
    have hread := readOn_watched io size fuel received expected s w
    rwa [hr] at hread
  induction hx with
  | writeFailed hw _ =>
    obtain ⟨made, hrecord, hwrote⟩ := hwriting hm hw
    exact ⟨made, hrecord, .failed hwrote.offered⟩
  | readFailed hw _ hr | late hw _ hr =>
    obtain ⟨made, hrecord, hwrote⟩ := hwriting hm hw
    obtain ⟨made', hrecord', hread⟩ := hreading hr
    rw [hrecord, List.append_assoc] at hrecord'
    exact ⟨_, hrecord', .failed (hwrote.offered_append hread)⟩
  | done hw _ hr =>
    obtain ⟨made, hrecord, hwrote⟩ := hwriting hm hw
    obtain ⟨made', hrecord', hread⟩ := hreading hr
    rw [hrecord, List.append_assoc] at hrecord'
    have hall := hwrote.turn hread (.nothing (.ok ()))
    rw [List.append_nil] at hall
    exact ⟨_, hrecord', hall⟩
  | goesOn hw _ hr _ _ _ ih =>
    obtain ⟨made, hrecord, hwrote⟩ := hwriting hm hw
    obtain ⟨made', hrecord', hread⟩ := hreading hr
    obtain ⟨more, hlater, hexchanged⟩ := ih hwrote.rest
    rw [hrecord', hrecord, List.append_assoc, List.append_assoc,
      ← List.append_assoc made] at hlater
    exact ⟨_, hlater, hwrote.turn hread hexchanged⟩

theorem write_unrecorded {data : List UInt8} {s s' : S} {w w' : List Call × W} {r : Outcome Nat}
    (h : io.watched.write data s w = (r, s', w')) : io.write data s w.2 = (r, s', w'.2) :=
  congrArg (fun x => (x.1, x.2.1, x.2.2.2)) h

theorem read_unrecorded {n : Nat} {s s' : S} {w w' : List Call × W} {r : Outcome (List UInt8)}
    (h : io.watched.read n s w = (r, s', w')) : io.read n s w.2 = (r, s', w'.2) :=
  congrArg (fun x => (x.1, x.2.1, x.2.2.2)) h

theorem writeOn_unrecorded (io : Wire S W) (todo : List (List UInt8)) (s : S)
    (w : List Call × W) :
    let x := writeOn io.watched todo s w
    writeOn io todo s w.2 = (x.1, x.2.1, x.2.2.1, x.2.2.2.2) := by
  fun_induction writeOn io.watched todo s w with
  | case1 s w => rw [writeOn]
  | case2 s w ps ih =>
    rw [writeOn]
    exact ih
  | case3 s w b bs ps s' w' hw => rw [writeOn, write_unrecorded hw]
  | case4 s w b bs ps n s' w' hw ih =>
    rw [writeOn, write_unrecorded hw]
    exact ih
  | case5 s w b bs ps e s' w' hw => rw [writeOn, write_unrecorded hw]
  | case6 s w b bs ps s' w' hw => rw [writeOn, write_unrecorded hw]
  | case7 s w b bs ps s' w' hw => rw [writeOn, write_unrecorded hw]

theorem readOn_unrecorded (io : Wire S W) (size fuel received : Nat) (expected : List UInt8)
    (s : S) (w : List Call × W) :
    let x := readOn io.watched size fuel received expected s w
    readOn io size fuel received expected s w.2 = (x.1, x.2.1, x.2.2.1, x.2.2.2.2) := by
  fun_induction readOn io.watched size fuel received expected s w with
  | case1 fuel received s w => cases fuel <;> rw [readOn, if_pos rfl]
  | case2 received expected s w hne => rw [readOn, if_neg hne]
  | case3 received expected s w hne fuel bytes s' w' hr hpiece ih =>
    rw [readOn, if_neg hne, read_unrecorded hr]
    simp only [hpiece]
    exact ih
  | case4 received expected s w hne fuel bytes s' w' hr e hpiece =>
    rw [readOn, if_neg hne, read_unrecorded hr]
    simp only [hpiece]
  | case5 received expected s w hne fuel e s' w' hr =>
    rw [readOn, if_neg hne, read_unrecorded hr]
  | case6 received expected s w hne fuel s' w' hr =>
    rw [readOn, if_neg hne, read_unrecorded hr]
  | case7 received expected s w hne fuel s' w' hr =>
    rw [readOn, if_neg hne, read_unrecorded hr]

theorem Turns.unrecorded {p : Params} {size received : Nat} {todo : List (List UInt8)}
    {expected : List UInt8} {a b : S} {w : List Call × W}
    {x : Except BenchError Unit × S × S × List Call × W}
    (hx : Turns io.watched p size todo received expected a b w x) :
    Turns io p size todo received expected a b w.2 (x.1, x.2.1, x.2.2.1, x.2.2.2.2) := by
  have hwriting {todo todo' : List (List UInt8)} {s s' : S} {w w' : List Call × W}
      {r : Outcome Unit} (hw : writeOn io.watched todo s w = (r, todo', s', w')) :
      writeOn io todo s w.2 = (r, todo', s', w'.2) := by
    rw [writeOn_unrecorded, hw]
  have hreading {fuel received : Nat} {rest : Nat × List UInt8} {expected : List UInt8} {s s' : S}
      {w w' : List Call × W} {r : Except BenchError Unit}
      (hr : readOn io.watched size fuel received expected s w = (r, rest, s', w')) :
      readOn io size fuel received expected s w.2 = (r, rest, s', w'.2) := by
    rw [readOn_unrecorded, hr]
  induction hx with
  | writeFailed hw he => exact .writeFailed (hwriting hw) he
  | readFailed hw hnone hr => exact .readFailed (hwriting hw) hnone (hreading hr)
  | done hw hnone hr => exact .done (hwriting hw) hnone (hreading hr)
  | goesOn hw hnone hr hrest hless _ ih =>
    exact .goesOn (hwriting hw) hnone (hreading hr) hrest hless ih
  | late hw hnone hr hopen hvain => exact .late (hwriting hw) hnone (hreading hr) hopen hvain

/-- The same link, with a record of calls in its world. -/
def Link.recorded (l : Link S W) (calls : List Call) : Link S (List Call × W) :=
  { l with world := (calls, l.world) }

/-- A transfer with a record of its calls comes to what it comes to without one. Whatever that is,
each call offers what is within the limits; and when the transfer succeeds, then its payload has
been taken and handed out, each byte once and in order. -/
theorem transfer_watched (io : Wire S W) (p : Params) (data : List UInt8) (l : Link S W)
    (calls : List Call) : ∃ made,
      transfer io.watched p data (l.recorded calls) =
        ((transfer io p data l).1, (transfer io p data l).2.recorded (calls ++ made)) ∧
      (∀ c ∈ made, WithinLimits p (io.control packetQuery l.source l.world).1 data
        c.offered.length) ∧
      ((transfer io p data l).1 = .ok () →
        made.flatMap Call.taken = data ∧ made.flatMap Call.handed = data) := by
  cases hquery : io.control packetQuery l.source l.world with
  | mk answer rest =>
    obtain ⟨source, w⟩ := rest
    have hcontrol : io.watched.control packetQuery l.source (calls, l.world) =
        (answer, source, (calls ++ [.control packetQuery answer], w)) :=
      congrArg (fun x => (x.1, x.2.1, (calls ++ [.control packetQuery x.1], x.2.2))) hquery
    have hturns := turns_takeTurns io.watched p data.length
      (pieces ((writeLimit p.chunkSize (packetLimit answer)).getD data.length) data) 0 data source
      l.sink (calls ++ [.control packetQuery answer], w)
    rw [transfer_eq p data hquery, transfer_eq p data hcontrol, hturns.unrecorded.eq]
    obtain ⟨made, hrecord, hall⟩ := turns_watched (fun _ => length_le_of_mem_pieces) hturns
    rw [List.append_assoc] at hrecord
    refine ⟨[.control packetQuery answer] ++ made, ?_, ?_, fun hok => ⟨?_, ?_⟩⟩
    · rw [← hrecord]
      rfl
    · refine List.forall_mem_cons.2 ⟨withinLimits_of_le (Nat.zero_le _), fun c hc => ?_⟩
      exact withinLimits_of_le (hall.offered c hc)
    · exact (hall.taken hok).trans (flatten_pieces _ data)
    · exact hall.handed hok

/-- What is done with a link comes, with a record of the calls, to what it comes to without one.
When it succeeds these bytes have been taken and handed out, each once and in order. -/
def Accounts (io : Wire S W)
    (act : (V : Type) → Wire S V → Link S V → Except BenchError Unit × Link S V)
    (bytes : List UInt8) (l : Link S W) : Prop :=
  ∀ calls, ∃ made,
    act _ io.watched (l.recorded calls) =
      ((act _ io l).1, (act _ io l).2.recorded (calls ++ made)) ∧
    ((act _ io l).1 = .ok () → made.flatMap Call.taken = bytes ∧ made.flatMap Call.handed = bytes)

theorem accounts_transfer (io : Wire S W) (p : Params) (data : List UInt8) (l : Link S W) :
    Accounts io (fun _ io => transfer io p data) data l := by
  intro calls
  obtain ⟨made, hrecord, -, hcarried⟩ := transfer_watched io p data l calls
  exact ⟨made, hrecord, hcarried⟩

theorem accounts_bothWays (io : Wire S W) (p : Params) (data : List UInt8) (l : Link S W) :
    Accounts io (fun _ io => bothWays (transfer io p data)) (data ++ data) l := by
  intro calls
  obtain ⟨made, hfirst, hcarried⟩ := accounts_transfer io p data (l.report .firstToSecond) calls
  have hfirst : transfer io.watched p data ((l.recorded calls).report .firstToSecond) = _ := hfirst
  simp only [bothWays, hfirst] at hcarried ⊢
  revert hcarried
  obtain ⟨r, l'⟩ := transfer io p data (l.report .firstToSecond)
  cases r with
  | error e => exact fun _ => ⟨made, rfl, nofun⟩
  | ok =>
    intro hcarried
    obtain ⟨made', hsecond, hcarried'⟩ :=
      accounts_transfer io p data (l'.report .secondToFirst).swap (calls ++ made)
    have hsecond : transfer io.watched p data
      ((l'.recorded (calls ++ made)).report .secondToFirst).swap = _ := hsecond
    simp only [hsecond] at hcarried' ⊢
    revert hcarried'
    obtain ⟨r, l''⟩ := transfer io p data (l'.report .secondToFirst).swap
    rw [List.append_assoc]
    cases r with
    | error e => exact fun _ => ⟨made ++ made', rfl, nofun⟩
    | ok =>
      intro hcarried'
      refine ⟨made ++ made', rfl, fun _ => ?_⟩
      rw [List.flatMap_append, List.flatMap_append, (hcarried rfl).1, (hcarried rfl).2,
        (hcarried' rfl).1, (hcarried' rfl).2]
      exact ⟨rfl, rfl⟩

/-- Exchanges of ordinary data. -/
def Exchange.isOrdinary : Exchange → Bool
  | data _ | small | random _ => true
  | urgent _ | fail _ => false

/-- The bytes that an exchange carries each way. -/
def Exchange.payload (p : Params) : Exchange → List UInt8
  | data payload | urgent payload => payload
  | small => smallPayload
  | random size => p.random (size.getD p.transferSize)
  | fail _ => []

theorem accounts_run (io : Wire S W) (p : Params) {e : Exchange} (he : e.isOrdinary = true)
    (l : Link S W) :
    Accounts io (fun _ io l => e.run io p l) (e.payload p ++ e.payload p) l := by
  cases e with
  | data payload => exact accounts_bothWays io p payload (l.report (.dataExchange payload))
  | small => exact accounts_bothWays io _ smallPayload l
  | random size => exact accounts_bothWays io p _ (l.report (.randomExchange _))
  | urgent | fail => cases he

/-- Run exchanges one after the other, each with parameters of its own, until one fails. -/
def runAll (io : Wire S W) : List (Params × Exchange) → Link S W → Except BenchError Unit × Link S W
  | [], l => (.ok (), l)
  | (p, e) :: es, l =>
    match e.run io p l with
    | (.ok (), l) => runAll io es l
    | (.error e, l) => (.error e, l)

theorem accounts_runAll (io : Wire S W) {es : List (Params × Exchange)}
    (hes : ∀ e ∈ es, e.2.isOrdinary = true) (l : Link S W) :
    Accounts io (fun _ io => runAll io es)
      (es.flatMap fun e => e.2.payload e.1 ++ e.2.payload e.1) l := by
  induction es generalizing l with
  | nil =>
    intro calls
    refine ⟨[], ?_, fun _ => ⟨rfl, rfl⟩⟩
    rw [List.append_nil]
    rfl
  | cons e es ih =>
    obtain ⟨he, hes⟩ := List.forall_mem_cons.1 hes
    intro calls
    obtain ⟨made, hfirst, hcarried⟩ := accounts_run io e.1 he l calls
    simp only [runAll, hfirst] at hcarried ⊢
    revert hcarried
    obtain ⟨r, l'⟩ := e.2.run io e.1 l
    cases r with
    | error e => exact fun _ => ⟨made, rfl, nofun⟩
    | ok =>
      intro hcarried
      obtain ⟨made', hlater, hcarried'⟩ := ih hes l' (calls ++ made)
      rw [List.append_assoc] at hlater
      refine ⟨made ++ made', hlater, fun hok => ?_⟩
      rw [List.flatMap_append, List.flatMap_append, List.flatMap_cons, (hcarried rfl).1,
        (hcarried rfl).2, (hcarried' hok).1, (hcarried' hok).2]
      exact ⟨rfl, rfl⟩

end Bench

end Wirebench

import Wirebench.Proofs.Relay.Invariants
import Wirebench.Proofs.Relay.Schedule
import Wirebench.Proofs.Wire.Streams

namespace Wirebench

namespace Relay

variable {H S W : Type} {io : Wire S W}

/-- What is read from the near side in a turn. -/
def turnInput (io : Wire S W) (poll : Poll W) (r : Relay H S W) (e : Ends S W) : List UInt8 :=
  match poll with
  | .near => (Call.read r.bufferSize (io.read r.bufferSize e.near e.world).1).handed
  | .far | .meanwhile _ => []

variable {r : Relay H S W} {e : Ends S W} {poll : Poll W} {polls : List (Poll W)}
variable {acts log : List Act}

theorem handed_serveNear
    (h : (serveNear io.recorded r.recorded (e.recorded log)).2.2.world.1 = log ++ acts) :
    handed .near acts = turnInput io .near r e := by
  simp only [serveNear, recorded, Ends.recorded, recorded_read] at h
  rw [turnInput]
  revert h
  obtain ⟨result, near, world⟩ := io.read r.bufferSize e.near e.world
  intro h
  have hread (hacts : log ++ [.call .near (.read r.bufferSize result)] = log ++ acts) :
      handed .near acts = (Call.read r.bufferSize result).handed := by
    rw [← List.append_cancel_left hacts]
    exact List.append_nil _
  cases result with
  | ok bytes =>
    -- What follows the read is up to the escape processing, which reads nothing.
    obtain ⟨acts', hkeeps⟩ := forward_recorded io r.handler r.escape bytes
      ⟨r.state, [], r.handlerState, e.far, world⟩
      (log ++ [.call .near (.read r.bufferSize (.ok bytes))])
    have hworld := congrArg (fun q => q.2.world.1) hkeeps.same
    have hacts := List.append_cancel_left ((h.symm.trans hworld).trans (List.append_assoc ..))
    rw [hacts, handed_append, handed_of_outward hkeeps.outward, List.append_nil]
    exact List.append_nil _
  | error err => cases err <;> exact hread h
  | waiting => exact hread h
  | stalled => exact hread h

theorem handed_serveFar
    (h : (serveFar io.recorded r.recorded (e.recorded log)).2.2.world.1 = log ++ acts) :
    handed .near acts = [] := by
  simp only [serveFar, recorded, Ends.recorded, recorded_read] at h
  revert h
  obtain ⟨result, far, world⟩ := io.read r.bufferSize e.far e.world
  intro h
  have hread (hacts : log ++ [.call .far (.read r.bufferSize result)] = log ++ acts) :
      handed .near acts = [] := by
    rw [← List.append_cancel_left hacts]
    rfl
  cases result with
  | ok bytes =>
    obtain ⟨acts', hsame, hwriting⟩ := writeAll_recorded io .near bytes e.near
      (log ++ [.call .far (.read r.bufferSize (.ok bytes))]) world
    have hworld := congrArg (fun q => q.2.2.1) hsame
    have hacts := List.append_cancel_left ((h.symm.trans hworld).trans (List.append_assoc ..))
    rw [hacts, handed_append, hwriting.handed]
    rfl
  | error err => cases err <;> exact hread h
  | waiting => exact hread h
  | stalled => exact hread h

theorem handed_turn (h : (turn io.recorded poll.recorded r.recorded (e.recorded log)).2.2.world.1 =
    log ++ acts) : handed .near acts = turnInput io poll r e := by
  cases poll with
  | near => exact handed_serveNear h
  | far => exact handed_serveFar h
  | meanwhile change =>
    have hacts : acts = [] := List.append_right_eq_self.1 h.symm
    rw [hacts]
    rfl

/-- What a turn comes to by what it reads from the near side, a session comes to by what has been
read in it. -/
theorem attend_induction {P : List UInt8 → Relay H S W → Ends S W → Prop}
    {F : List UInt8 → Option (Outcome Exit) → Relay H S W → Ends S W → Prop}
    (hopen : ∀ {came r e}, P came r e → F came none r e)
    (hturn : ∀ poll ∈ polls, ∀ {came r e}, P came r e →
      (verdict (turn io poll r e).1 = none →
        P (came ++ turnInput io poll r e) (turn io poll r e).2.1 (turn io poll r e).2.2) ∧
      ∀ x, verdict (turn io poll r e).1 = some x →
        F (came ++ turnInput io poll r e) (some x) (turn io poll r e).2.1 (turn io poll r e).2.2)
    (came : List UInt8) (hP : P came r e) (log : List Act)
    (hacts : (attend io.recorded (polls.map .recorded) r.recorded (e.recorded log)).2.2.world.1 =
      log ++ acts) :
    F (came ++ handed .near acts) (attend io polls r e).1 (attend io polls r e).2.1
      (attend io polls r e).2.2 := by
  induction polls generalizing r e log came acts with
  | nil =>
    obtain rfl : acts = [] := List.append_right_eq_self.1 hacts.symm
    exact hopen ((List.append_nil came).symm ▸ hP)
  | cons poll polls ih =>
    obtain ⟨hfirst, hlater⟩ := List.forall_mem_cons.1 hturn
    obtain ⟨first, hrecounts⟩ := recounts_turn io poll r e log
    have hinput : handed .near first = turnInput io poll r e :=
      handed_turn (congrArg (·.2.2.world.1) hrecounts.same)
    -- With the record and without it the session goes on after the same rounds.
    have hverdict : verdict (turn io.recorded poll.recorded r.recorded (e.recorded log)).1 =
        verdict (turn io poll r e).1 := by rw [hrecounts.same]
    have hcame := hfirst hP
    rw [← hinput] at hcame
    rw [List.map_cons] at hacts
    cases hv : verdict (turn io poll r e).1 with
    | none =>
      rw [hv] at hverdict
      rw [attend_cons_of_going hverdict, hrecounts.same] at hacts
      rw [attend_cons_of_going hv]
      obtain ⟨rest, hrest⟩ := recounts_attend io polls (turn io poll r e).2.1
        (turn io poll r e).2.2 (log ++ first)
      have hworld := congrArg (·.2.2.world.1) hrest.same
      have hboth := hacts.symm.trans (hworld.trans (List.append_assoc ..))
      obtain rfl : acts = first ++ rest := List.append_cancel_left hboth
      rw [handed_append, ← List.append_assoc]
      exact ih hlater _ (hcame.1 hv) _ hworld
    | some x =>
      rw [hv] at hverdict
      rw [attend_cons_of_stop hverdict, hrecounts.same] at hacts
      obtain rfl : first = acts := List.append_cancel_left hacts
      rw [attend_cons_of_stop hv]
      exact hcame.2 x hv

/-- The near side has some bytes to hand out. They come in pieces of any size, and after them it is
closed, whatever the relay does meanwhile. -/
structure Provides (io : Wire S W) (handler : Option (Handler H S W))
    (L : S → W → List UInt8 → Prop) : Prop where
  piece : ∀ {s w b bs n}, L s w (b :: bs) → 0 < n → ∃ k s' w', k < n ∧ k ≤ bs.length ∧
    io.read n s w = (.ok ((b :: bs).take (k + 1)), s', w') ∧ L s' w' (bs.drop k)
  ending : ∀ {s w n}, L s w [] → 0 < n → ∃ s' w', io.read n s w = (.error .remoteClosed, s', w')
  backlog : ∀ {s w bs}, L s w bs → bs.length ≤ io.backlog s w
  aside : ∀ s bs, Maintains io handler fun _ _ w => L s w bs
  readFar : ∀ {s w bs} far n, L s w bs → L s (io.read n far w).2.2 bs
  writeNear : ∀ {s w bs} data, L s w bs →
    L (io.write data s w).2.1 (io.write data s w).2.2 bs

variable {L : S → W → List UInt8 → Prop} {r r' : Relay H S W} {bs : List UInt8}

/-- With what a session ends that is not stopped by its far side. -/
def exitOf (y : Outcome (Option Exit)) : Outcome Exit := y.map (·.getD .nearClosed)

/-- A round in which something is read from the near side has the effects of the escape processing of
it. The rest is still to be read. -/
structure Serves (L : S → W → List UInt8 → Prop) (r : Relay H S W) (bs : List UInt8)
    (log : List Act) (q : Outcome Round × Relay H S W × Ends S W)
    (q' : Outcome Round × Relay H (Side × S) (List Act × W) × Ends (Side × S) (List Act × W))
    (acts : List Act) (y : Outcome (Option Exit)) (rest : List UInt8) : Prop where
  outcome : q.1 = y.map .ofExit
  recorded : q' = (q.1, q.2.1.recorded, q.2.2.recorded (log ++ acts))
  relay : ∃ state handlerState, q.2.1 = { r with state, handlerState }
  split : handed .near acts ++ rest = bs
  less : rest.length < bs.length
  left : L q.2.2.near q.2.2.world rest
  forwards : WritesSucceed acts → Forwards r acts y q.2.1

theorem serves_piece (h : Provides io r.handler L) {e : Ends S W} {b : UInt8}
    (hL : L e.near e.world (b :: bs)) (hsize : 0 < r.bufferSize) (log : List Act) :
    ∃ acts y rest, Serves L r (b :: bs) log (serveNear io r e)
      (serveNear io.recorded r.recorded (e.recorded log)) acts y rest := by
  obtain ⟨k, near, world, hk, hle, hread, hleft⟩ := h.piece hL hsize
  simp only [serveNear, Relay.recorded, Ends.recorded, recorded_read, hread]
  obtain ⟨acts, hkeeps⟩ := forward_recorded io r.handler r.escape ((b :: bs).take (k + 1))
    ⟨r.state, [], r.handlerState, e.far, world⟩
    (log ++ [.call .near (.read r.bufferSize (.ok ((b :: bs).take (k + 1))))])
  have hmaintains := (h.aside near (bs.drop k)).forward r.escape ((b :: bs).take (k + 1))
    ⟨r.state, [], r.handlerState, e.far, world⟩ hleft
  have hin : handed .near
      (.call .near (.read r.bufferSize (.ok ((b :: bs).take (k + 1)))) :: acts) =
      (b :: bs).take (k + 1) :=
    (congrArg (_ ++ ·) (handed_of_outward hkeeps.outward .near)).trans (List.append_nil _)
  have hsame := hkeeps.same
  rw [List.append_assoc] at hsame
  refine ⟨.call .near (.read r.bufferSize (.ok ((b :: bs).take (k + 1)))) :: acts, _, bs.drop k,
    rfl, ?_, ⟨_, _, rfl⟩, ?_, ?_, hmaintains, fun hwrites => ?_⟩
  · exact congrArg (fun q => (q.1.map Round.ofExit,
      { r.recorded with state := q.2.escape, handlerState := q.2.handler },
      Ends.mk (.near, near) q.2.far q.2.world)) hsame
  · rw [hin]
    exact List.take_append_drop (k + 1) (b :: bs)
  · rw [List.length_drop, List.length_cons]
    omega
  · intro answers before hagree
    rw [hin]
    exact transduce_recorded rfl rfl hkeeps (List.forall_mem_cons.1 hwrites).2 answers before hagree

theorem serveNear_ending (h : Provides io r.handler L) {e : Ends S W} (hL : L e.near e.world [])
    (hsize : 0 < r.bufferSize) (log : List Act) :
    ∃ near world, serveNear io r e = (.ok (.ended .nearClosed), r, ⟨near, e.far, world⟩) ∧
      serveNear io.recorded r.recorded (e.recorded log) =
        (.ok (.ended .nearClosed), r.recorded, (Ends.mk near e.far world).recorded
          (log ++ [.call .near (.read r.bufferSize (.error .remoteClosed))])) := by
  obtain ⟨near, world, hread⟩ := h.ending hL hsize
  refine ⟨near, world, ?_, ?_⟩
  · simp only [serveNear, hread]
  · simp only [serveNear, Relay.recorded, Ends.recorded, recorded_read, hread]

/-- A session in which bytes are read until they stop the relay or come to an end. -/
structure Consumes (r : Relay H S W) (bs : List UInt8) (log : List Act)
    (q : Outcome Exit × Relay H S W × Ends S W)
    (q' : Outcome Exit × Relay H (Side × S) (List Act × W) × Ends (Side × S) (List Act × W))
    (acts : List Act) (y : Outcome (Option Exit)) (rest : List UInt8) : Prop where
  outcome : q.1 = exitOf y
  recorded : q' = (q.1, q.2.1.recorded, q.2.2.recorded (log ++ acts))
  split : handed .near acts ++ rest = bs
  all : y = .ok none → rest = []
  forwards : WritesSucceed acts → Forwards r acts y q.2.1

/-- A round comes before what is left of the session. -/
theorem Serves.andThen {log acts acts' : List Act} {y : Outcome (Option Exit)}
    {rest rest' : List UInt8} {q : Outcome Round × Relay H S W × Ends S W}
    {q' : Outcome Round × Relay H (Side × S) (List Act × W) × Ends (Side × S) (List Act × W)}
    {z : Outcome Exit × Relay H S W × Ends S W}
    {z' : Outcome Exit × Relay H (Side × S) (List Act × W) × Ends (Side × S) (List Act × W)}
    (h : Serves L r bs log q q' acts (.ok none) rest)
    (hlater : Consumes q.2.1 rest (log ++ acts) z z' acts' y rest') :
    Consumes r bs log z z' (acts ++ acts') y rest' where
  outcome := hlater.outcome
  recorded := by rw [hlater.recorded, List.append_assoc]
  split := by rw [handed_append, List.append_assoc, hlater.split, h.split]
  all := hlater.all
  forwards hwrites := by
    obtain ⟨hacts, hacts'⟩ := WritesSucceed.append.1 hwrites
    obtain ⟨state, handlerState, hrelay⟩ := h.relay
    have hhandler : q.2.1.handler = r.handler := by rw [hrelay]
    have hescape : q.2.1.escape = r.escape := by rw [hrelay]
    exact (h.forwards hacts).append hhandler hescape (hlater.forwards hacts')

theorem Provides.writeAll (h : Provides io r.handler L) (data : List UInt8) {s : S} {w : W}
    (hL : L s w bs) : L (io.writeAll data s w).2.1 (io.writeAll data s w).2.2 bs := by
  fun_induction io.writeAll data s w with
  | case1 s w => exact hL
  | case2 s w b bytes s' w' hw | case4 s w b bytes e s' w' hw | case5 s w b bytes s' w' hw
  | case6 s w b bytes s' w' hw =>
    have hwrite := h.writeNear (b :: bytes) hL
    rwa [hw] at hwrite
  | case3 s w b bytes n s' w' hw ih =>
    have hwrite := h.writeNear (b :: bytes) hL
    rw [hw] at hwrite
    exact ih hwrite

/-- Some bytes have been read from the near side, which still has the rest of its bytes to hand out. -/
structure Reads (L : S → W → List UInt8 → Prop) (r : Relay H S W) (bs came : List UInt8)
    (r' : Relay H S W) (e : Ends S W) : Prop where
  handler : r'.handler = r.handler
  bufferSize : r'.bufferSize = r.bufferSize
  left : ∃ rest, came ++ rest = bs ∧ L e.near e.world rest

theorem Reads.before {came : List UInt8} {e : Ends S W} (h : Reads L r bs came r' e) :
    came <+: bs := by
  obtain ⟨rest, hsplit, -⟩ := h.left
  exact ⟨rest, hsplit⟩

theorem Reads.near {came rest : List UInt8} {e : Ends S W} (h : Provides io r.handler L)
    (hreads : Reads L r (came ++ rest) came r' e) (hL : L e.near e.world rest)
    (hsize : 0 < r.bufferSize) :
    came ++ turnInput io .near r' e <+: came ++ rest ∧
      (verdict (serveNear io r' e).1 = none →
        Reads L r (came ++ rest) (came ++ turnInput io .near r' e) (serveNear io r' e).2.1
          (serveNear io r' e).2.2) := by
  rw [← hreads.handler] at h
  rw [← hreads.bufferSize] at hsize
  cases rest with
  | nil =>
    obtain ⟨near, world, hserve, -⟩ := serveNear_ending h hL hsize []
    have hnone : turnInput io .near r' e = [] := by
      obtain ⟨near, world, hread⟩ := h.ending hL hsize
      simp only [turnInput, hread]
      rfl
    rw [hnone, hserve]
    refine ⟨List.prefix_refl _, ?_⟩
    intro hgoing
    cases hgoing
  | cons b bytes =>
    obtain ⟨acts, y, rest, hserves⟩ := serves_piece h hL hsize []
    have hworld : (serveNear io.recorded r'.recorded (e.recorded [])).2.2.world.1 = [] ++ acts :=
      congrArg (·.2.2.world.1) hserves.recorded
    have hinput : handed .near acts = turnInput io .near r' e := handed_serveNear hworld
    have hsplit : came ++ turnInput io .near r' e ++ rest = came ++ (b :: bytes) := by
      rw [← hinput, List.append_assoc, hserves.split]
    obtain ⟨state, handlerState, hrelay⟩ := hserves.relay
    refine ⟨⟨rest, hsplit⟩, fun _ => ?_⟩
    constructor
    case handler =>
      rw [hrelay]
      exact hreads.handler
    case bufferSize =>
      rw [hrelay]
      exact hreads.bufferSize
    case left => exact ⟨rest, hsplit, hserves.left⟩

end Relay

namespace Scripted.Replay

/-- An escape byte at the end of a piece, a sequence over several ones, and a doubled escape byte. -/
def piecemeal : Relay.Ends Replay Stage where
  near := ⟨{}, [.data [97, 126], .data [98, 126], .data [122, 104, 105], .data [33, 13, 126, 126, 99]],
    none, false⟩
  far := ⟨{ maxWrite := some 2 }, [], none, true⟩
  world := {}

end Scripted.Replay

end Wirebench

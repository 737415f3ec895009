import Wirebench.Proofs.Loopback.Steps

namespace Wirebench.Loopback

/-- The moves of whoever has the acceptor. -/
def Move.IsOwners : Move → Prop
  | accept | connectFrom _ | shutDown | abandon => True
  | arrive .. | distribute | notice | read .. | close _ | discard _ => False

/-- Whoever has let go of the acceptor does nothing with it any more. -/
def Move.LeavesOnce : List Move → Prop
  | [] => True
  | x :: schedule => (x = .abandon → ∀ y ∈ schedule, ¬y.IsOwners) ∧ LeavesOnce schedule

namespace SharedSocket

variable {s : SharedSocket} {p : Nat}

theorem discard_withWaiting (s : SharedSocket) (p : Nat) (waiting : List Nat) :
    { s with waiting }.discard p = { s.discard p with waiting } := by
  rw [discard, discard, release, release]
  cases s.peers[p]? with
  | none => rfl
  | some peer =>
    simp only
    split <;> rfl

theorem stop_of_none (h : s.task.newcomer? = none) : s.stop = { s with task := .stopped } := by
  rw [stop]
  cases ht : s.task with
  | admitting p d =>
    rw [ht] at h
    cases h
  | idle | forwarding | stopped => rfl

theorem stop_of_newcomer (h : s.task.newcomer? = some p) :
    s.stop = { s with task := .stopped }.discard p := by
  rw [stop, discard_withTask]
  cases ht : s.task with
  | admitting q d =>
    rw [ht] at h
    cases h
    rfl
  | idle | forwarding | stopped =>
    rw [ht] at h
    cases h

theorem waiting_closeQueue (s : SharedSocket) : s.closeQueue.waiting = [] := by
  have hall (ps : List Nat) (s : SharedSocket) : (ps.foldl discard s).waiting = s.waiting := by
    induction ps generalizing s with
    | nil => rfl
    | cons p ps ih => exact (ih (s.discard p)).trans (waiting_release s p)
  exact hall s.waiting { s with isOpen := false, waiting := [] }

theorem isLive_release (s : SharedSocket) (p : Nat) : (s.release p).isLive p = false := by
  rw [isLive, peers_release]
  cases s.peers[p]? with
  | none => rfl
  | some peer =>
    rw [Option.map_some, if_pos rfl]
    rfl

end SharedSocket

namespace Interleaving

variable {t : Interleaving} {s : SharedSocket} {a : SocketAddress} {p : Nat} {d : Datagram}
variable {party : Party}

theorem run_cons (t : Interleaving) (x : Step) (schedule : List Step) :
    t.run (x :: schedule) = (t.act x).run schedule :=
  rfl

theorem run_append (t : Interleaving) (xs ys : List Step) :
    t.run (xs ++ ys) = (t.run xs).run ys :=
  List.foldl_append

/-- Nobody comes between the two steps of a release. -/
theorem exists_strike (h : t.strikes = []) (party : Party) (p : Nat) :
    ∃ a, (t.hangUp party p).act (.strike party a) = { t with socket := t.socket.release p } := by
  obtain ⟨socket, stage, closing, strikes⟩ := t
  obtain rfl : strikes = [] := h
  rw [hangUp]
  split
  · next a hstatus =>
    refine ⟨a, ?_⟩
    rw [act, if_pos List.mem_cons_self, SharedSocket.release_of_livesAt hstatus]
    simp only [List.erase_cons_head]
  · next a hdead =>
    refine ⟨a, ?_⟩
    rw [act, if_neg List.not_mem_nil, SharedSocket.release_of_dead]
    intro b hl
    cases hdead.symm.trans hl
  · next hnone =>
    refine ⟨.loopback 0, ?_⟩
    rw [act, if_neg List.not_mem_nil, SharedSocket.release_of_dead]
    intro b hl
    cases hnone.symm.trans hl

theorem exists_discard (h : t.strikes = []) (party : Party) (p : Nat) :
    ∃ schedule, (t.hangUp party p).run schedule = { t with socket := t.socket.discard p } := by
  obtain ⟨a, hstrike⟩ := exists_strike h party p
  refine ⟨[.strike party a, .letGo p], ?_⟩
  show ((t.hangUp party p).act (.strike party a)).act (.letGo p) = _
  rw [hstrike, act, SharedSocket.isLive_release, if_neg nofun]
  rfl

theorem exists_drain (s : SharedSocket) (forGood : Bool) (ps : List Nat) :
    ∃ schedule,
      run { socket := { s with waiting := ps }, closing := .draining forGood } schedule =
        { socket := ps.foldl .discard { s with waiting := [] }, closing := .draining forGood } := by
  induction ps generalizing s with
  | nil => exact ⟨[], rfl⟩
  | cons p ps ih =>
    obtain ⟨first, hfirst⟩ := exists_discard
      (t := { socket := { s with waiting := ps }, closing := .draining forGood }) rfl .owner p
    obtain ⟨rest, hrest⟩ := ih (s.discard p)
    refine ⟨.proceed :: (first ++ rest), ?_⟩
    show (hangUp _ .owner p).run (first ++ rest) = _
    rw [run_append, hfirst, SharedSocket.discard_withWaiting s p ps, hrest, List.foldl_cons,
      SharedSocket.discard_withWaiting s p []]

theorem act_advance (h : t.strikes = []) : t.act .advance = t.advance := by
  rw [act, isStriking, h]
  rfl

theorem act_proceed (h : t.strikes = []) : t.act .proceed = t.proceed := by
  rw [act, isStriking, h]
  rfl

theorem exists_take (s : SharedSocket) (a : SocketAddress) (d : Datagram) (closing : Closing) :
    ∃ schedule, run { socket := s, stage := .received a d, closing } schedule =
      { socket := s.take a d, closing } := by
  cases hp : s.peerFor? a with
  | some p =>
    refine ⟨[.advance], ?_⟩
    rw [SharedSocket.take_known hp, run_cons, act_advance rfl, advance]
    simp only [hp]
    rfl
  | none =>
    have hunknown : act { socket := s, stage := .received a d, closing } .advance =
        { socket := s, stage := .unknown a d, closing } := by
      rw [act_advance rfl, advance]
      simp only [hp]
    by_cases hopen : s.isOpen = true
    · refine ⟨[.advance, .advance, .advance], ?_⟩
      have hentering : act { socket := s, stage := .unknown a d, closing } .advance =
          { socket := s, stage := .entering a d, closing } := by
        rw [act_advance rfl, advance]
        simp only [if_pos hopen]
      rw [SharedSocket.take_new hp hopen, run_cons, hunknown, run_cons, hentering]
      rfl
    · refine ⟨[.advance, .advance], ?_⟩
      have hdropped : act { socket := s, stage := .unknown a d, closing } .advance =
          { socket := s, closing } := by
        rw [act_advance rfl, advance]
        simp only [if_neg hopen]
      rw [SharedSocket.take_closed hp hopen, run_cons, hunknown, run_cons, hdropped]
      rfl

/-- A distributor that is stopped lets go of the peer in its hand first. -/
theorem exists_stop (s : SharedSocket) (hc : s.isCancelled = true) (closing : Closing) :
    ∃ schedule, run { socket := s, closing } schedule = { socket := s.stop, closing } := by
  have hcancel : act { socket := s, closing } .cancel = cancel { socket := s, closing } :=
    if_pos ⟨rfl, hc, nofun⟩
  cases hp : s.task.newcomer? with
  | none =>
    refine ⟨[.cancel], ?_⟩
    rw [run_cons, hcancel, cancel, SharedSocket.stop_of_none hp]
    simp only [hp]
    rfl
  | some p =>
    obtain ⟨rest, hrest⟩ := exists_discard
      (t := { socket := { s with task := .stopped }, closing }) rfl .distributor p
    refine ⟨.cancel :: rest, ?_⟩
    rw [run_cons, hcancel, cancel, SharedSocket.stop_of_newcomer hp]
    simp only [hp]
    exact hrest

theorem exists_notice (s : SharedSocket) (hidle : s.task = .idle) (hsignal : s.signal = true)
    (closing : Closing) :
    ∃ schedule, run { socket := s, closing } schedule = { socket := s.notice, closing } := by
  have hroused : act { socket := s, closing } .rouse =
      { socket := { s with signal := false }, stage := .roused, closing } :=
    if_pos ⟨rfl, hidle, hsignal, nofun⟩
  rw [SharedSocket.notice]
  by_cases hopen : s.isOpen = true
  · refine ⟨[.rouse, .advance], ?_⟩
    rw [run_cons, hroused, run_cons, act_advance rfl, advance]
    simp only [hopen]
    rfl
  · refine ⟨[.rouse, .advance, .advance], ?_⟩
    have hleaving : act { socket := { s with signal := false }, stage := .roused, closing } .advance =
        { socket := { s with signal := false }, stage := .leaving, closing } := by
      rw [act_advance rfl, advance]
      simp only [if_neg hopen]
    rw [run_cons, hroused, run_cons, hleaving, run_cons, act_advance rfl, advance]
    rw [Bool.not_eq_true] at hopen
    simp only [hopen, Bool.not_false, Bool.true_and]
    rfl

theorem exists_distribute (s : SharedSocket) (closing : Closing) :
    ∃ schedule, run { socket := s, closing } schedule =
      { socket := s.act .distribute, closing } := by
  have hresume : act { socket := s, closing } .advance = resume { socket := s, closing } :=
    act_advance rfl
  have hs := SharedSocket.distributes_act s
  revert hs
  generalize s.act .distribute = s'
  intro hs
  cases hs with
  | stops hc => exact exists_stop s hc closing
  | rests => exact ⟨[], rfl⟩
  | @admits _ p d ht hs =>
    obtain ⟨hopen, hroom, rfl⟩ | ⟨hclosed, rfl⟩ := SharedSocket.admit?_eq_some hs
    · refine ⟨[.advance, .advance], ?_⟩
      have hreserved : resume { socket := s, closing } =
          { socket := s, stage := .reserved, closing } := by
        rw [resume]
        simp only [ht, if_pos hopen, if_pos hroom]
      rw [run_cons, hresume, hreserved, run_cons, act_advance rfl, advance]
      simp only [handOver, ht]
      rfl
    · obtain ⟨rest, hrest⟩ := exists_discard
        (t := { socket := { s with task := .idle }, closing }) rfl .distributor p
      refine ⟨.advance :: rest, ?_⟩
      rw [run_cons, hresume, resume]
      simp only [ht, if_neg hclosed]
      rw [hrest, SharedSocket.discard_withTask]
  | @forwards _ p d ht hs =>
    have hforward := hs
    obtain ⟨peer, hpeer, ⟨hl, -, rfl⟩ | ⟨hdead, rfl⟩⟩ := SharedSocket.forward?_eq_some hs
    · refine ⟨[.advance], ?_⟩
      have hstatus : s.status? p = some (peer.address, true) :=
        SharedSocket.livesAt_of_peers hpeer hl
      rw [run_cons, hresume, resume]
      simp only [ht, hstatus, hforward, Option.getD_some]
      rfl
    · refine ⟨[.advance, .strike .distributor peer.address], ?_⟩
      have hstatus := SharedSocket.status?_of_peers hpeer
      rw [Bool.not_eq_true] at hdead
      rw [hdead] at hstatus
      rw [run_cons, hresume, resume, run_cons]
      simp only [ht, hstatus]
      rw [act, if_pos List.mem_cons_self]
      simp only [List.erase_cons_head]
      rfl
  | @takes a d rest _ ht hi =>
    obtain ⟨more, hmore⟩ := exists_take { s with inbox := rest } a (SharedSocket.received d) closing
    refine ⟨.advance :: more, ?_⟩
    rw [run_cons, hresume, resume]
    simp only [ht, hi] at hmore ⊢
    exact hmore
  | notices ht _ hsignal => exact exists_notice s ht hsignal closing

theorem proceed_drained (h : s.waiting = []) (forGood : Bool) :
    proceed { socket := s, closing := .draining forGood } =
      if forGood then { socket := s, closing := .gone }
      else { socket := { s with signal := true } } := by
  simp only [proceed, h]

theorem exists_closeQueue (s : SharedSocket) (forGood : Bool) :
    ∃ schedule,
      run { socket := { s with isOpen := false }, closing := .draining forGood } schedule =
        if forGood then { socket := s.closeQueue, closing := .gone }
        else { socket := { s.closeQueue with signal := true } } := by
  obtain ⟨drain, hdrain⟩ := exists_drain { s with isOpen := false } forGood s.waiting
  refine ⟨drain ++ [.proceed], ?_⟩
  rw [run_append, hdrain, run_cons, act_proceed rfl]
  exact proceed_drained (SharedSocket.waiting_closeQueue s) forGood

/-- A move is a run of steps in which nobody is interrupted. -/
theorem exists_run (s : SharedSocket) (x : Move) (closing : Closing)
    (hx : x.IsOwners → closing = .none) :
    ∃ schedule, run { socket := s, closing } schedule =
      { socket := s.act x, closing := if x = .abandon then .gone else closing } := by
  cases x with
  | arrive a d => exact ⟨[.arrive a d], rfl⟩
  | distribute => exact exists_distribute s closing
  | notice =>
    rw [SharedSocket.act]
    split
    · next h => exact exists_notice s h.1 h.2.1 closing
    · exact ⟨[], rfl⟩
  | accept =>
    obtain rfl := hx trivial
    exact ⟨[.accept], rfl⟩
  | connectFrom a =>
    obtain rfl := hx trivial
    refine ⟨[.connectFrom a], ?_⟩
    by_cases hopen : s.isOpen = true
    · rw [run_cons, act, SharedSocket.act, if_pos hopen, if_pos ⟨rfl, hopen⟩]
      rfl
    · rw [run_cons, act, SharedSocket.act, if_neg hopen, if_neg fun h => hopen h.2]
      rfl
  | read n p =>
    refine ⟨[.read n p], ?_⟩
    by_cases hout : s.isHandedOut p = true
    · rw [run_cons, act, SharedSocket.act, if_pos hout, if_pos hout]
      rfl
    · rw [run_cons, act, SharedSocket.act, if_neg hout, if_neg hout]
      rfl
  | close p =>
    rw [SharedSocket.act]
    split
    · next hout =>
      obtain ⟨a, hstrike⟩ := exists_strike (t := { socket := s, closing }) rfl (.holder p) p
      refine ⟨[.hangUp p, .strike (.holder p) a], ?_⟩
      rw [run_cons, act, if_pos hout]
      exact hstrike
    · exact ⟨[], rfl⟩
  | discard p =>
    rw [SharedSocket.act]
    split
    · next hout =>
      obtain ⟨rest, hrest⟩ := exists_discard (t := { socket := s, closing }) rfl (.holder p) p
      refine ⟨.hangUp p :: rest, ?_⟩
      rw [run_cons, act, if_pos hout]
      exact hrest
    · exact ⟨[], rfl⟩
  | shutDown =>
    obtain rfl := hx trivial
    obtain ⟨drain, hdrain⟩ := exists_closeQueue s false
    exact ⟨.shutDown :: drain, hdrain⟩
  | abandon =>
    obtain rfl := hx trivial
    obtain ⟨drain, hdrain⟩ := exists_closeQueue s.dismiss true
    have htold : act { socket := s, closing := .looked s.table.isEmpty } .proceed =
        { socket := s.dismiss, closing := .told } := by
      rw [act_proceed rfl, proceed, SharedSocket.dismiss]
      cases s.table.isEmpty with
      | true => rfl
      | false => rfl
    refine ⟨.abandon :: .proceed :: .proceed :: drain, ?_⟩
    have hlooked : act { socket := s } .abandon =
        { socket := s, closing := .looked s.table.isEmpty } := rfl
    rw [run_cons, hlooked, run_cons, htold]
    exact hdrain

/-- A schedule of moves is one of steps in which nobody is interrupted. -/
theorem exists_run_moves (s : SharedSocket) (schedule : List Move) (closing : Closing)
    (hleaves : Move.LeavesOnce schedule)
    (hx : (∃ x ∈ schedule, x.IsOwners) → closing = .none) :
    ∃ steps closing', run { socket := s, closing } steps =
      { socket := s.run schedule, closing := closing' } := by
  induction schedule generalizing s closing with
  | nil => exact ⟨[], closing, rfl⟩
  | cons x schedule ih =>
    obtain ⟨first, hfirst⟩ := exists_run s x closing fun h => hx ⟨x, List.mem_cons_self, h⟩
    have hlater : (∃ y ∈ schedule, y.IsOwners) →
        (if x = .abandon then .gone else closing) = .none := by
      rintro ⟨y, hy, howners⟩
      split
      · next habandon => exact (hleaves.1 habandon y hy howners).elim
      · exact hx ⟨y, List.mem_cons_of_mem x hy, howners⟩
    obtain ⟨rest, closing', hrest⟩ := ih (s.act x) _ hleaves.2 hlater
    refine ⟨first ++ rest, closing', ?_⟩
    rw [run_append, hfirst, hrest]
    rfl

end Interleaving

end Wirebench.Loopback

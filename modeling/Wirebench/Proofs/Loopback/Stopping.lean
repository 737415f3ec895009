import Wirebench.Proofs.Loopback.Ownership

namespace Wirebench.Loopback.SharedSocket

variable {s t u : SharedSocket} {a : SocketAddress} {p q : Nat} {peer : Peer} {d : Datagram}

/-- Peers may have been released. What was signalled still is, and when the table has become empty
that is signalled too. -/
structure Alerts (s t : SharedSocket) : Prop where
  isOpen : t.isOpen = s.isOpen
  isCancelled : t.isCancelled = s.isCancelled
  task : t.task = s.task
  signal : s.signal = true → t.signal = true
  emptied : t.table = [] → s.table = [] ∨ t.signal = true
  empty : s.table = [] → t.table = []

namespace Alerts

theorem refl (s : SharedSocket) : Alerts s s := ⟨rfl, rfl, rfl, id, .inl, id⟩

theorem trans (h : Alerts s t) (h' : Alerts t u) : Alerts s u where
  isOpen := h'.isOpen.trans h.isOpen
  isCancelled := h'.isCancelled.trans h.isCancelled
  task := h'.task.trans h.task
  signal hs := h'.signal (h.signal hs)
  emptied hu := by
    rcases h'.emptied hu with ht | hsignal
    · exact (h.emptied ht).imp_right h'.signal
    · exact .inr hsignal
  empty hs := h'.empty (h.empty hs)

theorem strike (s : SharedSocket) (a : SocketAddress) : Alerts s (s.strike a) where
  isOpen := rfl
  isCancelled := rfl
  task := rfl
  signal hs := by
    rw [SharedSocket.strike, hs]
    rfl
  emptied ht := by
    have hempty : (s.table.filter (·.1 ≠ a)).isEmpty = true := List.isEmpty_iff.2 ht
    right
    rw [SharedSocket.strike]
    exact Bool.or_eq_true_iff.2 (.inr hempty)
  empty hs := by
    rw [SharedSocket.strike, hs]
    rfl

theorem release (s : SharedSocket) (p : Nat) : Alerts s (s.release p) := by
  by_cases h : ∃ a, s.LivesAt p a
  · obtain ⟨a, h⟩ := h
    rw [release_of_livesAt h]
    have hmodified : Alerts s
        { s with peers := s.peers.modify p fun p => { p with isLive := false } } :=
      ⟨rfl, rfl, rfl, id, .inl, id⟩
    exact hmodified.trans (strike _ a)
  · rw [release_of_dead fun a ha => h ⟨a, ha⟩]
    exact .refl s

theorem discard (s : SharedSocket) (p : Nat) : Alerts s (s.discard p) :=
  (release s p).trans ⟨rfl, rfl, rfl, id, .inl, id⟩

theorem discardAll (s : SharedSocket) (ps : List Nat) : Alerts s (ps.foldl .discard s) := by
  induction ps generalizing s with
  | nil => exact .refl s
  | cons p ps ih => exact (discard s p).trans (ih _)

end Alerts

/-- The distributor has stopped only if it is not needed, and if it is not needed it has been
told. -/
structure Attentive (s : SharedSocket) : Prop where
  stopped : s.task = .stopped → s.isOpen = false ∧ s.table = []
  told : s.isOpen = false → s.table = [] → s.task ≠ .stopped → s.isCancelled = false →
    s.signal = true

namespace Attentive

theorem start : Attentive {} where
  stopped := nofun
  told := nofun

theorem alerts (h : s.Attentive) (hs : Alerts s t) : t.Attentive where
  stopped ht := by
    rw [hs.task] at ht
    rw [hs.isOpen]
    exact ⟨(h.stopped ht).1, hs.empty (h.stopped ht).2⟩
  told hclosed hempty hgoing hc := by
    rw [hs.isOpen] at hclosed
    rw [hs.task] at hgoing
    rw [hs.isCancelled] at hc
    rcases hs.emptied hempty with hbefore | hsignal
    · exact hs.signal (h.told hclosed hbefore hgoing hc)
    · exact hsignal

theorem withTask (h : s.Attentive) (hgoing : s.task ≠ .stopped) {task : Task}
    (htask : task ≠ .stopped) : Attentive { s with task } where
  stopped ht := (htask ht).elim
  told hclosed hempty _ := h.told hclosed hempty hgoing

theorem opened (hopen : s.isOpen = true) (hgoing : s.task ≠ .stopped) : s.Attentive where
  stopped ht := (hgoing ht).elim
  told hclosed := by
    cases hopen.symm.trans hclosed

theorem isStopped (hopen : s.isOpen = false) (hempty : s.table = [])
    (hstopped : s.task = .stopped) : s.Attentive where
  stopped _ := ⟨hopen, hempty⟩
  told _ _ hgoing := (hgoing hstopped).elim

theorem signalled (hsignal : s.signal = true)
    (hstopped : s.task = .stopped → s.isOpen = false ∧ s.table = []) : s.Attentive where
  stopped := hstopped
  told _ _ _ _ := hsignal

theorem ite {c : Prop} [Decidable c] (h : s.Attentive) (ht : c → t.Attentive) :
    (if c then t else s).Attentive := by
  split
  · next hc => exact ht hc
  · exact h

theorem take (h : s.Attentive) (hidle : s.task = .idle) (a : SocketAddress) (d : Datagram) :
    (s.take a d).Attentive := by
  have hgoing : s.task ≠ .stopped := by
    rw [hidle]
    nofun
  cases hp : s.peerFor? a with
  | some p =>
    rw [take_known hp]
    exact h.withTask hgoing nofun
  | none =>
    by_cases hopen : s.isOpen = true
    · rw [take_new hp hopen]
      exact opened hopen nofun
    · rw [take_closed hp hopen]
      exact h

theorem admit? (h : s.Attentive) (ht : s.task = .admitting p d) (hs : s.admit? p d = some t) :
    t.Attentive := by
  obtain ⟨hopen, -, rfl⟩ | ⟨-, rfl⟩ := admit?_eq_some hs
  · exact opened hopen nofun
  · have hdiscarded := Alerts.discard s p
    apply (h.alerts hdiscarded).withTask
    · rw [hdiscarded.task, ht]
      nofun
    · nofun

theorem forward? (h : s.Attentive) (ht : s.task = .forwarding p d) (hs : s.forward? p d = some t) :
    t.Attentive := by
  have hgoing : s.task ≠ .stopped := by
    rw [ht]
    nofun
  obtain ⟨peer, -, ⟨-, -, rfl⟩ | ⟨-, rfl⟩⟩ := forward?_eq_some hs
  · have hidle : Attentive { s with task := .idle } := h.withTask hgoing nofun
    exact ⟨hidle.stopped, hidle.told⟩
  · exact (h.alerts (.strike s peer.address)).withTask hgoing nofun

/-- A signal is used up only when the distributor stops, or is still needed. -/
theorem notice (hidle : s.task = .idle) : s.notice.Attentive := by
  rw [SharedSocket.notice]
  split
  · next hend =>
    rw [Bool.and_eq_true, Bool.not_eq_true'] at hend
    exact isStopped hend.1 (List.isEmpty_iff.1 hend.2) rfl
  · next hneeded =>
    constructor
    · intro hstopped
      cases hidle.symm.trans hstopped
    · intro hclosed hempty
      apply (hneeded _).elim
      rw [hclosed, hempty]
      rfl

theorem stop (h : s.Regular) (hc : s.isCancelled = true) : s.stop.Attentive := by
  obtain ⟨hclosed, hempty⟩ := h.cancelled hc
  rw [SharedSocket.stop]
  split
  · next p _ _ =>
    have hdiscarded := Alerts.discard s p
    exact isStopped (hdiscarded.isOpen.trans hclosed) (hdiscarded.empty hempty) rfl
  · exact isStopped hclosed hempty rfl
  · exact isStopped hclosed hempty rfl
  · exact isStopped hclosed hempty rfl

theorem distributes (h : s.Attentive) (hr : s.Regular) (hs : s.Distributes t) : t.Attentive := by
  cases hs with
  | stops hc => exact stop hr hc
  | rests => exact h
  | admits ht hs => exact h.admit? ht hs
  | forwards ht hs => exact h.forward? ht hs
  | @takes a d rest _ ht _ =>
    have hrest : Attentive { s with inbox := rest } := ⟨h.stopped, h.told⟩
    exact hrest.take ht a (received d)
  | notices ht => exact notice ht

theorem accept (h : s.Attentive) : s.accept.2.Attentive := by
  rw [SharedSocket.accept]
  split
  · split
    · exact ⟨h.stopped, h.told⟩
    · exact h
  · exact h

theorem read (h : s.Attentive) (n p : Nat) : (s.read n p).2.Attentive := by
  rw [SharedSocket.read]
  split
  · exact h
  · exact ⟨h.stopped, h.told⟩

theorem connectFrom (h : s.Attentive) (hopen : s.isOpen = true) (a : SocketAddress) :
    (s.addPeer a).2.Attentive := by
  have hgoing : s.task ≠ .stopped := by
    intro hstopped
    cases hopen.symm.trans (h.stopped hstopped).1
  exact opened (s := (s.addPeer a).2) hopen hgoing

/-- The signal comes last, when what waited has been let go of. -/
theorem shutDown (h : s.Attentive) : s.shutDown.Attentive := by
  have hdiscarded := Alerts.discardAll { s with isOpen := false, waiting := [] } s.waiting
  apply signalled rfl
  intro hstopped
  exact ⟨hdiscarded.isOpen, hdiscarded.empty (h.stopped (hdiscarded.task.symm.trans hstopped)).2⟩

theorem abandon (h : s.Attentive) : s.abandon.Attentive := by
  rw [SharedSocket.abandon, dismiss]
  split
  · next hempty =>
    apply alerts _ (.discardAll _ s.waiting)
    constructor
    · intro _
      exact ⟨rfl, List.isEmpty_iff.1 hempty⟩
    · intro _ _ _ hgoing
      cases hgoing
  · apply alerts _ (.discardAll _ s.waiting)
    exact signalled rfl fun hstopped => ⟨rfl, (h.stopped hstopped).2⟩

theorem act (h : s.Attentive) (hr : s.Regular) (x : Move) : (s.act x).Attentive := by
  cases x with
  | arrive a d => exact ⟨h.stopped, h.told⟩
  | distribute => exact h.distributes hr (distributes_act s)
  | notice => exact h.ite fun hidle => notice hidle.1
  | accept => exact h.accept
  | connectFrom a => exact h.ite fun hopen => h.connectFrom hopen a
  | read n p => exact h.ite fun _ => h.read n p
  | close p => exact h.ite fun _ => h.alerts (.release s p)
  | discard p => exact h.ite fun _ => h.alerts (.discard s p)
  | shutDown => exact h.shutDown
  | abandon => exact h.abandon

theorem run (h : s.Attentive) (hr : s.Regular) (schedule : List Move)
    (hs : s.Careful schedule) : (s.run schedule).Attentive := by
  induction schedule generalizing s with
  | nil => exact h
  | cons x schedule ih => exact ih (h.act hr x) (hr.act x hs.1) hs.2

end Attentive

theorem Regular.dead_of_empty (h : s.Regular) (hempty : s.table = []) (p : Nat)
    (a : SocketAddress) : ¬s.LivesAt p a := by
  intro hl
  have hentry := (h.entry a p).2 hl
  rw [peerFor?, hempty] at hentry
  cases hentry

/-- The acceptor is closed and no peer is left. -/
structure Unneeded (s : SharedSocket) : Prop where
  regular : s.Regular
  attentive : s.Attentive
  isClosed : s.isOpen = false
  isEmpty : s.table = []

/-- The steps that are left to a distributor that is not needed. -/
def stepsLeft (s : SharedSocket) : Nat :=
  match s.task with
  | .stopped => 0
  | .idle => s.inbox.length + 1
  | .admitting .. | .forwarding .. => s.inbox.length + 2

namespace Unneeded

theorem notAdmitting (h : s.Unneeded) (ht : s.task = .admitting p d) : False := by
  obtain ⟨-, a, ha⟩ := h.regular.newcomer p (congrArg Task.newcomer? ht)
  exact h.regular.dead_of_empty h.isEmpty p a ha

theorem forwards (h : s.Unneeded) (ht : s.task = .forwarding p d) :
    ∃ b, s.forward? p d = some { s.strike b with task := .idle } := by
  obtain ⟨a, live, ha, -⟩ := h.regular.hand p d ht
  obtain ⟨peer, hpeer, -⟩ := Option.map_eq_some_iff.1 ha
  have hdead : ¬peer.isLive = true := by
    intro hl
    exact h.regular.dead_of_empty h.isEmpty p _ (livesAt_of_peers hpeer hl)
  apply Exists.intro peer.address
  rw [SharedSocket.forward?, hpeer]
  exact if_neg hdead

/-- A datagram in the inbox is dropped, whoever has sent it. -/
theorem takes (h : s.Unneeded) (inbox : List (SocketAddress × Datagram)) (a : SocketAddress)
    (d : Datagram) : { s with inbox }.take a d = { s with inbox } := by
  apply take_closed
  · rw [peerFor?, h.isEmpty]
    rfl
  · rw [h.isClosed]
    nofun

theorem notices (h : s.Unneeded) : s.notice = { s with signal := false, task := .stopped } := by
  have hend : (!s.isOpen && s.table.isEmpty) = true := by
    rw [h.isClosed, h.isEmpty]
    rfl
  exact if_pos hend

theorem stops_at_once (h : s.Unneeded) :
    s.stop.isOpen = false ∧ s.stop.table = [] ∧ s.stop.task = .stopped := by
  rw [SharedSocket.stop]
  split
  · next p d ht => exact (h.notAdmitting ht).elim
  · exact ⟨h.isClosed, h.isEmpty, rfl⟩
  · exact ⟨h.isClosed, h.isEmpty, rfl⟩
  · exact ⟨h.isClosed, h.isEmpty, rfl⟩

end Unneeded

/-- The distributor is still not needed, and has a step less to do. -/
structure Nearer (s t : SharedSocket) : Prop where
  isClosed : t.isOpen = false
  isEmpty : t.table = []
  steps : t.stepsLeft ≤ s.stepsLeft - 1

namespace Unneeded

theorem nearer_stopped (hclosed : t.isOpen = false) (hempty : t.table = [])
    (hstopped : t.task = .stopped) : Nearer s t := by
  refine ⟨hclosed, hempty, ?_⟩
  rw [stepsLeft, hstopped]
  exact Nat.zero_le _

theorem nearer_work (h : s.Unneeded) (hgoing : s.task ≠ .stopped) (hc : s.isCancelled = false) :
    ∃ t, s.work? = some t ∧ Nearer s t := by
  rw [work?]
  cases ht : s.task with
  | stopped => exact (hgoing ht).elim
  | admitting p d => exact (h.notAdmitting ht).elim
  | forwarding p d =>
    obtain ⟨b, hb⟩ := h.forwards ht
    refine ⟨_, hb, h.isClosed, (Alerts.strike s b).empty h.isEmpty, ?_⟩
    rw [stepsLeft, stepsLeft, ht]
    exact Nat.le_refl _
  | idle =>
    cases hi : s.inbox with
    | nil =>
      have hsignal := h.attentive.told h.isClosed h.isEmpty hgoing hc
      refine ⟨s.notice, if_pos hsignal, ?_⟩
      rw [h.notices]
      exact nearer_stopped h.isClosed h.isEmpty rfl
    | cons x rest =>
      refine ⟨{ s with inbox := rest }, ?_, h.isClosed, h.isEmpty, ?_⟩
      · simp only [← ht, h.takes rest x.1 (received x.2)]
      · simp only [stepsLeft, ht, hi]
        exact Nat.le_refl _

theorem nearer_distribute (h : s.Unneeded) : Nearer s (s.act .distribute) := by
  rw [act, distribute?]
  by_cases hstop : s.isCancelled = true ∧ s.task ≠ .stopped
  · obtain ⟨hclosed, hempty, hstopped⟩ := h.stops_at_once
    rw [if_pos hstop]
    exact nearer_stopped hclosed hempty hstopped
  · rw [if_neg hstop]
    by_cases hstopped : s.task = .stopped
    · rw [work?, hstopped]
      exact nearer_stopped h.isClosed h.isEmpty hstopped
    · have hc : s.isCancelled = false := by
        rw [← Bool.not_eq_true]
        exact fun hc => hstop ⟨hc, hstopped⟩
      obtain ⟨t, ht, hnearer⟩ := h.nearer_work hstopped hc
      rw [ht]
      exact hnearer

theorem distribute (h : s.Unneeded) : (s.act .distribute).Unneeded where
  regular := h.regular.act .distribute trivial
  attentive := h.attentive.act h.regular .distribute
  isClosed := h.nearer_distribute.isClosed
  isEmpty := h.nearer_distribute.isEmpty

theorem run_distribute (h : s.Unneeded) (n : Nat) (hn : s.stepsLeft ≤ n) :
    (s.run (List.replicate n .distribute)).task = .stopped := by
  induction n generalizing s with
  | zero =>
    show s.task = .stopped
    rw [stepsLeft] at hn
    split at hn
    · assumption
    · omega
    · omega
    · omega
  | succ n ih =>
    have hsteps := h.nearer_distribute.steps
    exact ih h.distribute (by omega)

end Unneeded

/-- Nothing keeps the distributor from stopping. -/
structure Stops (s : SharedSocket) : Prop where
  /-- A signal is there, unless it has been told to stop at once. -/
  told : s.task ≠ .stopped → s.isCancelled = false → s.signal = true
  /-- It stops as soon as it looks at the signal. -/
  noticed : s.task = .idle → s.isCancelled = false → (s.act .notice).task = .stopped
  cancelled : s.isCancelled = true → (s.act .distribute).task = .stopped
  /-- It stops although it looks at the datagrams first. -/
  stops : ∀ n, s.inbox.length + 2 ≤ n → (s.run (List.replicate n .distribute)).task = .stopped

theorem Unneeded.stops (h : s.Unneeded) : s.Stops where
  told := h.attentive.told h.isClosed h.isEmpty
  noticed hidle hc := by
    have hgoing : s.task ≠ .stopped := by
      rw [hidle]
      nofun
    have hsignal := h.attentive.told h.isClosed h.isEmpty hgoing hc
    have hnotcancelled : ¬s.isCancelled = true := by
      rw [hc]
      nofun
    rw [act, if_pos ⟨hidle, hsignal, hnotcancelled⟩, h.notices]
  cancelled hc := by
    rw [act, distribute?]
    by_cases hstopped : s.task = .stopped
    · rw [if_neg fun hstop => hstop.2 hstopped, work?, hstopped]
      exact hstopped
    · rw [if_pos ⟨hc, hstopped⟩]
      exact h.stops_at_once.2.2
  stops n hn := by
    apply h.run_distribute
    rw [stepsLeft]
    split <;> omega

end Wirebench.Loopback.SharedSocket

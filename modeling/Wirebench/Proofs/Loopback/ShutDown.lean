import Wirebench.Proofs.Loopback.Stopping

namespace Wirebench.Loopback.SharedSocket

variable {s t u : SharedSocket} {a : SocketAddress} {p q : Nat} {d : Datagram}

theorem livesAt_discard : (s.discard p).LivesAt q a ↔ s.LivesAt q a ∧ q ≠ p := by
  rw [LivesAt, status?_discard]
  exact livesAt_release

theorem livesAt_discardAll {ps : List Nat} :
    (ps.foldl discard s).LivesAt q a ↔ s.LivesAt q a ∧ q ∉ ps := by
  induction ps generalizing s with
  | nil => exact ⟨fun h => ⟨h, List.not_mem_nil⟩, And.left⟩
  | cons p ps ih =>
    rw [List.foldl_cons, ih, livesAt_discard, List.mem_cons, not_or, and_assoc]

/-- Only peers of which `released` holds are released, with the address they had; the others are as
they were. Nobody new comes: what waits and what the distributor hands over has been there
before. -/
structure Wanes (released : Nat → Prop) (s t : SharedSocket) : Prop where
  isOpen : t.isOpen = true → s.isOpen = true
  waiting : ∀ p ∈ t.waiting, p ∈ s.waiting
  newcomer : t.task.newcomer? = s.task.newcomer? ∨
    t.task.newcomer? = none ∧ ∀ p, s.task.newcomer? = some p → ∀ a, ¬t.LivesAt p a
  peers : ∀ p, t.status? p = s.status? p ∨
    released p ∧ t.status? p = (s.status? p).map fun x => (x.1, false)

namespace Wanes

variable {R R' : Nat → Prop}

theorem of_same (hopen : t.isOpen = true → s.isOpen = true)
    (hwaiting : ∀ p ∈ t.waiting, p ∈ s.waiting) (hnewcomer : t.task.newcomer? = s.task.newcomer?)
    (hstatus : ∀ p, t.status? p = s.status? p) : Wanes R s t :=
  ⟨hopen, hwaiting, .inl hnewcomer, fun p => .inl (hstatus p)⟩

theorem refl (s : SharedSocket) : Wanes R s s := .of_same id (fun _ => id) rfl fun _ => rfl

theorem mono (h : Wanes R s t) (hR : ∀ p, R p → R' p) : Wanes R' s t :=
  ⟨h.isOpen, h.waiting, h.newcomer, fun p => (h.peers p).imp_right (And.imp_left (hR p))⟩

theorem dead (h : Wanes R s t) (hdead : ∀ a, ¬s.LivesAt p a) (a : SocketAddress) :
    ¬t.LivesAt p a := by
  intro hl
  rcases h.peers p with hsame | ⟨-, hreleased⟩
  · exact hdead a (hsame.symm.trans hl)
  · rw [LivesAt, hreleased, Option.map_eq_some_iff] at hl
    obtain ⟨x, -, hx⟩ := hl
    cases hx

theorem trans (h : Wanes R s t) (h' : Wanes R t u) : Wanes R s u where
  isOpen hu := h.isOpen (h'.isOpen hu)
  waiting p hp := h.waiting p (h'.waiting p hp)
  newcomer := by
    rcases h'.newcomer with hsame' | ⟨hnone', hdead'⟩
    · rcases h.newcomer with hsame | ⟨hnone, hdead⟩
      · exact .inl (hsame'.trans hsame)
      · exact .inr ⟨hsame'.trans hnone, fun p hp => h'.dead (hdead p hp)⟩
    · rcases h.newcomer with hsame | ⟨-, hdead⟩
      · exact .inr ⟨hnone', fun p hp => hdead' p (hsame.trans hp)⟩
      · exact .inr ⟨hnone', fun p hp => h'.dead (hdead p hp)⟩
  peers p := by
    rcases h.peers p with hsame | ⟨hp, hreleased⟩
    · rw [← hsame]
      exact h'.peers p
    · right
      apply And.intro hp
      rcases h'.peers p with hsame' | ⟨-, hreleased'⟩
      · exact hsame'.trans hreleased
      · rw [hreleased', hreleased, Option.map_map]
        rfl

theorem release (s : SharedSocket) (p : Nat) : Wanes (· = p) s (s.release p) where
  isOpen h := isOpen_release s p ▸ h
  waiting q hq := waiting_release s p ▸ hq
  newcomer := .inl (congrArg Task.newcomer? (task_release s p))
  peers q := by
    rw [status?_release, status?_hangUp]
    split
    · next hq => exact .inr ⟨hq, rfl⟩
    · exact .inl rfl

theorem discard (s : SharedSocket) (p : Nat) : Wanes (· = p) s (s.discard p) :=
  (release s p).trans (.of_same id (fun _ => id) rfl (status?_discard s p))

theorem discardAll (s : SharedSocket) (ps : List Nat) : Wanes (· ∈ ps) s (ps.foldl .discard s) := by
  induction ps generalizing s with
  | nil => exact .refl s
  | cons p ps ih =>
    have hfirst : Wanes (· ∈ p :: ps) s (s.discard p) :=
      (discard s p).mono fun q hq => List.mem_cons.2 (.inl hq)
    exact hfirst.trans ((ih _).mono fun q hq => List.mem_cons_of_mem p hq)

theorem discardNewcomer (ht : s.task = .admitting p d) {task : Task}
    (htask : task.newcomer? = none) :
    Wanes (s.task.newcomer? = some ·) s { s.discard p with task } where
  isOpen := (discard s p).isOpen
  waiting := (discard s p).waiting
  newcomer := by
    refine .inr ⟨htask, ?_⟩
    intro q hq a hl
    rw [ht] at hq
    cases hq
    exact (livesAt_discard.1 hl).2 rfl
  peers q := by
    refine ((discard s p).peers q).imp_right (And.imp_left ?_)
    intro hq
    rw [hq, ht]
    rfl

end Wanes

/-- The peers that a move can release: the one that is closed or let go of, and those that have not
been handed out. -/
def Releases (s : SharedSocket) (x : Move) (p : Nat) : Prop :=
  x = .close p ∨ x = .discard p ∨ s.isHandedOut p = false

theorem isHandedOut_eq_false :
    s.isHandedOut p = false ↔ p ∈ s.waiting ∨ s.task.newcomer? = some p := by
  rw [isHandedOut, Bool.and_eq_false_iff, Bool.not_eq_false', List.contains_iff_mem,
    decide_eq_false_iff_not, Decidable.not_not]

theorem Wanes.closed {R : Nat → Prop} (hopen : t.isOpen = false) (hwaiting : t.waiting = [])
    (hnewcomer : t.task.newcomer? = s.task.newcomer?)
    (hstatus : ∀ p, t.status? p = s.status? p) : Wanes R s t := by
  apply of_same _ _ hnewcomer hstatus
  · intro hopen'
    exact absurd hopen' (ne_true_of_eq_false hopen)
  · rw [hwaiting]
    exact List.forall_mem_nil _

theorem Wanes.shutDown (s : SharedSocket) : Wanes (· ∈ s.waiting) s s.shutDown := by
  have hclosed : Wanes (· ∈ s.waiting) s { s with isOpen := false, waiting := [] } :=
    .closed rfl rfl rfl fun _ => rfl
  have hdiscarded := hclosed.trans (discardAll _ s.waiting)
  exact hdiscarded.trans (.of_same id (fun _ => id) rfl fun _ => rfl)

theorem Wanes.abandon (s : SharedSocket) : Wanes (· ∈ s.waiting) s s.abandon := by
  rw [SharedSocket.abandon, dismiss]
  split
  · have hclosed : Wanes (· ∈ s.waiting) s
        { s with isOpen := false, waiting := [], isCancelled := true } :=
      .closed rfl rfl rfl fun _ => rfl
    exact hclosed.trans (discardAll _ s.waiting)
  · have hclosed : Wanes (· ∈ s.waiting) s
        { s with isOpen := false, waiting := [], signal := true } :=
      .closed rfl rfl rfl fun _ => rfl
    exact hclosed.trans (discardAll _ s.waiting)

theorem Wanes.notice (ht : s.task = .idle) {R : Nat → Prop} : Wanes R s s.notice := by
  rw [SharedSocket.notice]
  split
  · exact .of_same id (fun _ => id) (ht ▸ rfl) fun _ => rfl
  · exact .of_same id (fun _ => id) rfl fun _ => rfl

theorem Wanes.ite {c : Prop} [Decidable c] {R : Nat → Prop} (h : c → Wanes R s t) :
    Wanes R s (if c then t else s) := by
  split
  · next hc => exact h hc
  · exact .refl s

theorem Wanes.read (s : SharedSocket) (n p : Nat) {R : Nat → Prop} : Wanes R s (s.read n p).2 := by
  rw [SharedSocket.read]
  cases hp : s.peers[p]? with
  | none => exact .refl s
  | some peer =>
    exact .of_same id (fun _ => id) rfl
      (status?_set hp (peer.read_address n) (peer.read_isLive n))

theorem Wanes.distributes (hclosed : s.isOpen = false) (hs : s.Distributes t) :
    Wanes (s.task.newcomer? = some ·) s t := by
  cases hs with
  | stops =>
    rw [stop]
    split
    · next ht => exact discardNewcomer ht rfl
    · next ht => exact .of_same id (fun _ => id) (ht ▸ rfl) fun _ => rfl
    · next ht => exact .of_same id (fun _ => id) (ht ▸ rfl) fun _ => rfl
    · next ht => exact .of_same id (fun _ => id) (ht ▸ rfl) fun _ => rfl
  | rests => exact .refl s
  | admits ht hs =>
    obtain ⟨hopen, -⟩ | ⟨-, rfl⟩ := admit?_eq_some hs
    · cases hclosed.symm.trans hopen
    · exact discardNewcomer ht rfl
  | forwards ht hs =>
    obtain ⟨peer, -, ⟨-, -, rfl⟩ | ⟨-, rfl⟩⟩ := forward?_eq_some hs
    · exact .of_same id (fun _ => id) (ht ▸ rfl) (status?_modify (fun _ => rfl) fun _ => rfl)
    · exact .of_same id (fun _ => id) (ht ▸ rfl) fun _ => rfl
  | @takes a d rest _ ht _ =>
    have hclosed' : ¬{ s with inbox := rest }.isOpen = true := ne_true_of_eq_false hclosed
    cases hp : { s with inbox := rest }.peerFor? a with
    | some p =>
      rw [take_known hp]
      exact .of_same id (fun _ => id) (ht ▸ rfl) fun _ => rfl
    | none =>
      rw [take_closed hp hclosed']
      exact .of_same id (fun _ => id) rfl fun _ => rfl
  | notices ht => exact notice ht

theorem Wanes.act (hclosed : s.isOpen = false) (x : Move) : Wanes (s.Releases x) s (s.act x) := by
  have hnotopen : ¬s.isOpen = true := ne_true_of_eq_false hclosed
  cases x with
  | arrive b d => exact .of_same id (fun _ => id) rfl fun _ => rfl
  | distribute =>
    apply (Wanes.distributes hclosed (distributes_act s)).mono
    intro p hp
    exact .inr (.inr (isHandedOut_eq_false.2 (.inr hp)))
  | notice => exact .ite fun hidle => .notice hidle.1
  | accept =>
    rw [SharedSocket.act, accept, if_neg hnotopen]
    exact .refl s
  | connectFrom b =>
    rw [SharedSocket.act, if_neg hnotopen]
    exact .refl s
  | read n q => exact .ite fun _ => .read s n q
  | close q => exact .ite fun _ => (Wanes.release s q).mono fun p hp => .inl (hp ▸ rfl)
  | discard q =>
    exact .ite fun _ => (Wanes.discard s q).mono fun p hp => .inr (.inl (hp ▸ rfl))
  | shutDown =>
    apply (Wanes.shutDown s).mono
    intro p hp
    exact .inr (.inr (isHandedOut_eq_false.2 (.inl hp)))
  | abandon =>
    apply (Wanes.abandon s).mono
    intro p hp
    exact .inr (.inr (isHandedOut_eq_false.2 (.inl hp)))

theorem Wanes.isClosed {R : Nat → Prop} (h : Wanes R s t) (hclosed : s.isOpen = false) :
    t.isOpen = false := by
  rw [← Bool.not_eq_true]
  intro hopen
  cases hclosed.symm.trans (h.isOpen hopen)

theorem Wanes.isHandedOut {R : Nat → Prop} (h : Wanes R s t) (hp : t.isHandedOut p = false) :
    s.isHandedOut p = false := by
  rw [isHandedOut_eq_false] at hp ⊢
  rcases hp with hwaiting | hnewcomer
  · exact .inl (h.waiting p hwaiting)
  · rcases h.newcomer with hsame | ⟨hnone, -⟩
    · exact .inr (hsame.symm.trans hnewcomer)
    · cases hnone.symm.trans hnewcomer

theorem Wanes.run (hclosed : s.isOpen = false) (schedule : List Move) :
    Wanes (fun p => .close p ∈ schedule ∨ .discard p ∈ schedule ∨ s.isHandedOut p = false) s
      (s.run schedule) := by
  induction schedule generalizing s with
  | nil => exact .refl s
  | cons x schedule ih =>
    have hfirst := Wanes.act hclosed x
    refine (hfirst.mono ?_).trans ((ih (hfirst.isClosed hclosed)).mono ?_)
    · rintro p (rfl | rfl | hp)
      · exact .inl List.mem_cons_self
      · exact .inr (.inl List.mem_cons_self)
      · exact .inr (.inr hp)
    · rintro p (hp | hp | hp)
      · exact .inl (List.mem_cons_of_mem x hp)
      · exact .inr (.inl (List.mem_cons_of_mem x hp))
      · exact .inr (.inr (hfirst.isHandedOut hp))

/-- Once the acceptor is closed, the new peer that the distributor has in hand is let go of in its
next step. -/
theorem newcomer_distribute (hclosed : s.isOpen = false) (hp : s.task.newcomer? = some p)
    (a : SocketAddress) : ¬(s.act .distribute).LivesAt p a := by
  have hdead : ¬(s.discard p).LivesAt p a := fun hl => (livesAt_discard.1 hl).2 rfl
  have hnotopen : ¬s.isOpen = true := ne_true_of_eq_false hclosed
  cases ht : s.task with
  | admitting q d =>
    rw [ht] at hp
    cases hp
    rw [act, distribute?]
    split
    · rw [stop, ht]
      exact hdead
    · rw [work?, ht]
      simp only [admit?, if_neg hnotopen]
      exact hdead
  | idle =>
    rw [ht] at hp
    cases hp
  | forwarding =>
    rw [ht] at hp
    cases hp
  | stopped =>
    rw [ht] at hp
    cases hp

/-- The peer has been released, and no entry of the table is its own. -/
def Gone (s : SharedSocket) (p : Nat) : Prop := ∀ a, ¬s.LivesAt p a ∧ s.peerFor? a ≠ some p

theorem Regular.gone (h : s.Regular) (hdead : ∀ a, ¬s.LivesAt p a) : s.Gone p :=
  fun a => ⟨hdead a, fun hentry => hdead a ((h.entry a p).1 hentry)⟩

/-- How the peers of `s` fare when its acceptor is shut down and `more` happens. -/
structure ShutsDown (s : SharedSocket) (more : List Move) : Prop where
  /-- No endpoint can be obtained any more, and none waits. -/
  refused : (s.shutDown.run more).accept = (.error .closed, s.shutDown.run more) ∧
    (s.shutDown.run more).waiting = []
  /-- Every peer that there is has been there before, with the same address. -/
  noneNew : ∀ p a live, (s.shutDown.run more).status? p = some (a, live) →
    ∃ live', s.status? p = some (a, live')
  /-- What was never accepted is released. -/
  waiting : ∀ p ∈ s.waiting, (s.shutDown.run more).Gone p
  /-- What the distributor was handing over is released when it goes on. -/
  newcomer : ∀ p, s.task.newcomer? = some p →
    ((s.shutDown.run more).act .distribute).Gone p ∧
      ((s.shutDown.run more).task.newcomer? = some p ∨ (s.shutDown.run more).Gone p)
  /-- What has been handed out keeps its entry until it is closed or let go of. -/
  kept : ∀ p a, s.isHandedOut p = true → s.LivesAt p a → .close p ∉ more → .discard p ∉ more →
    (s.shutDown.run more).LivesAt p a ∧ (s.shutDown.run more).peerFor? a = some p

theorem careful_of_closed (hclosed : s.isOpen = false) (schedule : List Move) :
    s.Careful schedule := by
  induction schedule generalizing s with
  | nil => trivial
  | cons x schedule ih =>
    refine ⟨?_, ih ((Wanes.act hclosed x).isClosed hclosed)⟩
    cases x with
    | connectFrom a =>
      intro hopen
      cases hclosed.symm.trans hopen
    | _ => trivial

theorem isOpen_shutDown (s : SharedSocket) : s.shutDown.isOpen = false :=
  (Alerts.discardAll { s with isOpen := false, waiting := [] } s.waiting).isOpen

theorem waiting_eq_nil (h : ∀ p ∈ t.waiting, p ∈ s.waiting) (hs : s.waiting = []) :
    t.waiting = [] := by
  rw [hs] at h
  exact List.eq_nil_iff_forall_not_mem.2 fun p hp => List.not_mem_nil (h p hp)

theorem waiting_shutDown (s : SharedSocket) : s.shutDown.waiting = [] :=
  waiting_eq_nil (Wanes.discardAll { s with isOpen := false, waiting := [] } s.waiting).waiting rfl

theorem task_shutDown (s : SharedSocket) : s.shutDown.task = s.task :=
  (Alerts.discardAll { s with isOpen := false, waiting := [] } s.waiting).task

theorem livesAt_shutDown : s.shutDown.LivesAt p a ↔ s.LivesAt p a ∧ p ∉ s.waiting :=
  livesAt_discardAll (s := { s with isOpen := false, waiting := [] })

theorem Regular.shutsDown (h : s.Regular) (more : List Move) : s.ShutsDown more := by
  have hclosed := isOpen_shutDown s
  have hregular := h.shutDown.run more (careful_of_closed hclosed more)
  have hwanes := Wanes.run hclosed more
  have hclosed' := hwanes.isClosed hclosed
  have hwaiting := waiting_eq_nil hwanes.waiting (waiting_shutDown s)
  have hnext := hregular.act .distribute trivial
  constructor
  case refused =>
    refine ⟨?_, hwaiting⟩
    rw [SharedSocket.accept, hclosed']
    rfl
  case noneNew =>
    intro p a live hp
    have hwhole : Wanes (fun _ => True) s (s.shutDown.run more) :=
      ((Wanes.shutDown s).mono fun _ _ => trivial).trans (hwanes.mono fun _ _ => trivial)
    rcases hwhole.peers p with hsame | ⟨-, hreleased⟩
    · exact ⟨live, hsame.symm.trans hp⟩
    · obtain ⟨⟨b, live'⟩, hx, hb⟩ := Option.map_eq_some_iff.1 (hreleased.symm.trans hp)
      cases hb
      exact ⟨live', hx⟩
  case waiting =>
    intro p hp
    apply hregular.gone
    apply hwanes.dead
    intro a hl
    exact (livesAt_shutDown.1 hl).2 hp
  case newcomer =>
    intro p hp
    rw [← task_shutDown s] at hp
    rcases hwanes.newcomer with hsame | ⟨-, hdead⟩
    · have hstill := hsame.trans hp
      exact ⟨hnext.gone (newcomer_distribute hclosed' hstill), .inl hstill⟩
    · have hgone := hdead p hp
      exact ⟨hnext.gone ((Wanes.act hclosed' .distribute).dead hgone), .inr (hregular.gone hgone)⟩
  case kept =>
    intro p a hout hl hclose hdiscard
    have hwaits : p ∉ s.waiting ∧ s.task.newcomer? ≠ some p := by
      rw [← not_or, ← isHandedOut_eq_false]
      exact ne_false_of_eq_true hout
    have hafter := livesAt_shutDown.2 ⟨hl, hwaits.1⟩
    have hlater : (s.shutDown.run more).LivesAt p a := by
      rcases hwanes.peers p with hsame | ⟨hreleased, -⟩
      · exact hsame.trans hafter
      · rcases hreleased with hc | hd | hn
        · exact (hclose hc).elim
        · exact (hdiscard hd).elim
        · rw [isHandedOut_eq_false, waiting_shutDown, task_shutDown] at hn
          rcases hn with hn | hn
          · cases hn
          · exact (hwaits.2 hn).elim
    exact ⟨hlater, (hregular.entry a p).2 hlater⟩

/-- A shared socket comes to its end in good order, whatever the schedule, if no move is interrupted.
Once its acceptor is shut down nobody is let in, what was never accepted is released, and the other
peers keep their entries; the distributor stops only when the acceptor is closed and no peer lives;
and whenever that has come about, it has been told and stops. -/
theorem shuts_down (schedule : List Move) (hnone : ∀ a, .connectFrom a ∉ schedule) :
    (∀ more, (run {} schedule).ShutsDown more) ∧
    ((run {} schedule).task = .stopped →
      (run {} schedule).isOpen = false ∧ ∀ p a, ¬(run {} schedule).LivesAt p a) ∧
    ((run {} schedule).isOpen = false → (run {} schedule).table = [] →
      (run {} schedule).Stops) := by
  have hcareful := careful_of_notMem (s := {}) hnone
  have hregular := Regular.start.run schedule hcareful
  have hattentive := Attentive.start.run Regular.start schedule hcareful
  refine ⟨hregular.shutsDown, ?_, ?_⟩
  · intro hstopped
    obtain ⟨hclosed, hempty⟩ := hattentive.stopped hstopped
    exact ⟨hclosed, hregular.dead_of_empty hempty⟩
  · intro hclosed hempty
    exact Unneeded.stops ⟨hregular, hattentive, hclosed, hempty⟩

/-- Of three peers the first has been accepted, the second waits, and the third is being handed
over. -/
def threePeers : List Move :=
  [.arrive (.loopback 7) [1], .distribute, .distribute, .distribute, .accept,
    .arrive (.loopback 8) [2], .distribute, .distribute, .distribute,
    .arrive (.loopback 9) [3], .distribute]

theorem shuts_down_threePeers :
    ((run {} threePeers).shutDown.run [.distribute]).accept.1 = .error .closed ∧
    ((run {} threePeers).shutDown.run [.distribute]).Gone 1 ∧
    ((run {} threePeers).shutDown.act .distribute).Gone 2 ∧
    ((run {} threePeers).shutDown.run [.distribute]).peerFor? (.loopback 7) = some 0 ∧
    (run {} (threePeers ++ [.shutDown, .distribute, .close 0])).Stops := by
  have hnone : ∀ a, .connectFrom a ∉ threePeers := by
    intro a ha
    simp [threePeers] at ha
  have hnone' : ∀ a, .connectFrom a ∉ threePeers ++ [.shutDown, .distribute, .close 0] := by
    intro a ha
    simp [threePeers] at ha
  obtain ⟨hshuts, -, -⟩ := shuts_down threePeers hnone
  have hlater := hshuts [.distribute]
  have hrefused := hlater.refused.1
  have hkept := hlater.kept 0 (.loopback 7) (by decide) rfl (by simp) (by simp)
  obtain ⟨-, -, hstops⟩ := shuts_down _ hnone'
  exact ⟨congrArg Prod.fst hrefused, hlater.waiting 1 (by decide),
    ((hshuts []).newcomer 2 (by decide)).1, hkept.2, hstops (by decide) (by decide)⟩

end Wirebench.Loopback.SharedSocket

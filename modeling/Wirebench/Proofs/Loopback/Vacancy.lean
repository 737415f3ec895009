import Wirebench.Proofs.Loopback.Entries

namespace Wirebench.Loopback.Interleaving

variable {t t' : Interleaving} {a : SocketAddress} {p : Nat} {d : Datagram} {x : Step}

theorem length_hangUp (t : Interleaving) (party : Party) (p : Nat) :
    (t.hangUp party p).socket.peers.length = t.socket.peers.length := by
  rw [hangUp]
  split
  · exact List.length_modify ..
  · rfl
  · rfl

theorem length_resume (t : Interleaving) :
    t.resume.socket.peers.length = t.socket.peers.length := by
  rw [resume]
  split
  · rfl
  · split
    · rfl
    · rfl
  · split
    · split
      · rfl
      · rfl
    · exact length_hangUp ..
  · next p d _ =>
    have hforward : ((t.socket.forward? p d).getD t.socket).peers.length =
        t.socket.peers.length := by
      cases hs : t.socket.forward? p d with
      | none => rfl
      | some s =>
        obtain ⟨peer, -, ⟨-, -, rfl⟩ | ⟨-, rfl⟩⟩ := SharedSocket.forward?_eq_some hs
        · exact List.length_modify ..
        · rfl
    split
    · rfl
    · exact hforward
    · exact hforward

theorem length_advance (hstage : ∀ a d, t.stage ≠ .entering a d) :
    t.advance.socket.peers.length = t.socket.peers.length := by
  rw [advance]
  split
  · exact length_resume t
  · split
    · rfl
    · rfl
  · rfl
  · next a d hentering => exact (hstage a d hentering).elim
  · rw [handOver]
    split
    · rfl
    · rfl
    · rfl
    · rfl
  · rfl
  · split
    · rfl
    · rfl

theorem length_proceed (t : Interleaving) :
    t.proceed.socket.peers.length = t.socket.peers.length := by
  rw [proceed]
  split
  · rfl
  · rfl
  · rfl
  · rfl
  · rfl
  · split
    · exact length_hangUp ..
    · split
      · rfl
      · rfl

theorem act_cases (t : Interleaving) (x : Step) :
    (t.act x).socket.peers.length = t.socket.peers.length ∨
    (∃ a, t.act x = { t with socket := (t.socket.addPeer a).2 }) ∨
    ∃ a d, t.stage = .entering a d ∧
      t.act x = { t with socket := t.socket.enter a d, stage := .resting } := by
  have hsame {c : Prop} [Decidable c] {t' : Interleaving}
      (h : t'.socket.peers.length = t.socket.peers.length) :
      (if c then t' else t).socket.peers.length = t.socket.peers.length := by
    split
    · exact h
    · rfl
  cases x with
  | arrive a d => exact .inl rfl
  | advance =>
    rw [act]
    by_cases hbusy : t.isStriking .distributor = true
    · rw [if_pos hbusy]
      exact .inl rfl
    · rw [if_neg hbusy]
      by_cases hstage : ∃ a d, t.stage = .entering a d
      · obtain ⟨a, d, hstage⟩ := hstage
        refine .inr (.inr ⟨a, d, hstage, ?_⟩)
        rw [advance, hstage]
      · exact .inl (length_advance fun a d h => hstage ⟨a, d, h⟩)
  | rouse => exact .inl (hsame rfl)
  | cancel =>
    refine .inl (hsame ?_)
    rw [cancel]
    split
    · exact length_hangUp ..
    · rfl
  | strike party a => exact .inl (hsame rfl)
  | accept =>
    refine .inl (hsame ?_)
    show t.socket.accept.2.peers.length = _
    rw [SharedSocket.accept]
    split
    · split
      · rfl
      · rfl
    · rfl
  | connectFrom a =>
    rw [act]
    split
    · exact .inr (.inl ⟨a, rfl⟩)
    · exact .inl rfl
  | shutDown => exact .inl (hsame rfl)
  | abandon => exact .inl (hsame rfl)
  | proceed =>
    rw [act]
    split
    · exact .inl rfl
    · exact .inl (length_proceed t)
  | read n p =>
    refine .inl (hsame ?_)
    show (t.socket.read n p).2.peers.length = _
    rw [SharedSocket.read]
    split
    · rfl
    · exact List.length_set
  | hangUp p => exact .inl (hsame (length_hangUp ..))
  | letGo p =>
    rw [act]
    split
    · exact .inl rfl
    · exact .inl (List.length_modify ..)

theorem length_le_act (t : Interleaving) (x : Step) :
    t.socket.peers.length ≤ (t.act x).socket.peers.length := by
  have hadded (a : SocketAddress) :
      t.socket.peers.length ≤ (t.socket.addPeer a).2.peers.length := by
    show _ ≤ (t.socket.peers ++ [_]).length
    rw [List.length_append]
    exact Nat.le_add_right ..
  obtain hsame | ⟨a, hact⟩ | ⟨a, d, -, hact⟩ := act_cases t x
  · exact Nat.le_of_eq hsame.symm
  · rw [hact]
    exact hadded a
  · rw [hact]
    exact hadded a

theorem length_le_run (t : Interleaving) (schedule : List Step) :
    t.socket.peers.length ≤ (t.run schedule).socket.peers.length := by
  induction schedule generalizing t with
  | nil => exact Nat.le_refl _
  | cons x schedule ih => exact Nat.le_trans (length_le_act t x) (ih (t.act x))

theorem careful_of_length {schedule : List Step}
    (h : (t.run schedule).socket.peers.length = t.socket.peers.length) : t.Careful schedule := by
  induction schedule generalizing t with
  | nil => trivial
  | cons x schedule ih =>
    have hfirst := length_le_act t x
    have hrest : (t.act x).socket.peers.length ≤ (t.run (x :: schedule)).socket.peers.length :=
      length_le_run (t.act x) schedule
    constructor
    · intro a hmakes
      have hlt := hmakes.lt_length
      omega
    · apply ih
      show (t.run (x :: schedule)).socket.peers.length = _
      omega

theorem careful_append {xs ys : List Step} :
    t.Careful (xs ++ ys) ↔ t.Careful xs ∧ (t.run xs).Careful ys := by
  induction xs generalizing t with
  | nil => exact ⟨fun h => ⟨trivial, h⟩, And.right⟩
  | cons x xs ih =>
    rw [List.cons_append, Careful, Careful, ih, and_assoc]
    exact Iff.rfl

/-- What has been made stays the same, but for the new peer. -/
structure Made (t : Interleaving) (a : SocketAddress) (t' : Interleaving) : Prop where
  status : ∀ p, t'.socket.status? p = (t.socket.addPeer a).2.status? p
  strikes : t'.strikes = t.strikes
  /-- The distributor has not gone on, unless it has made the peer itself. -/
  task : t.socket.task ≠ .idle → t'.stage = t.stage ∧ t'.socket.task = t.socket.task

theorem Makes.made (h : t.Makes x a) (hbusy : t.stage.Fits t.socket.task) :
    t.Made a (t.act x) := by
  have haddress {b : SocketAddress} (hnew : (t.socket.addPeer b).2.LivesAt t.socket.peers.length a) :
      b = a := (SharedSocket.livesAt_addPeer t.socket b).address_eq hnew
  rw [Makes] at h
  obtain hsame | ⟨b, hact⟩ | ⟨b, d, hstage, hact⟩ := act_cases t x
  · have hlt := h.lt_length
    omega
  · rw [hact] at h ⊢
    obtain rfl := haddress h
    exact ⟨fun _ => rfl, rfl, fun _ => ⟨rfl, rfl⟩⟩
  · rw [hact] at h ⊢
    obtain rfl := haddress h
    rw [hstage] at hbusy
    exact ⟨fun _ => rfl, rfl, fun hne => (hne hbusy).elim⟩

theorem not_owned_strike {s : SharedSocket} (h : s.LivesAt p a) : ¬(s.strike a).Owned := by
  intro howned
  have hentry := howned.entry p a h
  rw [SharedSocket.peerFor?_strike, if_pos rfl] at hentry
  cases hentry

namespace Orderly

/-- A peer that is made for an address that is not vacant is not the only one there, or loses its
entry when the address is struck. -/
theorem vacant (h : t.Orderly) (hx : t.Makes x a)
    (howned : ∀ more,
      ((t.act x).run more).socket.peers.length = (t.act x).socket.peers.length →
        ((t.act x).run more).socket.Owned) : t.Vacant a := by
  have hmade := hx.made h.busy
  have hnow := howned [] rfl
  have hold {p : Nat} (hl : t.socket.LivesAt p a) : False := by
    have hstill := (hmade.status p).trans (SharedSocket.status?_addPeer_of_some hl a)
    exact Nat.ne_of_lt hl.lt_length (hnow.unique p _ a hstill hx)
  -- The address is struck as soon as the party goes on.
  have hstrikes (party : Party) (hin : (party, a) ∈ t.strikes) : False := by
    rw [← hmade.strikes] at hin
    have hstruck : (t.act x).run [.strike party a] =
        { t.act x with
          socket := (t.act x).socket.strike a
          strikes := (t.act x).strikes.erase (party, a) } := if_pos hin
    have hlater := howned [.strike party a]
    rw [hstruck] at hlater
    exact not_owned_strike hx (hlater rfl)
  constructor
  case strikes => exact hstrikes
  case entry =>
    cases hp : t.socket.peerFor? a with
    | none => rfl
    | some p =>
      obtain ⟨live, hstatus, rfl | ⟨party, hin⟩⟩ := h.entry a p hp
      · exact (hold hstatus).elim
      · exact (hstrikes party hin).elim
  case hand =>
    intro p d ht live hstatus
    cases live with
    | true => exact hold hstatus
    | false =>
      -- The distributor finds the queue closed, and then strikes the address.
      have hne : t.socket.task ≠ .idle := by simp [ht]
      have hrest : t.stage = .resting := (ht ▸ h.busy).resting
      obtain ⟨hstage, htask⟩ := hmade.task hne
      have hfree : (t.act x).isStriking .distributor = false := by
        rw [isStriking, hmade.strikes, List.any_eq_false]
        rintro ⟨party, b⟩ hin hparty
        obtain rfl : party = .distributor := of_decide_eq_true hparty
        rcases h.striking b hin with hidle | hstopped
        · exact hne hidle
        · cases ht.symm.trans hstopped
      have hdead := (hmade.status p).trans (SharedSocket.status?_addPeer_of_some hstatus a)
      have hgivenUp : (t.act x).act .advance =
          { t.act x with
            socket := { (t.act x).socket with task := .idle }
            strikes := (.distributor, a) :: (t.act x).strikes } := by
        rw [Interleaving.act, hfree, if_neg Bool.false_ne_true, Interleaving.advance, hstage, hrest]
        simp only [Interleaving.resume, htask, ht, hdead]
      have hstruck : (t.act x).run [.advance, .strike .distributor a] =
          { t.act x with
            socket := { (t.act x).socket with task := .idle }.strike a } := by
        show ((t.act x).act .advance).act (.strike .distributor a) = _
        rw [hgivenUp, Interleaving.act, if_pos List.mem_cons_self]
        simp only [List.erase_cons_head]
      have hlater := howned [.advance, .strike .distributor a]
      rw [hstruck] at hlater
      have hidle : SharedSocket.LivesAt { (t.act x).socket with task := .idle } _ a := hx
      exact not_owned_strike hidle (hlater rfl)

theorem careful (h : t.Orderly) (schedule : List Step)
    (howned : ∀ before more, before <+: schedule →
      ((t.run before).run more).socket.peers.length = (t.run before).socket.peers.length →
        ((t.run before).run more).socket.Owned) : t.Careful schedule := by
  induction schedule generalizing t with
  | nil => trivial
  | cons x schedule ih =>
    have hfirst : [x] <+: x :: schedule := ⟨schedule, rfl⟩
    have hx (a : SocketAddress) (hmakes : t.Makes x a) : t.Vacant a :=
      h.vacant hmakes fun more => howned [x] more hfirst
    apply And.intro hx
    apply ih (h.act x hx)
    intro before more hbefore
    exact howned (x :: before) more (List.cons_prefix_cons.2 ⟨rfl, hbefore⟩)

end Orderly

/-- A schedule is careful if and only if every live peer owns its entry at every moment of it, and
goes on to do so as long as no more peers are made. -/
theorem careful_iff_owned (schedule : List Step) :
    Careful {} schedule ↔
      ∀ before more, before <+: schedule →
        ((run {} before).run more).socket.peers.length = (run {} before).socket.peers.length →
          ((run {} before).run more).socket.Owned := by
  constructor
  · rintro h before more ⟨after, rfl⟩ hmore
    have hbefore := Orderly.start.run before (careful_append.1 h).1
    exact (hbefore.run more (careful_of_length hmore)).isOwned
  · exact fun h => Orderly.start.careful schedule h

/-- Two peers are made on demand for one address: closing the first takes the entry of the second
away. -/
theorem entry_taken_away :
    ¬(run {} [.connectFrom (.loopback 9), .connectFrom (.loopback 9), .hangUp 0,
      .strike (.holder 0) (.loopback 9)]).socket.Owned := by
  intro h
  have hentry := h.entry 1 (.loopback 9) rfl
  have hnone : (run {} [.connectFrom (.loopback 9), .connectFrom (.loopback 9), .hangUp 0,
      .strike (.holder 0) (.loopback 9)]).socket.peerFor? (.loopback 9) = none := by decide
  cases hnone.symm.trans hentry

/-- A datagram comes from an address that has no entry, and its peer is accepted. -/
def comesIn : List Step :=
  [.arrive (.loopback 9) [1], .advance, .advance, .advance, .advance, .advance, .advance, .advance,
    .accept]

/-- While a peer is being released the distributor, too, finds it closed and strikes its address, and
makes a new peer before the first release is over. -/
def overtaken : List Step :=
  comesIn ++ [.hangUp 0, .arrive (.loopback 9) [2], .advance, .advance, .advance,
    .strike .distributor (.loopback 9), .arrive (.loopback 9) [3], .advance, .advance, .advance,
    .advance, .strike (.holder 0) (.loopback 9)]

/-- An entry is taken away although nobody has made a peer on demand. -/
theorem entry_struck_late : ¬(run {} overtaken).socket.Owned := by
  intro h
  have hentry := h.entry 1 (.loopback 9) rfl
  have hnone : (run {} overtaken).socket.peerFor? (.loopback 9) = none := by decide
  cases hnone.symm.trans hentry

/-- Both signals come before the queue of an acceptor that is let go of is closed: the distributor is
not needed any more, and waits. -/
theorem signal_used_up :
    let t := run {} (comesIn ++ [.abandon, .proceed, .rouse, .advance, .hangUp 0,
      .strike (.holder 0) (.loopback 9), .rouse, .advance, .proceed, .proceed])
    t.closing = .gone ∧ t.socket.table = [] ∧ t.socket.task = .idle ∧ t.stage = .resting ∧
      t.socket.signal = false ∧ t.socket.isCancelled = false := by
  decide

end Wirebench.Loopback.Interleaving

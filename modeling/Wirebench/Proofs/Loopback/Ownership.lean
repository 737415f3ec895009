import Wirebench.Proofs.Loopback.Moves

namespace Wirebench.Loopback.SharedSocket

variable {s s' : SharedSocket} {a b : SocketAddress} {p q : Nat} {peer : Peer} {d : Datagram}

/-- The live peers are those of the table, and what is not yet in its place finds it. -/
structure Regular (s : SharedSocket) : Prop where
  entry : ∀ a p, s.peerFor? a = some p ↔ s.LivesAt p a
  /-- A datagram in hand is for the only peer with its address. -/
  hand : ∀ p d, s.task = .forwarding p d →
    ∃ a live, s.status? p = some (a, live) ∧ ∀ q, s.LivesAt q a → q = p
  waiting : ∀ p ∈ s.waiting, s.status? p ≠ none
  newcomer : ∀ p, s.task.newcomer? = some p → p ∉ s.waiting ∧ ∃ a, s.LivesAt p a
  cancelled : s.isCancelled = true → s.isOpen = false ∧ s.table = []

namespace Regular

theorem start : Regular {} where
  entry := by
    intro a p
    constructor <;> nofun
  hand := nofun
  waiting := nofun
  newcomer := nofun
  cancelled := nofun

theorem of_same (h : s.Regular) (hentry : ∀ a, s'.peerFor? a = s.peerFor? a)
    (hstatus : ∀ p, s'.status? p = s.status? p) (hwaiting : ∀ p ∈ s'.waiting, p ∈ s.waiting)
    (htask : s'.task = s.task ∨ s'.task = .idle ∨ s'.task = .stopped)
    (hcancelled : s'.isCancelled = true → s'.isOpen = false ∧ s'.table = []) : s'.Regular where
  entry a p := by
    rw [hentry, h.entry, LivesAt, LivesAt, hstatus]
  hand p d hp := by
    rcases htask with ht | ht | ht
    · obtain ⟨a, live, ha, hunique⟩ := h.hand p d (ht ▸ hp)
      have hunique' (q : Nat) (hl : s'.LivesAt q a) : q = p := by
        rw [LivesAt, hstatus] at hl
        exact hunique q hl
      exact ⟨a, live, (hstatus p).trans ha, hunique'⟩
    · cases ht.symm.trans hp
    · cases ht.symm.trans hp
  waiting p hp := by
    rw [hstatus]
    exact h.waiting p (hwaiting p hp)
  newcomer p hp := by
    rcases htask with ht | ht | ht
    · rw [ht] at hp
      obtain ⟨hout, a, ha⟩ := h.newcomer p hp
      exact ⟨fun hin => hout (hwaiting p hin), a, (hstatus p).trans ha⟩
    · rw [ht] at hp
      cases hp
    · rw [ht] at hp
      cases hp
  cancelled := hcancelled

theorem ite {c : Prop} [Decidable c] (h : s.Regular) (hs : c → s'.Regular) :
    (if c then s' else s).Regular := by
  split
  · next hc => exact hs hc
  · exact h

theorem peerFor?_eq_none (h : s.Regular) (hv : ∀ p, ¬s.LivesAt p a) : s.peerFor? a = none := by
  cases hp : s.peerFor? a with
  | none => rfl
  | some p => exact (hv p ((h.entry a p).1 hp)).elim

theorem unique (h : s.Regular) (hp : s.LivesAt p a) (hq : s.LivesAt q a) : p = q := by
  have hp := (h.entry a p).2 hp
  have hq := (h.entry a q).2 hq
  exact Option.some.inj (hp.symm.trans hq)

theorem isCancelled_of_isOpen (h : s.Regular) (hopen : s.isOpen = true) :
    s.isCancelled = false := by
  cases hc : s.isCancelled with
  | false => rfl
  | true => cases hopen.symm.trans (h.cancelled hc).1

theorem release_livesAt (h : s.Regular) (ha : s.LivesAt p a) (hp : s.task.newcomer? ≠ some p) :
    (s.release p).Regular where
  entry b q := by
    rw [peerFor?_release ha, livesAt_release]
    split
    · next hb =>
      subst hb
      constructor
      · nofun
      · rintro ⟨hq, hne⟩
        exact (hne (h.unique hq ha)).elim
    · next hb =>
      rw [h.entry]
      constructor
      · intro hq
        have hne : q ≠ p := by
          rintro rfl
          exact hb (hq.address_eq ha)
        exact ⟨hq, hne⟩
      · exact And.left
  hand q d hq := by
    rw [task_release] at hq
    obtain ⟨b, live, hb, hunique⟩ := h.hand q d hq
    obtain ⟨live', hlive'⟩ := exists_status?_hangUp hb p
    exact ⟨b, live', (status?_release s p q).trans hlive',
      fun r hr => hunique r (livesAt_release.1 hr).1⟩
  waiting q hq := by
    rw [waiting_release] at hq
    rw [status?_release]
    exact status?_hangUp_ne_none (h.waiting q hq) p
  newcomer q hq := by
    rw [task_release] at hq
    obtain ⟨hout, b, hb⟩ := h.newcomer q hq
    have hne : q ≠ p := by
      rintro rfl
      exact hp hq
    rw [waiting_release]
    exact ⟨hout, b, livesAt_release.2 ⟨hb, hne⟩⟩
  cancelled hc := by
    rw [isCancelled_release] at hc
    rw [isOpen_release]
    exact ⟨(h.cancelled hc).1, table_release (h.cancelled hc).2 p⟩

theorem release (h : s.Regular) (hp : s.task.newcomer? ≠ some p) : (s.release p).Regular := by
  by_cases hlive : ∃ a, s.LivesAt p a
  · obtain ⟨a, ha⟩ := hlive
    exact h.release_livesAt ha hp
  · rwa [release_of_dead fun a ha => hlive ⟨a, ha⟩]

theorem discard (h : s.Regular) (hp : s.task.newcomer? ≠ some p) : (s.discard p).Regular :=
  (h.release hp).of_same (fun _ => rfl) (status?_discard s p) (fun _ => id) (.inl rfl)
    (h.release hp).cancelled

theorem discardAll (h : s.Regular) {ps : List Nat} (hps : ∀ p ∈ ps, s.task.newcomer? ≠ some p) :
    (ps.foldl SharedSocket.discard s).Regular := by
  induction ps generalizing s with
  | nil => exact h
  | cons p ps ih =>
    apply ih (h.discard (hps p List.mem_cons_self))
    intro q hq
    show (s.release p).task.newcomer? ≠ some q
    rw [task_release]
    exact hps q (List.mem_cons_of_mem p hq)

theorem addPeer (h : s.Regular) (ha : s.peerFor? a = none) (hopen : s.isOpen = true)
    (hhand : ∀ p d, s.task = .forwarding p d → ∀ live, s.status? p ≠ some (a, live)) :
    (s.addPeer a).2.Regular where
  entry b q := by
    rw [peerFor?_addPeer, LivesAt, status?_addPeer]
    by_cases hb : b = a
    · subst hb
      rw [if_pos rfl]
      split
      · next hq => exact ⟨fun _ => rfl, fun _ => congrArg some hq.symm⟩
      · next hq =>
        constructor
        · intro heq
          exact (hq (Option.some.inj heq).symm).elim
        · intro hl
          cases ha.symm.trans ((h.entry b q).2 hl)
    · rw [if_neg hb, h.entry]
      split
      · next hq =>
        rw [hq, LivesAt, status?_eq_none (Nat.le_refl _)]
        constructor
        · intro hnone
          cases hnone
        · intro heq
          cases heq
          exact (hb rfl).elim
      · exact Iff.rfl
  hand p d hp := by
    obtain ⟨b, live, hb, hunique⟩ := h.hand p d hp
    have hunique' (q : Nat) (hq : (s.addPeer a).2.LivesAt q b) : q = p := by
      rw [LivesAt, status?_addPeer] at hq
      split at hq
      · cases hq
        exact (hhand p d hp live hb).elim
      · exact hunique q hq
    exact ⟨b, live, status?_addPeer_of_some hb a, hunique'⟩
  waiting p hp := by
    obtain ⟨x, hx⟩ := Option.ne_none_iff_exists'.1 (h.waiting p hp)
    rw [status?_addPeer_of_some hx]
    exact Option.some_ne_none x
  newcomer p hp := by
    obtain ⟨hout, b, hb⟩ := h.newcomer p hp
    exact ⟨hout, b, status?_addPeer_of_some hb a⟩
  cancelled hc := by
    cases hopen.symm.trans (h.cancelled hc).1

theorem strike (h : s.Regular) (ha : ∀ q, ¬s.LivesAt q a) : (s.strike a).Regular := by
  have hsame := peerFor?_strike_of_none (h.peerFor?_eq_none ha)
  apply h.of_same hsame (fun _ => rfl) (fun _ => id) (.inl rfl)
  intro hc
  obtain ⟨hopen, htable⟩ := h.cancelled hc
  have hstruck : s.table.filter (·.1 ≠ a) = [] := by
    rw [htable]
    rfl
  exact ⟨hopen, hstruck⟩

theorem idle (h : s.Regular) : Regular { s with task := .idle } :=
  h.of_same (fun _ => rfl) (fun _ => rfl) (fun _ => id) (.inr (.inl rfl)) h.cancelled

theorem stopped (h : s.Regular) : Regular { s with task := .stopped } :=
  h.of_same (fun _ => rfl) (fun _ => rfl) (fun _ => id) (.inr (.inr rfl)) h.cancelled

theorem forwarding (h : s.Regular) (ha : s.LivesAt p a) (d : Datagram) :
    Regular { s with task := .forwarding p d } where
  entry := h.entry
  hand q _ hq := by
    cases hq
    exact ⟨a, true, ha, fun r hr => h.unique hr ha⟩
  waiting := h.waiting
  newcomer := nofun
  cancelled := h.cancelled

theorem withInbox (h : s.Regular) (inbox : List (SocketAddress × Datagram)) :
    Regular { s with inbox } :=
  h.of_same (fun _ => rfl) (fun _ => rfl) (fun _ => id) (.inl rfl) h.cancelled

theorem take (h : s.Regular) (hidle : s.task = .idle) (a : SocketAddress) (d : Datagram) :
    (s.take a d).Regular := by
  cases hp : s.peerFor? a with
  | some p =>
    rw [take_known hp]
    exact h.forwarding ((h.entry a p).1 hp) d
  | none =>
    by_cases hopen : s.isOpen = true
    · rw [take_new hp hopen]
      have hnone : ∀ p d, s.task = .forwarding p d → ∀ live, s.status? p ≠ some (a, live) := by
        intro p d hf
        cases hidle.symm.trans hf
      have hadd := h.addPeer hp hopen hnone
      have hout : s.peers.length ∉ s.waiting := by
        intro hin
        exact h.waiting _ hin (status?_eq_none (Nat.le_refl _))
      have hnewcomer (q : Nat) (hq : (Task.admitting s.peers.length d).newcomer? = some q) :
          q ∉ s.waiting ∧ ∃ a', (s.addPeer a).2.LivesAt q a' := by
        cases hq
        exact ⟨hout, a, livesAt_addPeer s a⟩
      exact ⟨hadd.entry, nofun, hadd.waiting, hnewcomer, hadd.cancelled⟩
    · rw [take_closed hp hopen]
      exact h

theorem admit? (h : s.Regular) (hp : s.task = .admitting p d)
    (hs : s.admit? p d = some s') : s'.Regular := by
  obtain ⟨hout, a, ha⟩ := h.newcomer p (congrArg Task.newcomer? hp)
  obtain ⟨-, -, rfl⟩ | ⟨-, rfl⟩ := admit?_eq_some hs
  · have hforward := h.forwarding ha d
    have hwaiting (q : Nat) (hq : q ∈ s.waiting ++ [p]) : s.status? q ≠ none := by
      rcases List.mem_append.1 hq with hq | hq
      · exact h.waiting q hq
      · rw [List.mem_singleton.1 hq, ha]
        exact Option.some_ne_none _
    exact ⟨hforward.entry, hforward.hand, hwaiting, nofun, hforward.cancelled⟩
  · rw [← discard_withTask]
    exact h.idle.discard nofun

theorem forward? (h : s.Regular) (hp : s.task = .forwarding p d)
    (hs : s.forward? p d = some s') : s'.Regular := by
  obtain ⟨a, live, ha, hunique⟩ := h.hand p d hp
  obtain ⟨peer, hpeer, ⟨-, -, rfl⟩ | ⟨hdead, rfl⟩⟩ := forward?_eq_some hs
  · exact h.of_same (fun _ => rfl) (status?_modify (fun _ => rfl) fun _ => rfl) (fun _ => id)
      (.inr (.inl rfl)) h.cancelled
  · have hstatus : s.status? p = some (peer.address, peer.isLive) := by
      rw [status?, hpeer]
      rfl
    obtain ⟨rfl, rfl⟩ := Prod.mk.inj (Option.some.inj (ha.symm.trans hstatus))
    have hv (q : Nat) : ¬s.LivesAt q peer.address := by
      intro hq
      obtain rfl := hunique q hq
      have heq := Option.some.inj (ha.symm.trans hq)
      exact hdead (Prod.mk.inj heq).2
    exact (h.strike hv).idle

theorem notice (h : s.Regular) : s.notice.Regular := by
  rw [SharedSocket.notice]
  split
  · exact h.of_same (fun _ => rfl) (fun _ => rfl) (fun _ => id) (.inr (.inr rfl)) h.cancelled
  · exact h.of_same (fun _ => rfl) (fun _ => rfl) (fun _ => id) (.inl rfl) h.cancelled

theorem stop (h : s.Regular) : s.stop.Regular := by
  rw [SharedSocket.stop]
  cases s.task with
  | admitting p d =>
    simp only
    rw [← discard_withTask]
    exact h.stopped.discard nofun
  | idle => exact h.stopped
  | forwarding => exact h.stopped
  | stopped => exact h.stopped

theorem distributes (h : s.Regular) (hs : s.Distributes s') : s'.Regular := by
  cases hs with
  | stops => exact h.stop
  | rests => exact h
  | admits ht hs => exact h.admit? ht hs
  | forwards ht hs => exact h.forward? ht hs
  | @takes a d rest _ ht _ => exact (h.withInbox rest).take ht a (received d)
  | notices => exact h.notice

theorem accept (h : s.Regular) : s.accept.2.Regular := by
  rw [SharedSocket.accept]
  split
  · cases hw : s.waiting with
    | nil => exact h
    | cons p rest =>
      have hrest (q : Nat) (hq : q ∈ rest) : q ∈ s.waiting := by
        rw [hw]
        exact List.mem_cons_of_mem p hq
      exact h.of_same (fun _ => rfl) (fun _ => rfl) hrest (.inl rfl) h.cancelled
  · exact h

theorem read (h : s.Regular) (n p : Nat) : (s.read n p).2.Regular := by
  rw [SharedSocket.read]
  cases hp : s.peers[p]? with
  | none => exact h
  | some peer =>
    have hstatus := status?_set hp (peer.read_address n) (peer.read_isLive n)
    exact h.of_same (fun _ => rfl) hstatus (fun _ => id) (.inl rfl) h.cancelled

/-- Closing the acceptor lets go of the peers that wait to be accepted, but not of the one that is
being handed over. -/
theorem discardWaiting (h : s.Regular) (hs : s'.Regular) (htask : s'.task = s.task) :
    (s.waiting.foldl SharedSocket.discard s').Regular := by
  apply hs.discardAll
  intro p hp hnew
  rw [htask] at hnew
  exact (h.newcomer p hnew).1 hp

theorem shutDown (h : s.Regular) : s.shutDown.Regular := by
  have hclosed : Regular { s with isOpen := false, waiting := [] } :=
    h.of_same (fun _ => rfl) (fun _ => rfl) nofun (.inl rfl)
      fun hc => ⟨rfl, (h.cancelled hc).2⟩
  have hdiscarded := h.discardWaiting hclosed rfl
  exact hdiscarded.of_same (fun _ => rfl) (fun _ => rfl) (fun _ => id) (.inl rfl)
    hdiscarded.cancelled

theorem abandon (h : s.Regular) : s.abandon.Regular := by
  rw [SharedSocket.abandon, dismiss]
  split
  · next hempty =>
    have hclosed : Regular { s with isOpen := false, waiting := [], isCancelled := true } :=
      h.of_same (fun _ => rfl) (fun _ => rfl) nofun (.inl rfl)
        fun _ => ⟨rfl, List.isEmpty_iff.1 hempty⟩
    exact h.discardWaiting hclosed rfl
  · have hclosed : Regular { s with isOpen := false, waiting := [], signal := true } :=
      h.of_same (fun _ => rfl) (fun _ => rfl) nofun (.inl rfl)
        fun hc => ⟨rfl, (h.cancelled hc).2⟩
    exact h.discardWaiting hclosed rfl

end Regular

/-- No live peer has the address, and the distributor is not about to strike it. -/
def Vacant (s : SharedSocket) (a : SocketAddress) : Prop :=
  s.peerFor? a = none ∧
    ∀ p d, s.task = .forwarding p d → ∀ live, s.status? p ≠ some (a, live)

/-- A peer is made on demand only for a vacant address. -/
def Admits (s : SharedSocket) : Move → Prop
  | .connectFrom a => s.isOpen = true → s.Vacant a
  | .arrive .. | .distribute | .notice | .accept | .read .. | .close _ | .discard _ | .shutDown
  | .abandon => True

def Careful (s : SharedSocket) : List Move → Prop
  | [] => True
  | x :: schedule => s.Admits x ∧ (s.act x).Careful schedule

/-- Every live peer owns the entry of its address. -/
structure Owned (s : SharedSocket) : Prop where
  entry : ∀ p a, s.LivesAt p a → s.peerFor? a = some p
  unique : ∀ p q a, s.LivesAt p a → s.LivesAt q a → p = q
  /-- What comes from the address is put into the queue of the peer. -/
  reached : ∀ p a d, s.LivesAt p a → (s.take a d).task = .forwarding p d

theorem isHandedOut_newcomer (h : s.isHandedOut p = true) : s.task.newcomer? ≠ some p := by
  rw [isHandedOut, Bool.and_eq_true, decide_eq_true_iff] at h
  exact h.2

namespace Regular

theorem owned (h : s.Regular) : s.Owned where
  entry p a := (h.entry a p).2
  unique _ _ _ := h.unique
  reached p a d hp := by
    rw [take_known ((h.entry a p).2 hp)]

theorem act (h : s.Regular) (x : Move) (hx : s.Admits x) : (s.act x).Regular := by
  cases x with
  | arrive a d => exact h.withInbox _
  | distribute => exact h.distributes (distributes_act s)
  | notice => exact h.ite fun _ => h.notice
  | accept => exact h.accept
  | connectFrom a => exact h.ite fun hopen => h.addPeer (hx hopen).1 hopen (hx hopen).2
  | read n p => exact h.ite fun _ => h.read n p
  | close p => exact h.ite fun hp => h.release (isHandedOut_newcomer hp)
  | discard p => exact h.ite fun hp => h.discard (isHandedOut_newcomer hp)
  | shutDown => exact h.shutDown
  | abandon => exact h.abandon

theorem run (h : s.Regular) (schedule : List Move) (hs : s.Careful schedule) :
    (s.run schedule).Regular := by
  induction schedule generalizing s with
  | nil => exact h
  | cons x schedule ih => exact ih (h.act x hs.1) hs.2

end Regular

theorem careful_of_notMem {schedule : List Move} (h : ∀ a, .connectFrom a ∉ schedule) :
    s.Careful schedule := by
  induction schedule generalizing s with
  | nil => trivial
  | cons x schedule ih =>
    have hx : s.Admits x := by
      cases x with
      | connectFrom a => exact (h a List.mem_cons_self).elim
      | _ => trivial
    exact ⟨hx, ih fun a ha => h a (List.mem_cons_of_mem x ha)⟩

end Wirebench.Loopback.SharedSocket

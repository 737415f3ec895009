import Wirebench.Loopback.Shared

namespace Wirebench.Loopback

/-- What one party does with a shared socket while nobody else does anything. -/
inductive Move
  | arrive (source : SocketAddress) (d : Datagram)
  | distribute
  /-- The distributor looks at its signal before it looks at the datagrams that are there. -/
  | notice
  | accept
  | connectFrom (a : SocketAddress)
  | read (n peer : Nat)
  | close (peer : Nat)
  | discard (peer : Nat)
  | shutDown
  | abandon
  deriving DecidableEq, Repr

/-- The new peer that the distributor hands over. -/
def Task.newcomer? : Task → Option Nat
  | admitting peer _ => some peer
  | idle | forwarding .. | stopped => none

namespace Peer

theorem read_address (n : Nat) (p : Peer) : (p.read n).2.address = p.address := by
  rw [read]
  split
  · split <;> rfl
  · rfl

theorem read_isLive (n : Nat) (p : Peer) : (p.read n).2.isLive = p.isLive := by
  rw [read]
  split
  · split <;> rfl
  · rfl

end Peer

namespace SharedSocket

variable {s : SharedSocket} {a b : SocketAddress} {p q : Nat} {peer : Peer}

/-- Somebody has been given the peer: it has been accepted, or made on demand. -/
def isHandedOut (s : SharedSocket) (p : Nat) : Bool :=
  !s.waiting.contains p && s.task.newcomer? ≠ some p

def act (s : SharedSocket) : Move → SharedSocket
  | .arrive source d => s.arrive source d
  | .distribute => s.distribute?.getD s
  | .notice => if s.task = .idle ∧ s.signal ∧ ¬s.isCancelled then s.notice else s
  | .accept => s.accept.2
  | .connectFrom a => if s.isOpen then (s.addPeer a).2 else s
  | .read n p => if s.isHandedOut p then (s.read n p).2 else s
  | .close p => if s.isHandedOut p then s.release p else s
  | .discard p => if s.isHandedOut p then s.discard p else s
  | .shutDown => s.shutDown
  | .abandon => s.abandon

def run (s : SharedSocket) (schedule : List Move) : SharedSocket := schedule.foldl act s

def status? (s : SharedSocket) (p : Nat) : Option (SocketAddress × Bool) :=
  s.peers[p]?.map fun peer => (peer.address, peer.isLive)

/-- A peer with a given address that has not been released. -/
def LivesAt (s : SharedSocket) (p : Nat) (a : SocketAddress) : Prop := s.status? p = some (a, true)

theorem status?_of_peers (hp : s.peers[p]? = some peer) :
    s.status? p = some (peer.address, peer.isLive) := by
  rw [status?, hp]
  rfl

theorem livesAt_of_peers (hp : s.peers[p]? = some peer) (hl : peer.isLive = true) :
    s.LivesAt p peer.address := by
  rw [LivesAt, status?_of_peers hp, hl]

theorem LivesAt.address_eq (h : s.LivesAt p a) (h' : s.LivesAt p b) : a = b := by
  cases h.symm.trans h'
  rfl

theorem status?_eq_none (h : s.peers.length ≤ p) : s.status? p = none := by
  rw [status?, List.getElem?_eq_none h]
  rfl

theorem LivesAt.lt_length (h : s.LivesAt p a) : p < s.peers.length := by
  by_cases hlt : p < s.peers.length
  · exact hlt
  · cases (status?_eq_none (Nat.not_lt.1 hlt)).symm.trans h

theorem lookup_cons_pair (c : SocketAddress) (p : Nat) (table : List (SocketAddress × Nat)) :
    ((c, p) :: table).lookup b = if b = c then some p else table.lookup b := by
  rw [List.lookup_cons]
  by_cases hb : b = c
  · rw [if_pos hb, beq_iff_eq.2 hb]
  · rw [if_neg hb, beq_eq_false_iff_ne.2 hb]

theorem lookup_filter (table : List (SocketAddress × Nat)) (a b : SocketAddress) :
    (table.filter (·.1 ≠ a)).lookup b = if b = a then none else table.lookup b := by
  induction table with
  | nil => split <;> rfl
  | cons e table ih =>
    obtain ⟨c, p⟩ := e
    rw [List.filter_cons, lookup_cons_pair]
    by_cases hc : c = a
    · subst hc
      rw [if_neg (by simp), ih]
      split
      · rfl
      · rfl
    · rw [if_pos (by simpa using hc), lookup_cons_pair, ih]
      by_cases hb : b = c
      · rw [if_pos hb, if_neg (hb ▸ hc), if_pos hb]
      · rw [if_neg hb, if_neg hb]

theorem peerFor?_strike (s : SharedSocket) (a b : SocketAddress) :
    (s.strike a).peerFor? b = if b = a then none else s.peerFor? b :=
  lookup_filter s.table a b

theorem peerFor?_addPeer (s : SharedSocket) (a b : SocketAddress) :
    (s.addPeer a).2.peerFor? b = if b = a then some s.peers.length else s.peerFor? b := by
  show List.lookup b ((a, s.peers.length) :: s.table.filter (·.1 ≠ a)) = _
  rw [lookup_cons_pair, lookup_filter]
  by_cases hb : b = a
  · rw [if_pos hb, if_pos hb]
  · rw [if_neg hb, if_neg hb, if_neg hb]
    rfl

theorem status?_addPeer (s : SharedSocket) (a : SocketAddress) (p : Nat) :
    (s.addPeer a).2.status? p = if p = s.peers.length then some (a, true) else s.status? p := by
  show (s.peers ++ [{ address := a }])[p]?.map _ = _
  split
  · next h =>
    rw [h, List.getElem?_concat_length]
    rfl
  · next h =>
    by_cases hlt : p < s.peers.length
    · rw [List.getElem?_append_left hlt]
      rfl
    · rw [status?_eq_none (Nat.not_lt.1 hlt), List.getElem?_eq_none]
      · rfl
      · rw [List.length_append, List.length_singleton]
        omega

theorem livesAt_addPeer (s : SharedSocket) (a : SocketAddress) :
    (s.addPeer a).2.LivesAt s.peers.length a := by
  rw [LivesAt, status?_addPeer, if_pos rfl]

theorem status?_addPeer_of_some {x : SocketAddress × Bool} (h : s.status? p = some x)
    (a : SocketAddress) : (s.addPeer a).2.status? p = some x := by
  rw [status?_addPeer, if_neg, h]
  intro hp
  cases h.symm.trans (status?_eq_none (Nat.le_of_eq hp.symm))

theorem peerFor?_strike_of_none (h : s.peerFor? a = none) (b : SocketAddress) :
    (s.strike a).peerFor? b = s.peerFor? b := by
  rw [peerFor?_strike]
  split
  · next hb => rw [hb, h]
  · rfl

theorem status?_modify {f : Peer → Peer} (haddress : ∀ peer, (f peer).address = peer.address)
    (hlive : ∀ peer, (f peer).isLive = peer.isLive) (q : Nat) :
    { s with peers := s.peers.modify p f }.status? q = s.status? q := by
  rw [status?, status?, List.getElem?_modify]
  cases s.peers[q]? with
  | none => rfl
  | some peer =>
    by_cases h : p = q
    · simp only [h, ↓reduceIte, Option.map_eq_map, Option.map_some, haddress, hlive]
    · simp only [h, ↓reduceIte, Option.map_eq_map, Option.map_some]

theorem status?_set {peer' : Peer} (hp : s.peers[p]? = some peer)
    (haddress : peer'.address = peer.address) (hlive : peer'.isLive = peer.isLive) (q : Nat) :
    { s with peers := s.peers.set p peer' }.status? q = s.status? q := by
  rw [status?, status?, List.getElem?_set]
  split
  · next h =>
    subst h
    rw [if_pos (List.getElem?_eq_some_iff.1 hp).1, hp, Option.map_some, Option.map_some, haddress,
      hlive]
  · rfl

theorem release_of_livesAt (h : s.LivesAt p a) : s.release p = (s.hangUp p).strike a := by
  obtain ⟨peer, hp, hstatus⟩ := Option.map_eq_some_iff.1 h
  obtain ⟨rfl, hl⟩ := Prod.mk.inj hstatus
  simp only [release, hp, hl, ↓reduceIte]

theorem release_of_dead (h : ∀ a, ¬s.LivesAt p a) : s.release p = s := by
  rw [release]
  cases hp : s.peers[p]? with
  | none => rfl
  | some peer =>
    have hl : ¬peer.isLive = true := fun hl => h peer.address (livesAt_of_peers hp hl)
    simp only [if_neg hl]

theorem peers_hangUp (s : SharedSocket) (p q : Nat) :
    (s.hangUp p).peers[q]? =
      s.peers[q]?.map fun peer => if p = q then { peer with isLive := false } else peer :=
  List.getElem?_modify ..

theorem peers_release (s : SharedSocket) (p q : Nat) :
    (s.release p).peers[q]? =
      s.peers[q]?.map fun peer => if p = q then { peer with isLive := false } else peer := by
  by_cases h : ∃ a, s.LivesAt p a
  · obtain ⟨a, h⟩ := h
    rw [release_of_livesAt h]
    exact peers_hangUp s p q
  · have hdead : ∀ a, ¬s.LivesAt p a := fun a ha => h ⟨a, ha⟩
    rw [release_of_dead hdead]
    cases hq : s.peers[q]? with
    | none => rfl
    | some peer =>
      rw [Option.map_some]
      split
      · next heq =>
        subst heq
        cases hl : peer.isLive with
        | true => exact (hdead _ (livesAt_of_peers hq hl)).elim
        | false =>
          rw [← hl]
      · rfl

theorem peers_discard (s : SharedSocket) (p q : Nat) :
    (s.discard p).peers[q]? =
      s.peers[q]?.map fun peer =>
        if p = q then { peer with isLive := false, isHeld := false } else peer := by
  show ((s.release p).peers.modify p _)[q]? = _
  rw [List.getElem?_modify, peers_release]
  cases s.peers[q]? with
  | none => rfl
  | some peer =>
    by_cases h : p = q
    · simp only [h, ↓reduceIte, Option.map_some, Option.map_eq_map]
    · simp only [h, ↓reduceIte, Option.map_some, Option.map_eq_map]

theorem status?_hangUp (s : SharedSocket) (p q : Nat) :
    (s.hangUp p).status? q =
      if q = p then (s.status? q).map fun x => (x.1, false) else s.status? q := by
  rw [status?, status?, peers_hangUp]
  cases s.peers[q]? with
  | none => exact (ite_self none).symm
  | some peer =>
    by_cases h : p = q
    · rw [if_pos h.symm, Option.map_some, if_pos h]
      rfl
    · rw [if_neg (Ne.symm h), Option.map_some, if_neg h]

theorem exists_status?_hangUp {live : Bool} (h : s.status? q = some (a, live)) (p : Nat) :
    ∃ live', (s.hangUp p).status? q = some (a, live') := by
  rw [status?_hangUp, h]
  split
  · exact ⟨false, rfl⟩
  · exact ⟨live, rfl⟩

theorem status?_hangUp_ne_none (h : s.status? q ≠ none) (p : Nat) :
    (s.hangUp p).status? q ≠ none := by
  obtain ⟨⟨a, live⟩, hx⟩ := Option.ne_none_iff_exists'.1 h
  obtain ⟨live', hlive'⟩ := exists_status?_hangUp hx p
  rw [hlive']
  exact Option.some_ne_none _

theorem status?_release (s : SharedSocket) (p q : Nat) :
    (s.release p).status? q = (s.hangUp p).status? q := by
  rw [status?, status?, peers_release, peers_hangUp]

theorem status?_discard (s : SharedSocket) (p q : Nat) :
    (s.discard p).status? q = (s.release p).status? q := by
  rw [status?, status?, peers_discard, peers_release]
  cases s.peers[q]? with
  | none => rfl
  | some peer =>
    rw [Option.map_some, Option.map_some]
    split <;> rfl

theorem livesAt_hangUp : (s.hangUp p).LivesAt q b ↔ s.LivesAt q b ∧ q ≠ p := by
  rw [LivesAt, LivesAt, status?_hangUp]
  split
  · next h =>
    constructor
    · intro hs
      obtain ⟨x, -, hx⟩ := Option.map_eq_some_iff.1 hs
      cases hx
    · rintro ⟨-, hne⟩
      exact (hne h).elim
  · next h => exact ⟨fun hs => ⟨hs, h⟩, And.left⟩

theorem livesAt_release : (s.release p).LivesAt q b ↔ s.LivesAt q b ∧ q ≠ p := by
  rw [LivesAt, status?_release]
  exact livesAt_hangUp

theorem peerFor?_release (h : s.LivesAt p a) (b : SocketAddress) :
    (s.release p).peerFor? b = if b = a then none else s.peerFor? b := by
  rw [release_of_livesAt h, peerFor?_strike]
  rfl

theorem release_eq (s : SharedSocket) (p : Nat) :
    s.release p = { s with
      peers := (s.release p).peers
      table := (s.release p).table
      signal := (s.release p).signal } := by
  by_cases h : ∃ a, s.LivesAt p a
  · obtain ⟨a, h⟩ := h
    rw [release_of_livesAt h]
    rfl
  · rw [release_of_dead fun a ha => h ⟨a, ha⟩]

theorem task_release (s : SharedSocket) (p : Nat) : (s.release p).task = s.task := by
  rw [release_eq]

theorem waiting_release (s : SharedSocket) (p : Nat) : (s.release p).waiting = s.waiting := by
  rw [release_eq]

theorem isOpen_release (s : SharedSocket) (p : Nat) : (s.release p).isOpen = s.isOpen := by
  rw [release_eq]

theorem isCancelled_release (s : SharedSocket) (p : Nat) :
    (s.release p).isCancelled = s.isCancelled := by
  rw [release_eq]

theorem table_release (h : s.table = []) (p : Nat) : (s.release p).table = [] := by
  by_cases hp : ∃ a, s.LivesAt p a
  · obtain ⟨a, hp⟩ := hp
    rw [release_of_livesAt hp]
    show s.table.filter _ = []
    rw [h]
    rfl
  · rwa [release_of_dead fun a ha => hp ⟨a, ha⟩]

theorem discard_withTask (s : SharedSocket) (p : Nat) (task : Task) :
    { s with task }.discard p = { s.discard p with task } := by
  rw [discard, discard, release, release]
  cases s.peers[p]? with
  | none => rfl
  | some peer =>
    simp only
    split <;> rfl

theorem take_known (hp : s.peerFor? a = some p) (d : Datagram) :
    s.take a d = { s with task := .forwarding p d } := by
  rw [take, hp]

theorem take_new (hp : s.peerFor? a = none) (hopen : s.isOpen = true) (d : Datagram) :
    s.take a d = { (s.addPeer a).2 with task := .admitting s.peers.length d } := by
  rw [take, hp]
  exact if_pos hopen

theorem take_closed (hp : s.peerFor? a = none) (hopen : ¬s.isOpen = true) (d : Datagram) :
    s.take a d = s := by
  rw [take, hp]
  exact if_neg hopen

theorem admit?_eq_some {s' : SharedSocket} {d : Datagram} (hs : s.admit? p d = some s') :
    (s.isOpen = true ∧ s.waiting.length < waitingDepth ∧
      s' = { s with waiting := s.waiting ++ [p], task := .forwarding p d }) ∨
    (¬s.isOpen = true ∧ s' = { s.discard p with task := .idle }) := by
  rw [admit?] at hs
  split at hs
  · next hopen =>
    split at hs
    · next hroom => exact .inl ⟨hopen, hroom, (Option.some.inj hs).symm⟩
    · cases hs
  · next hclosed => exact .inr ⟨hclosed, (Option.some.inj hs).symm⟩

theorem forward?_eq_some {s' : SharedSocket} {d : Datagram} (hs : s.forward? p d = some s') :
    ∃ peer, s.peers[p]? = some peer ∧
      ((peer.isLive = true ∧ peer.queue.length < queueDepth ∧
        s' = { s with
          peers := s.peers.modify p fun peer => { peer with queue := peer.queue ++ [d] }
          task := .idle }) ∨
      (¬peer.isLive = true ∧ s' = { s.strike peer.address with task := .idle })) := by
  rw [forward?] at hs
  split at hs
  · cases hs
  · next peer hpeer =>
    apply Exists.intro peer
    apply And.intro hpeer
    split at hs
    · next hl =>
      split at hs
      · next hroom => exact .inl ⟨hl, hroom, (Option.some.inj hs).symm⟩
      · cases hs
    · next hdead => exact .inr ⟨hdead, (Option.some.inj hs).symm⟩

inductive Distributes (s : SharedSocket) : SharedSocket → Prop
  | stops (hc : s.isCancelled = true) : Distributes s s.stop
  | rests (hs : s.work? = none) : Distributes s s
  | admits {s' p d} (ht : s.task = .admitting p d) (hs : s.admit? p d = some s') : Distributes s s'
  | forwards {s' p d} (ht : s.task = .forwarding p d) (hs : s.forward? p d = some s') :
      Distributes s s'
  | takes {a d rest} (hc : ¬s.isCancelled = true) (ht : s.task = .idle)
      (hi : s.inbox = (a, d) :: rest) :
      Distributes s (({ s with inbox := rest }).take a (received d))
  | notices (ht : s.task = .idle) (hi : s.inbox = []) (hs : s.signal = true) :
      Distributes s s.notice

theorem distributes_of_work? {s' : SharedSocket}
    (hstop : ¬(s.isCancelled = true ∧ s.task ≠ .stopped)) (hs : s.work? = some s') :
    s.Distributes s' := by
  rw [work?] at hs
  cases ht : s.task with
  | stopped =>
    rw [ht] at hs
    cases hs
  | admitting p d =>
    rw [ht] at hs
    exact .admits ht hs
  | forwarding p d =>
    rw [ht] at hs
    exact .forwards ht hs
  | idle =>
    have hc : ¬s.isCancelled = true := by
      intro hc
      apply hstop
      exact ⟨hc, by simp [ht]⟩
    cases hi : s.inbox with
    | nil =>
      simp only [ht, hi] at hs
      split at hs
      · next hsignal =>
        cases hs
        exact .notices ht hi hsignal
      · cases hs
    | cons x rest =>
      simp only [ht, hi] at hs
      cases hs
      have htake := Distributes.takes hc ht hi
      rwa [ht] at htake

theorem distributes_act (s : SharedSocket) : s.Distributes (s.act .distribute) := by
  rw [act, distribute?]
  by_cases hstop : s.isCancelled = true ∧ s.task ≠ .stopped
  · rw [if_pos hstop]
    exact .stops hstop.1
  · rw [if_neg hstop]
    cases hs : s.work? with
    | none => exact .rests hs
    | some s' => exact distributes_of_work? hstop hs

end SharedSocket

end Wirebench.Loopback

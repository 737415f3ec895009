import Wirebench.Proofs.Loopback.Flow

namespace Wirebench.Loopback

def arrivals (schedule : List Move) : List (SocketAddress × Datagram) :=
  schedule.filterMap fun
    | .arrive a d => some (a, d)
    | .distribute | .notice | .accept | .connectFrom _ | .read .. | .close _ | .discard _
    | .shutDown | .abandon => none

namespace SharedSocket

variable {s s' : SharedSocket} {a : SocketAddress} {p q : Nat} {peer : Peer} {d : Datagram}

/-- Peers are never forgotten, and what has arrived stays there. -/
structure Grows (s s' : SharedSocket) : Prop where
  peers : s.peers.length ≤ s'.peers.length
  inbox : s'.inbox = s.inbox

namespace Grows

theorem same (hpeers : s'.peers.length = s.peers.length) (hinbox : s'.inbox = s.inbox) :
    Grows s s' := ⟨Nat.le_of_eq hpeers.symm, hinbox⟩

theorem refl (s : SharedSocket) : Grows s s := .same rfl rfl

theorem trans {t : SharedSocket} (h : Grows s s') (h' : Grows s' t) : Grows s t :=
  ⟨Nat.le_trans h.peers h'.peers, h'.inbox.trans h.inbox⟩

theorem release (s : SharedSocket) (p : Nat) : Grows s (s.release p) := by
  by_cases h : ∃ a, s.LivesAt p a
  · obtain ⟨a, h⟩ := h
    rw [release_of_livesAt h]
    exact .same (List.length_modify ..) rfl
  · rw [release_of_dead fun a ha => h ⟨a, ha⟩]
    exact .refl s

theorem discard (s : SharedSocket) (p : Nat) : Grows s (s.discard p) :=
  (release s p).trans (.same (List.length_modify ..) rfl)

theorem discardAll (s : SharedSocket) (ps : List Nat) : Grows s (ps.foldl .discard s) := by
  induction ps generalizing s with
  | nil => exact .refl s
  | cons p ps ih => exact (discard s p).trans (ih _)

theorem addPeer (s : SharedSocket) (a : SocketAddress) : Grows s (s.addPeer a).2 where
  peers := by
    show _ ≤ (s.peers ++ [_]).length
    rw [List.length_append]
    exact Nat.le_add_right _ _
  inbox := rfl

theorem take (s : SharedSocket) (a : SocketAddress) (d : Datagram) : Grows s (s.take a d) := by
  rw [SharedSocket.take]
  split
  · exact .same rfl rfl
  · split
    · exact ⟨(addPeer s a).peers, rfl⟩
    · exact .refl s

theorem admit? (hs : s.admit? p d = some s') : Grows s s' := by
  obtain ⟨-, -, rfl⟩ | ⟨-, rfl⟩ := admit?_eq_some hs
  · exact .same rfl rfl
  · exact ⟨(discard s p).peers, (discard s p).inbox⟩

theorem forward? (hs : s.forward? p d = some s') : Grows s s' := by
  obtain ⟨_, _, ⟨-, -, rfl⟩ | ⟨-, rfl⟩⟩ := forward?_eq_some hs
  · exact .same (List.length_modify ..) rfl
  · exact .same rfl rfl

theorem notice (s : SharedSocket) : Grows s s.notice := by
  rw [SharedSocket.notice]
  split
  · exact .same rfl rfl
  · exact .same rfl rfl

theorem stop (s : SharedSocket) : Grows s s.stop := by
  rw [SharedSocket.stop]
  split
  · next p _ _ => exact ⟨(discard s p).peers, (discard s p).inbox⟩
  · exact .same rfl rfl
  · exact .same rfl rfl
  · exact .same rfl rfl

theorem accept (s : SharedSocket) : Grows s s.accept.2 := by
  rw [SharedSocket.accept]
  split
  · split
    · exact .same rfl rfl
    · exact .refl s
  · exact .refl s

theorem read (s : SharedSocket) (n p : Nat) : Grows s (s.read n p).2 := by
  rw [SharedSocket.read]
  split
  · exact .refl s
  · exact .same List.length_set rfl

theorem ite {c : Prop} [Decidable c] (h : Grows s s') : Grows s (if c then s' else s) := by
  split
  · exact h
  · exact .refl s

end Grows

structure Proceeds (s s' : SharedSocket) (came arrived : List (SocketAddress × Datagram)) :
    Prop where
  peers : s.peers.length ≤ s'.peers.length
  inbox : came ++ receivedOf s'.inbox = receivedOf (s.inbox ++ arrived)

theorem Grows.proceeds (h : Grows s s') : Proceeds s s' [] [] where
  peers := h.peers
  inbox := by rw [h.inbox, List.nil_append, List.append_nil]

theorem proceeds_distributes (hs : s.Distributes s') :
    Proceeds s s' (s.taken .distribute) [] := by
  cases hs with
  | stops hc =>
    rw [taken_of_cancelled hc]
    exact (Grows.stop s).proceeds
  | rests hs =>
    rw [taken_of_work?_eq_none hs]
    exact (Grows.refl s).proceeds
  | admits ht hs =>
    rw [taken_of_ne (by simp [ht])]
    exact (Grows.admit? hs).proceeds
  | forwards ht hs =>
    rw [taken_of_ne (by simp [ht])]
    exact (Grows.forward? hs).proceeds
  | @takes a d rest hc ht hi =>
    rw [taken_of_cons hc ht hi]
    have hgrows := Grows.take { s with inbox := rest } a (received d)
    constructor
    · exact hgrows.peers
    · rw [hgrows.inbox, hi, List.append_nil]
      rfl
  | notices _ hi =>
    rw [taken_of_nil hi]
    exact (Grows.notice s).proceeds

theorem proceeds_act (s : SharedSocket) (x : Move) :
    Proceeds s (s.act x) (s.taken x) (arrivals [x]) := by
  cases x with
  | arrive a d => exact ⟨Nat.le_refl _, rfl⟩
  | distribute => exact proceeds_distributes (distributes_act s)
  | notice => exact (Grows.ite (.notice s)).proceeds
  | accept => exact (Grows.accept s).proceeds
  | connectFrom a => exact (Grows.ite (.addPeer s a)).proceeds
  | read n p => exact (Grows.ite (.read s n p)).proceeds
  | close p => exact (Grows.ite (.release s p)).proceeds
  | discard p => exact (Grows.ite (.discard s p)).proceeds
  | shutDown =>
    have h := Grows.discardAll { s with isOpen := false, waiting := [] } s.waiting
    exact Grows.proceeds ⟨h.peers, h.inbox⟩
  | abandon =>
    rw [act, abandon, dismiss]
    apply Grows.proceeds
    split
    · have h := Grows.discardAll { s with isOpen := false, waiting := [], isCancelled := true }
        s.waiting
      exact ⟨h.peers, h.inbox⟩
    · have h := Grows.discardAll { s with isOpen := false, waiting := [], signal := true }
        s.waiting
      exact ⟨h.peers, h.inbox⟩

end SharedSocket

/-- A shared socket with a record of what has come through it. -/
structure Watched where
  socket : SharedSocket := {}
  /-- The datagrams that the distributor has taken in hand. -/
  received : List (SocketAddress × Datagram) := []
  /-- For each peer, how many datagrams had been received before it was made. -/
  made : List Nat := []
  /-- The pieces that each peer has read. -/
  pieces : Nat → List (List UInt8) := fun _ => []

namespace Watched

variable {o : Watched} {p : Nat} {peer peer' : Peer} {x : Move}

def act (o : Watched) (x : Move) : Watched where
  socket := o.socket.act x
  received := o.received ++ o.socket.taken x
  made := o.made ++
    List.replicate ((o.socket.act x).peers.length - o.made.length) o.received.length
  pieces p := o.pieces p ++ o.socket.given x p

def run (o : Watched) (schedule : List Move) : Watched := schedule.foldl act o

/-- The record has no influence on the socket. -/
theorem socket_run (o : Watched) (schedule : List Move) :
    (o.run schedule).socket = o.socket.run schedule := by
  induction schedule generalizing o with
  | nil => rfl
  | cons x schedule ih => exact ih (o.act x)

/-- The datagrams of a peer that reads nothing and has been made for the `k`th one. -/
def due (o : Watched) (k : Nat) (a : SocketAddress) : List Datagram :=
  sentFrom a (o.received.drop k)

/-- What a peer has read and what is still there for it are the datagrams it is due: the pieces that
it has read and what is left of the last datagram split the first ones, the others are in its queue
and in the hand of the distributor. -/
def Delivered (o : Watched) (p : Nat) (peer : Peer) : Prop :=
  ∃ k first front, o.made[p]? = some k ∧ o.received[k]? = some (peer.address, first) ∧
    Splits (o.pieces p ++ peer.left) front ∧
      front ++ peer.queue ++ o.socket.task.inHand p = o.due k peer.address

theorem Delivered.flows (h : o.Delivered p peer)
    (hf : o.socket.Flows (o.socket.act x) (o.socket.taken x) (o.socket.given x p) p peer peer') :
    (o.act x).Delivered p peer' := by
  obtain ⟨k, first, front, hmade, hfirst, hread, hdue⟩ := h
  obtain ⟨-, -, haddress, passed, hmoves, hsplits⟩ := hf
  have hp := (List.getElem?_eq_some_iff.1 hmade).1
  have hk := (List.getElem?_eq_some_iff.1 hfirst).1
  have hmade' : (o.act x).made[p]? = some k := (List.getElem?_append_left hp).trans hmade
  have hfirst' : (o.act x).received[k]? = some (peer.address, first) :=
    (List.getElem?_append_left hk).trans hfirst
  have hafter : (o.act x).due k peer'.address =
      o.due k peer.address ++ sentFrom peer.address (o.socket.taken x) := by
    rw [due, due, haddress, ← sentFrom_append, ← List.drop_append_of_le_length (Nat.le_of_lt hk)]
    rfl
  have hdue' : front ++ passed ++ peer'.queue ++ (o.act x).socket.task.inHand p =
      (o.act x).due k peer'.address := by
    have hfront := congrArg (front ++ ·) hmoves
    rw [hafter, ← hdue]
    simp only [List.append_assoc] at hfront ⊢
    exact hfront.symm
  rw [← haddress] at hfirst'
  exact ⟨k, first, front ++ passed, hmade', hfirst', hsplits _ _ hread, hdue'⟩

/-- Live peers get what they are due. -/
structure Faithful (o : Watched) : Prop where
  regular : o.socket.Regular
  made : o.made.length = o.socket.peers.length
  unread : ∀ p, o.socket.peers.length ≤ p → o.pieces p = []
  delivered : ∀ p peer, o.socket.peers[p]? = some peer → peer.isLive = true → o.Delivered p peer

theorem made_act (h : o.made.length = o.socket.peers.length) (x : Move) :
    (o.act x).made.length = (o.act x).socket.peers.length := by
  have hpeers := (SharedSocket.proceeds_act o.socket x).peers
  show (o.made ++ List.replicate _ _).length = (o.socket.act x).peers.length
  rw [List.length_append, List.length_replicate, h]
  omega

theorem made_new (h : o.made.length = o.socket.peers.length) (hp : o.socket.peers.length ≤ p)
    (hlt : p < (o.socket.act x).peers.length) : (o.act x).made[p]? = some o.received.length := by
  show (o.made ++ List.replicate _ _)[p]? = _
  rw [List.getElem?_append_right (h ▸ hp), List.getElem?_replicate, if_pos]
  rw [h]
  omega

theorem Faithful.born (h : o.Faithful) (hp : (o.socket.act x).peers[p]? = some peer)
    (hb : o.socket.Born (o.socket.act x) (o.socket.taken x) p peer) :
    (o.act x).Delivered p peer := by
  obtain ⟨hindex, a, d, htaken, rfl, htask⟩ := hb
  have hnone : o.socket.peers[p]? = none := List.getElem?_eq_none (Nat.le_of_eq hindex.symm)
  have hreceived : (o.act x).received = o.received ++ [(a, d)] := congrArg (o.received ++ ·) htaken
  have hpieces : (o.act x).pieces p = [] := by
    show o.pieces p ++ o.socket.given x p = []
    rw [h.unread p (Nat.le_of_eq hindex.symm), SharedSocket.given_eq_nil hnone]
    rfl
  have hmade : (o.act x).made[p]? = some o.received.length :=
    made_new h.made (Nat.le_of_eq hindex.symm) (List.getElem?_eq_some_iff.1 hp).1
  have hfirst : (o.act x).received[o.received.length]? = some (a, d) := by
    rw [hreceived]
    exact List.getElem?_concat_length
  have hread : Splits ((o.act x).pieces p ++ []) [] := by
    rw [hpieces]
    exact .nil
  have hhand : (o.act x).socket.task.inHand p = [d] := by
    show (o.socket.act x).task.inHand p = [d]
    rw [htask]
    exact if_pos rfl
  have hdue : [] ++ [] ++ (o.act x).socket.task.inHand p = (o.act x).due o.received.length a := by
    rw [due, hreceived, List.drop_left, sentFrom_self, hhand]
    rfl
  exact ⟨o.received.length, d, [], hmade, hfirst, hread, hdue⟩

theorem Faithful.start : Faithful {} where
  regular := .start
  made := rfl
  unread _ _ := rfl
  delivered := nofun

theorem Faithful.act (h : o.Faithful) (hx : ∀ a, x ≠ .connectFrom a) : (o.act x).Faithful where
  regular := by
    apply h.regular.act x
    cases x with
    | connectFrom a => exact (hx a rfl).elim
    | _ => trivial
  made := made_act h.made x
  unread p hp := by
    have hlen := Nat.le_trans (SharedSocket.proceeds_act o.socket x).peers hp
    show o.pieces p ++ o.socket.given x p = []
    rw [h.unread p hlen, SharedSocket.given_eq_nil (List.getElem?_eq_none hlen)]
    rfl
  delivered p peer hp hl := by
    rcases h.regular.carries hx p peer hp hl with ⟨was, hflows⟩ | hborn
    · exact (h.delivered p was hflows.was hflows.live).flows hflows
    · exact h.born hp hborn

theorem Faithful.run (h : o.Faithful) (schedule : List Move)
    (hno : ∀ a, .connectFrom a ∉ schedule) : (o.run schedule).Faithful := by
  induction schedule generalizing o with
  | nil => exact h
  | cons x schedule ih =>
    have hx : ∀ a, x ≠ .connectFrom a := by
      rintro a rfl
      exact hno a List.mem_cons_self
    exact ih (h.act hx) fun a ha => hno a (List.mem_cons_of_mem x ha)

/-- A datagram makes a new peer, which has read nothing and is due nothing that came before. -/
structure Renews (o : Watched) (a : SocketAddress) (d : Datagram) : Prop where
  peer : (o.act .distribute).socket.peers[o.socket.peers.length]? = some { address := a }
  task : (o.act .distribute).socket.task = .admitting o.socket.peers.length d
  unread : (o.act .distribute).pieces o.socket.peers.length = []
  made : ∀ later,
    ((o.act .distribute).run later).made[o.socket.peers.length]? = some o.received.length

/-- What is true of a shared socket after a schedule. -/
structure Exact (schedule : List Move) (o : Watched) : Prop where
  arrived : o.received ++ SharedSocket.receivedOf o.socket.inbox =
    SharedSocket.receivedOf (arrivals schedule)
  delivered : ∀ p peer, o.socket.peers[p]? = some peer → peer.isLive = true → o.Delivered p peer
  unique : ∀ p q a, o.socket.LivesAt p a → o.socket.LivesAt q a → p = q
  renewed : ∀ a d rest, o.socket.isOpen = true → o.socket.task = .idle →
    o.socket.inbox = (a, d) :: rest → (∀ p, ¬o.socket.LivesAt p a) →
      o.Renews a (SharedSocket.received d)

theorem made_run {k : Nat} (h : o.made[p]? = some k) (schedule : List Move) :
    (o.run schedule).made[p]? = some k := by
  induction schedule generalizing o with
  | nil => exact h
  | cons x schedule ih =>
    have hp := (List.getElem?_eq_some_iff.1 h).1
    exact ih ((List.getElem?_append_left hp).trans h)

theorem arrived_run (schedule : List Move) :
    (o.run schedule).received ++ SharedSocket.receivedOf (o.run schedule).socket.inbox =
      o.received ++ SharedSocket.receivedOf (o.socket.inbox ++ arrivals schedule) := by
  induction schedule generalizing o with
  | nil =>
    rw [arrivals, List.filterMap_nil, List.append_nil]
    rfl
  | cons x schedule ih =>
    have hinbox := (SharedSocket.proceeds_act o.socket x).inbox
    have hx : (o.act x).received ++ SharedSocket.receivedOf (o.act x).socket.inbox =
        o.received ++ SharedSocket.receivedOf (o.socket.inbox ++ arrivals [x]) := by
      rw [← hinbox, ← List.append_assoc]
      rfl
    have harrivals : arrivals (x :: schedule) = arrivals [x] ++ arrivals schedule := by
      rw [← List.singleton_append, arrivals, List.filterMap_append]
      rfl
    show ((o.act x).run schedule).received ++
      SharedSocket.receivedOf ((o.act x).run schedule).socket.inbox = _
    rw [ih, harrivals, SharedSocket.receivedOf_append, ← List.append_assoc, hx, List.append_assoc,
      ← SharedSocket.receivedOf_append, List.append_assoc]

theorem Faithful.renews (h : o.Faithful) {a : SocketAddress} {d : Datagram}
    {rest : List (SocketAddress × Datagram)} (hopen : o.socket.isOpen = true)
    (hidle : o.socket.task = .idle) (hinbox : o.socket.inbox = (a, d) :: rest)
    (hnone : ∀ p, ¬o.socket.LivesAt p a) : o.Renews a (SharedSocket.received d) := by
  have hcancelled : ¬(o.socket.isCancelled = true ∧ o.socket.task ≠ .stopped) := by
    intro hc
    cases hc.1.symm.trans (h.regular.isCancelled_of_isOpen hopen)
  have hstep : o.socket.act .distribute =
      { (o.socket.addPeer a).2 with
        inbox := rest
        task := .admitting o.socket.peers.length (SharedSocket.received d) } := by
    have hpeer : SharedSocket.peerFor? { o.socket with inbox := rest, task := .idle } a = none :=
      h.regular.peerFor?_eq_none hnone
    rw [SharedSocket.act, SharedSocket.distribute?, if_neg hcancelled, SharedSocket.work?, hidle,
      hinbox]
    exact SharedSocket.take_new hpeer hopen (SharedSocket.received d)
  have hpeer : (o.act .distribute).socket.peers[o.socket.peers.length]? =
      some { address := a } := by
    show (o.socket.act .distribute).peers[_]? = _
    rw [hstep]
    exact List.getElem?_concat_length
  have htask : (o.act .distribute).socket.task =
      .admitting o.socket.peers.length (SharedSocket.received d) := by
    show (o.socket.act .distribute).task = _
    rw [hstep]
  have hunread : (o.act .distribute).pieces o.socket.peers.length = [] := by
    show o.pieces _ ++ [] = []
    rw [h.unread _ (Nat.le_refl _)]
    rfl
  have hlen : o.socket.peers.length < (o.socket.act .distribute).peers.length :=
    (List.getElem?_eq_some_iff.1 hpeer).1
  exact ⟨hpeer, htask, hunread, made_run (made_new h.made (Nat.le_refl _) hlen)⟩

end Watched

/-- What the live peers of a shared socket get is exact after every schedule in which no peer is
made on demand and no move is interrupted. -/
theorem deliveries_exact (schedule : List Move) (hno : ∀ a, .connectFrom a ∉ schedule) :
    (Watched.run {} schedule).Exact schedule := by
  have h := Watched.Faithful.start.run schedule hno
  exact ⟨Watched.arrived_run schedule, h.delivered, fun _ _ _ => h.regular.unique,
    fun _ _ _ => h.renews⟩

/-- One peer reads a datagram in two pieces, is closed and comes back; another one sends nothing but
an empty datagram. -/
def comingAndGoing : List Move :=
  [.arrive (.loopback 7) [1, 2], .arrive (.loopback 9) [], .distribute, .distribute, .distribute,
    .accept, .read 1 0, .read 1 0, .distribute, .distribute, .distribute, .accept, .read 4 1,
    .close 0, .arrive (.loopback 7) [3], .distribute, .distribute, .accept, .shutDown, .distribute]

theorem deliveries_exact_comingAndGoing :
    (Watched.run {} comingAndGoing).Exact comingAndGoing := by
  apply deliveries_exact comingAndGoing
  intro a ha
  simp [comingAndGoing] at ha

end Wirebench.Loopback

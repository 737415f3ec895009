import Wirebench.Proofs.Loopback.Ownership

namespace Wirebench.Loopback

/-- Pieces that have been read are those of some datagrams, one datagram after the other. No piece
has parts of two datagrams. -/
def Splits (pieces : List (List UInt8)) (datagrams : List Datagram) : Prop :=
  ∃ groups : List (List (List UInt8)),
    groups.flatten = pieces ∧ groups.map List.flatten = datagrams

namespace Splits

variable {pieces more : List (List UInt8)} {datagrams : List Datagram} {d : Datagram}

theorem nil : Splits [] [] := ⟨[], rfl, rfl⟩

theorem same (h : Splits (pieces ++ more) datagrams) :
    Splits (pieces ++ [] ++ more) (datagrams ++ []) := by
  rwa [List.append_nil, List.append_nil]

theorem snoc (h : Splits pieces datagrams) (hd : more.flatten = d) :
    Splits (pieces ++ more) (datagrams ++ [d]) := by
  obtain ⟨groups, rfl, rfl⟩ := h
  subst hd
  exact ⟨groups ++ [more], by simp, by simp⟩

theorem skip (h : Splits pieces datagrams) {empties : List Datagram}
    (hempty : ∀ d ∈ empties, d = []) : Splits pieces (datagrams ++ empties) := by
  induction empties generalizing datagrams with
  | nil => rwa [List.append_nil]
  | cons d empties ih =>
    have hd : ([] : List (List UInt8)).flatten = d := (hempty d List.mem_cons_self).symm
    have hsnoc := h.snoc hd
    rw [List.append_nil] at hsnoc
    rw [List.append_cons]
    exact ih hsnoc fun d hd => hempty d (List.mem_cons_of_mem _ hd)

theorem cut (h : Splits (pieces ++ [d]) datagrams) (hd : more.flatten = d) :
    Splits (pieces ++ more) datagrams := by
  obtain ⟨groups, hflat, rfl⟩ := h
  induction groups generalizing pieces with
  | nil => cases List.append_eq_nil_iff.1 hflat.symm |>.2
  | cons group groups ih =>
    rw [List.flatten_cons] at hflat
    rcases List.eq_nil_or_concat groups.flatten with hnil | ⟨rest, last, hlast⟩
    · rw [hnil, List.append_nil] at hflat
      subst hflat
      apply Exists.intro ((pieces ++ more) :: groups)
      constructor
      · rw [List.flatten_cons, hnil, List.append_nil]
      · rw [List.map_cons, List.map_cons, List.flatten_append, List.flatten_append, hd,
          List.flatten_singleton]
    · rw [hlast, List.concat_eq_append, ← List.append_assoc] at hflat
      obtain ⟨rfl, heq⟩ := List.append_inj' hflat rfl
      cases heq
      have hrest : groups.flatten = rest ++ [d] := by rw [hlast, List.concat_eq_append]
      obtain ⟨groups', hflat', hmap⟩ := ih hrest
      apply Exists.intro (group :: groups')
      constructor
      · rw [List.flatten_cons, hflat', List.append_assoc]
      · rw [List.map_cons, hmap, List.map_cons]

end Splits

namespace Peer

/-- What is left of the datagram read last, as a piece to come. -/
def left (p : Peer) : List (List UInt8) := if p.rest.isEmpty then [] else [p.rest]

theorem flatten_left (p : Peer) : p.left.flatten = p.rest := by
  rw [left]
  split
  · next h => exact (List.isEmpty_iff.1 h).symm
  · exact List.flatten_singleton

theorem flatten_read {p : Peer} {n : Nat} {bytes : List UInt8} (h : p.rest = bytes.drop n) :
    ([bytes.take n] ++ p.left).flatten = bytes := by
  rw [List.flatten_append, flatten_left, List.flatten_singleton, h, List.take_append_drop]

theorem left_of_isEmpty {p : Peer} (h : p.rest.isEmpty = true) : p.left = [] := if_pos h

theorem left_of_not_isEmpty {p : Peer} (h : p.rest.isEmpty = false) : p.left = [p.rest] := by
  rw [left, h]
  rfl

theorem read_rest {p : Peer} (h : p.rest.isEmpty = false) (n : Nat) :
    p.read n = (some (p.rest.take n), { p with rest := p.rest.drop n }) := by
  rw [read, h]
  rfl

theorem read_none {p : Peer} (h : p.rest.isEmpty = true)
    (hdrop : p.queue.dropWhile List.isEmpty = []) (n : Nat) :
    p.read n = (none, { p with queue := [] }) := by
  rw [read, if_pos h, hdrop]

theorem read_next {p : Peer} {d : Datagram} {queue : List Datagram} (h : p.rest.isEmpty = true)
    (hdrop : p.queue.dropWhile List.isEmpty = d :: queue) (n : Nat) :
    p.read n = (some (d.take n), { p with rest := d.drop n, queue }) := by
  rw [read, if_pos h, hdrop]

/-- A read moves on in the queue, and the pieces split what it has passed. -/
theorem read_splits (n : Nat) (p : Peer) :
    ∃ passed, p.queue = passed ++ (p.read n).2.queue ∧
      ∀ pieces datagrams, Splits (pieces ++ p.left) datagrams →
        Splits (pieces ++ (p.read n).1.toList ++ (p.read n).2.left) (datagrams ++ passed) := by
  cases hrest : p.rest.isEmpty with
  | false =>
    rw [read_rest hrest, left_of_not_isEmpty hrest]
    apply Exists.intro []
    apply And.intro rfl
    intro pieces datagrams h
    rw [List.append_nil, List.append_assoc]
    exact h.cut (flatten_read rfl)
  | true =>
    have hempty : ∀ d ∈ p.queue.takeWhile List.isEmpty, d = [] := by
      intro d hd
      exact List.isEmpty_iff.1 (List.all_eq_true.1 List.all_takeWhile d hd)
    have hqueue := List.takeWhile_append_dropWhile (p := List.isEmpty) (l := p.queue)
    rw [left_of_isEmpty hrest]
    cases hdrop : p.queue.dropWhile List.isEmpty with
    | nil =>
      rw [hdrop, List.append_nil] at hqueue
      rw [hqueue] at hempty
      rw [read_none hrest hdrop]
      apply Exists.intro p.queue
      apply And.intro (List.append_nil _).symm
      intro pieces datagrams h
      have hleft : ({ p with queue := [] } : Peer).left = [] := left_of_isEmpty hrest
      rw [List.append_nil] at h
      rw [hleft, List.append_nil]
      exact (List.append_nil pieces).symm ▸ h.skip hempty
    | cons d queue =>
      rw [hdrop] at hqueue
      rw [read_next hrest hdrop]
      apply Exists.intro (p.queue.takeWhile List.isEmpty ++ [d])
      constructor
      · rw [List.append_assoc]
        exact hqueue.symm
      · intro pieces datagrams h
        rw [List.append_nil] at h
        rw [← List.append_assoc, List.append_assoc]
        exact (h.skip hempty).snoc (flatten_read rfl)

end Peer

def Task.inHand (p : Nat) : Task → List Datagram
  | admitting q d | forwarding q d => if q = p then [d] else []
  | idle | stopped => []

def sentFrom (a : SocketAddress) (datagrams : List (SocketAddress × Datagram)) : List Datagram :=
  (datagrams.filter (·.1 = a)).map (·.2)

theorem inHand_of_ne {p q : Nat} (h : p ≠ q) (d : Datagram) : (Task.forwarding q d).inHand p = [] :=
  if_neg h.symm

theorem sentFrom_of_ne {a b : SocketAddress} (h : b ≠ a) (d : Datagram) :
    sentFrom a [(b, d)] = [] := by
  rw [sentFrom, List.filter_cons_of_neg (by simpa using h)]
  rfl

theorem sentFrom_self (a : SocketAddress) (d : Datagram) : sentFrom a [(a, d)] = [d] := by
  rw [sentFrom, List.filter_cons_of_pos (by simp)]
  rfl

theorem sentFrom_append (a : SocketAddress) (xs ys : List (SocketAddress × Datagram)) :
    sentFrom a (xs ++ ys) = sentFrom a xs ++ sentFrom a ys := by
  rw [sentFrom, List.filter_append, List.map_append]
  rfl

namespace SharedSocket

/-- What is received of some datagrams. -/
def receivedOf (datagrams : List (SocketAddress × Datagram)) : List (SocketAddress × Datagram) :=
  datagrams.map fun x => (x.1, received x.2)

variable {s s' : SharedSocket} {a : SocketAddress} {p q : Nat} {peer peer' : Peer} {d : Datagram}
variable {came : List (SocketAddress × Datagram)} {pieces : Nat → List (List UInt8)}

/-- The datagrams that the distributor takes in hand in a move. -/
def taken (s : SharedSocket) : Move → List (SocketAddress × Datagram)
  | .distribute => if s.task = .idle ∧ ¬s.isCancelled then receivedOf (s.inbox.take 1) else []
  | .arrive .. | .notice | .accept | .connectFrom _ | .read .. | .close _ | .discard _ | .shutDown
  | .abandon => []

/-- The pieces that a peer reads in a move. -/
def given (s : SharedSocket) (x : Move) (p : Nat) : List (List UInt8) :=
  match x with
  | .read n q =>
    if q = p ∧ s.isHandedOut q then
      match (s.read n q).1 with
      | .ok bytes => [bytes]
      | .error _ | .waiting | .stalled => []
    else []
  | .arrive .. | .distribute | .notice | .accept | .connectFrom _ | .close _ | .discard _
  | .shutDown | .abandon => []

/-- A live peer gets the datagrams from its address, and keeps all that it does not pass on. -/
structure Flows (s s' : SharedSocket) (came : List (SocketAddress × Datagram))
    (pieces : List (List UInt8)) (p : Nat) (peer peer' : Peer) : Prop where
  was : s.peers[p]? = some peer
  live : peer.isLive = true
  address : peer'.address = peer.address
  moves : ∃ passed,
    peer.queue ++ s.task.inHand p ++ sentFrom peer.address came =
        passed ++ peer'.queue ++ s'.task.inHand p ∧
      ∀ earlier datagrams, Splits (earlier ++ peer.left) datagrams →
        Splits (earlier ++ pieces ++ peer'.left) (datagrams ++ passed)

/-- A new peer is made for a datagram, which it gets first. -/
structure Born (s s' : SharedSocket) (came : List (SocketAddress × Datagram)) (p : Nat)
    (peer' : Peer) : Prop where
  index : p = s.peers.length
  fresh : ∃ a d, came = [(a, d)] ∧ peer' = { address := a } ∧ s'.task = .admitting p d

/-- What becomes of the live peers when some datagrams come in and some pieces are read. -/
def Carries (s s' : SharedSocket) (came : List (SocketAddress × Datagram))
    (pieces : Nat → List (List UInt8)) : Prop :=
  ∀ p peer', s'.peers[p]? = some peer' → peer'.isLive = true →
    (∃ peer, Flows s s' came (pieces p) p peer peer') ∨ Born s s' came p peer'

theorem receivedOf_append (xs ys : List (SocketAddress × Datagram)) :
    receivedOf (xs ++ ys) = receivedOf xs ++ receivedOf ys :=
  List.map_append

theorem Flows.still (hp : s.peers[p]? = some peer) (hl : peer.isLive = true)
    (hhand : s.task.inHand p ++ sentFrom peer.address came = s'.task.inHand p) :
    Flows s s' came [] p peer peer := by
  have hmoves : peer.queue ++ s.task.inHand p ++ sentFrom peer.address came =
      peer.queue ++ s'.task.inHand p := by
    rw [List.append_assoc, hhand]
  exact ⟨hp, hl, rfl, [], hmoves, fun _ _ h => h.same⟩

theorem Carries.still
    (hpeers : ∀ p peer, s'.peers[p]? = some peer → peer.isLive = true →
      s.peers[p]? = some peer ∧ s.task.inHand p = s'.task.inHand p) :
    Carries s s' [] fun _ => [] := by
  intro p peer hp hl
  obtain ⟨hp', hhand⟩ := hpeers p peer hp hl
  exact .inl ⟨peer, .still hp' hl (by rw [hhand]; exact List.append_nil _)⟩

theorem Carries.refl (s : SharedSocket) : Carries s s [] fun _ => [] :=
  .still fun _ _ hp _ => ⟨hp, rfl⟩

theorem Carries.of_same {s₀ : SharedSocket} (h : Carries s s' came pieces)
    (hpeers : s₀.peers = s.peers) (htask : s₀.task = s.task) : Carries s₀ s' came pieces := by
  intro p peer' hp hl
  rcases h p peer' hp hl with ⟨peer, hf⟩ | hb
  · left
    have hhand : s₀.task.inHand p = s.task.inHand p := congrArg (Task.inHand p) htask
    exact ⟨peer, hpeers ▸ hf.was, hf.live, hf.address, hhand ▸ hf.moves⟩
  · right
    exact ⟨hpeers ▸ hb.index, hb.fresh⟩

theorem Carries.ite {c : Prop} [Decidable c] (h : c → Carries s s' [] fun _ => []) :
    Carries s (if c then s' else s) [] fun _ => [] := by
  split
  · next hc => exact h hc
  · exact .refl s

theorem peers_of_live {f : Peer → Peer} (hf : ∀ peer, (f peer).isLive = false)
    (hp : (s.peers[p]?.map fun peer => if q = p then f peer else peer) = some peer)
    (hl : peer.isLive = true) : p ≠ q ∧ s.peers[p]? = some peer := by
  obtain ⟨was, hwas, rfl⟩ := Option.map_eq_some_iff.1 hp
  by_cases h : q = p
  · rw [if_pos h, hf] at hl
    cases hl
  · rw [if_neg h]
    exact ⟨Ne.symm h, hwas⟩

theorem peers_of_live_release (hp : (s.release q).peers[p]? = some peer) (hl : peer.isLive = true) :
    p ≠ q ∧ s.peers[p]? = some peer := by
  rw [peers_release] at hp
  exact peers_of_live (fun _ => rfl) hp hl

theorem peers_of_live_discard (hp : (s.discard q).peers[p]? = some peer) (hl : peer.isLive = true) :
    p ≠ q ∧ s.peers[p]? = some peer := by
  rw [peers_discard] at hp
  exact peers_of_live (fun _ => rfl) hp hl

theorem peers_of_live_discardAll {ps : List Nat} (hp : (ps.foldl discard s).peers[p]? = some peer)
    (hl : peer.isLive = true) : s.peers[p]? = some peer := by
  induction ps generalizing s with
  | nil => exact hp
  | cons q ps ih => exact (peers_of_live_discard (ih hp) hl).2

theorem task_discardAll (s : SharedSocket) (ps : List Nat) :
    (ps.foldl discard s).task = s.task := by
  induction ps generalizing s with
  | nil => rfl
  | cons q ps ih => exact (ih _).trans (task_release s q)

theorem taken_of_cancelled (h : s.isCancelled = true) : s.taken .distribute = [] :=
  if_neg fun hc => hc.2 h

theorem taken_of_ne (h : s.task ≠ .idle) : s.taken .distribute = [] :=
  if_neg fun hc => h hc.1

theorem taken_of_nil (h : s.inbox = []) : s.taken .distribute = [] := by
  rw [taken, h]
  exact ite_self []

theorem taken_of_cons {x : SocketAddress × Datagram} {rest : List (SocketAddress × Datagram)}
    (hc : ¬s.isCancelled = true) (ht : s.task = .idle) (hi : s.inbox = x :: rest) :
    s.taken .distribute = receivedOf [x] := by
  rw [taken, if_pos ⟨ht, hc⟩, hi]
  rfl

theorem taken_of_work?_eq_none (h : s.work? = none) : s.taken .distribute = [] := by
  by_cases ht : s.task = .idle
  · apply taken_of_nil
    rw [work?, ht] at h
    cases hi : s.inbox with
    | nil => rfl
    | cons x rest =>
      rw [hi] at h
      cases h
  · exact taken_of_ne ht

theorem peers_of_live_stop (hp : s.stop.peers[p]? = some peer) (hl : peer.isLive = true) :
    s.peers[p]? = some peer := by
  rw [stop] at hp
  split at hp
  · exact (peers_of_live_discard hp hl).2
  · exact hp
  · exact hp
  · exact hp

theorem carries_notice (hidle : s.task = .idle) : Carries s s.notice [] fun _ => [] := by
  apply Carries.still
  intro p peer hp hl
  rw [notice] at hp ⊢
  rw [hidle]
  split at hp
  · next h =>
    rw [if_pos h]
    exact ⟨hp, rfl⟩
  · next h =>
    rw [if_neg h]
    exact ⟨hp, rfl⟩

theorem carries_admit? (hq : s.task = .admitting q d)
    (hs : s.admit? q d = some s') : Carries s s' [] fun _ => [] := by
  apply Carries.still
  intro p peer hp hl
  obtain ⟨-, -, rfl⟩ | ⟨-, rfl⟩ := admit?_eq_some hs
  · have hhand : s.task.inHand p = (Task.forwarding q d).inHand p := by
      rw [hq]
      rfl
    exact ⟨hp, hhand⟩
  · obtain ⟨hne, hp'⟩ := peers_of_live_discard hp hl
    have hhand : s.task.inHand p = [] := by
      rw [hq]
      exact if_neg hne.symm
    exact ⟨hp', hhand⟩

theorem carries_forward? (hq : s.task = .forwarding q d)
    (hs : s.forward? q d = some s') : Carries s s' [] fun _ => [] := by
  have hothers (p : Nat) (hne : p ≠ q) : s.task.inHand p = [] := by
    rw [hq]
    exact inHand_of_ne hne d
  obtain ⟨peer, hpeer, ⟨-, -, rfl⟩ | ⟨hdead, rfl⟩⟩ := forward?_eq_some hs
  · intro p peer' hp hl
    replace hp : (s.peers.modify q fun p => { p with queue := p.queue ++ [d] })[p]? =
        some peer' := hp
    rw [List.getElem?_modify] at hp
    obtain ⟨was, hwas, hmap⟩ := Option.map_eq_some_iff.1 hp
    left
    by_cases hqp : q = p
    · rw [if_pos hqp] at hmap
      subst hmap
      have hhand : s.task.inHand p = [d] := by
        rw [hq]
        exact if_pos hqp
      have hmoves : was.queue ++ s.task.inHand p ++ [] = was.queue ++ [d] ++ [] := by
        rw [hhand]
      exact ⟨was, hwas, hl, rfl, [], hmoves, fun _ _ h => h.same⟩
    · rw [if_neg hqp] at hmap
      subst hmap
      exact ⟨was, .still hwas hl (by rw [hothers p (Ne.symm hqp)]; rfl)⟩
  · apply Carries.still
    intro p peer' hp hl
    replace hp : s.peers[p]? = some peer' := hp
    have hne : p ≠ q := by
      rintro rfl
      cases hpeer.symm.trans hp
      exact hdead hl
    exact ⟨hp, hothers p hne⟩

theorem given_of_ne (h : q ≠ p) (n : Nat) : s.given (.read n q) p = [] :=
  if_neg fun hc => h hc.1

theorem read_of_peers (hq : s.peers[q]? = some peer) (n : Nat) :
    (s.read n q).2 = { s with peers := s.peers.set q (peer.read n).2 } := by
  rw [read, hq]

theorem given_read (hq : s.peers[q]? = some peer) (hout : s.isHandedOut q = true) (n : Nat) :
    s.given (.read n q) q = (peer.read n).1.toList := by
  rw [given, if_pos ⟨rfl, hout⟩, read, hq]
  simp only
  cases (peer.read n).1 with
  | some bytes => rfl
  | none =>
    cases s.isServed q with
    | true => rfl
    | false => rfl

theorem given_eq_nil (hp : s.peers[p]? = none) (x : Move) : s.given x p = [] := by
  cases x with
  | read n q =>
    rw [given]
    split
    · next h =>
      rw [h.1, read, hp]
    · rfl
  | _ => rfl

theorem carries_read (n q : Nat) :
    Carries s (s.act (.read n q)) [] (s.given (.read n q)) := by
  rw [act]
  by_cases hout : s.isHandedOut q = true
  · rw [if_pos hout]
    intro p peer' hp hl
    left
    cases hq : s.peers[q]? with
    | none =>
      have hread : (s.read n q).2 = s := by rw [read, hq]
      rw [hread] at hp ⊢
      have hpq : q ≠ p := by
        rintro rfl
        cases hq.symm.trans hp
      rw [given_of_ne hpq]
      exact ⟨peer', .still hp hl (List.append_nil _)⟩
    | some peer =>
      rw [read_of_peers hq] at hp ⊢
      replace hp : (s.peers.set q (peer.read n).2)[p]? = some peer' := hp
      rw [List.getElem?_set] at hp
      split at hp
      · next hpq =>
        subst hpq
        rw [if_pos (List.getElem?_eq_some_iff.1 hq).1] at hp
        cases hp
        rw [Peer.read_isLive] at hl
        obtain ⟨passed, hqueue, hsplits⟩ := peer.read_splits n
        have hmoves : peer.queue ++ s.task.inHand q ++ [] =
            passed ++ (peer.read n).2.queue ++ s.task.inHand q := by
          rw [← hqueue, List.append_nil]
        rw [given_read hq hout]
        exact ⟨peer, hq, hl, peer.read_address n, passed, hmoves, hsplits⟩
      · next hpq =>
        rw [given_of_ne hpq]
        exact ⟨peer', .still hp hl (List.append_nil _)⟩
  · rw [if_neg hout]
    have hgiven : (s.given (.read n q)) = fun _ => [] := by
      funext p
      exact if_neg fun h => hout h.2
    rw [hgiven]
    exact .refl s

theorem carries_accept : Carries s (s.act .accept) [] fun _ => [] := by
  have hpeers : s.accept.2.peers = s.peers ∧ s.accept.2.task = s.task := by
    rw [accept]
    split
    · split
      · exact ⟨rfl, rfl⟩
      · exact ⟨rfl, rfl⟩
    · exact ⟨rfl, rfl⟩
  apply Carries.still
  intro p peer hp _
  constructor
  · rw [← hpeers.1]
    exact hp
  · exact congrArg (Task.inHand p) hpeers.2.symm

theorem carries_release (q : Nat) : Carries s (s.release q) [] fun _ => [] := by
  apply Carries.still
  intro p peer hp hl
  rw [task_release]
  exact ⟨(peers_of_live_release hp hl).2, rfl⟩

theorem carries_discard (q : Nat) : Carries s (s.discard q) [] fun _ => [] := by
  apply Carries.still
  intro p peer hp hl
  have htask : (s.discard q).task = s.task := task_release s q
  rw [htask]
  exact ⟨(peers_of_live_discard hp hl).2, rfl⟩

theorem carries_discardAll (s₀ : SharedSocket) (ps : List Nat) (hpeers : s₀.peers = s.peers)
    (htask : s₀.task = s.task) (hpeers' : s'.peers = (ps.foldl discard s₀).peers)
    (htask' : s'.task = (ps.foldl discard s₀).task) : Carries s s' [] fun _ => [] := by
  apply Carries.still
  intro p peer hp hl
  constructor
  · rw [hpeers'] at hp
    rw [← hpeers]
    exact peers_of_live_discardAll hp hl
  · rw [htask', task_discardAll, htask]

namespace Regular

theorem carries_take_known (h : s.Regular) (hidle : s.task = .idle) (hq : s.peerFor? a = some q)
    (d : Datagram) : Carries s (s.take a d) [(a, d)] fun _ => [] := by
  rw [take_known hq]
  intro p peer hp hl
  replace hp : s.peers[p]? = some peer := hp
  left
  apply Exists.intro peer
  apply Flows.still hp hl
  rw [hidle]
  have hlive := livesAt_of_peers hp hl
  by_cases ha : a = peer.address
  · -- The table knows no other peer with the address.
    have hpq : q = p := h.unique ((h.entry a q).1 hq) (ha ▸ hlive)
    rw [ha, sentFrom_self]
    exact (if_pos hpq).symm
  · have hpq : p ≠ q := by
      rintro rfl
      exact ha (((h.entry a p).1 hq).address_eq hlive)
    rw [sentFrom_of_ne ha]
    exact (inHand_of_ne hpq d).symm

theorem sentFrom_unknown (h : s.Regular) (hq : s.peerFor? a = none)
    (hp : s.peers[p]? = some peer) (hl : peer.isLive = true) (d : Datagram) :
    sentFrom peer.address [(a, d)] = [] := by
  apply sentFrom_of_ne
  rintro rfl
  cases hq.symm.trans ((h.entry _ p).2 (livesAt_of_peers hp hl))

theorem carries_take_new (h : s.Regular) (hidle : s.task = .idle) (hq : s.peerFor? a = none)
    (hopen : s.isOpen = true) (d : Datagram) :
    Carries s (s.take a d) [(a, d)] fun _ => [] := by
  rw [take_new hq hopen]
  intro p peer hp hl
  replace hp : (s.peers ++ [({ address := a } : Peer)])[p]? = some peer := hp
  by_cases hlt : p < s.peers.length
  · left
    rw [List.getElem?_append_left hlt] at hp
    apply Exists.intro peer
    apply Flows.still hp hl
    rw [hidle, h.sentFrom_unknown hq hp hl]
    exact (if_neg (Nat.ne_of_gt hlt)).symm
  · right
    have hindex : p = s.peers.length := by
      have hlen := (List.getElem?_eq_some_iff.1 hp).1
      rw [List.length_append, List.length_singleton] at hlen
      omega
    subst hindex
    rw [List.getElem?_concat_length] at hp
    cases hp
    exact ⟨rfl, a, d, rfl, rfl, rfl⟩

theorem carries_take_closed (h : s.Regular) (hq : s.peerFor? a = none) (hopen : ¬s.isOpen = true)
    (d : Datagram) : Carries s (s.take a d) [(a, d)] fun _ => [] := by
  rw [take_closed hq hopen]
  intro p peer hp hl
  left
  apply Exists.intro peer
  apply Flows.still hp hl
  rw [h.sentFrom_unknown hq hp hl, List.append_nil]

theorem carries_take (h : s.Regular) (hidle : s.task = .idle) (a : SocketAddress) (d : Datagram) :
    Carries s (s.take a d) [(a, d)] fun _ => [] := by
  cases hq : s.peerFor? a with
  | some q => exact h.carries_take_known hidle hq d
  | none =>
    by_cases hopen : s.isOpen = true
    · exact h.carries_take_new hidle hq hopen d
    · exact h.carries_take_closed hq hopen d

theorem not_live_of_cancelled (h : s.Regular) (hc : s.isCancelled = true)
    (hp : s.peers[p]? = some peer) : ¬peer.isLive = true := by
  intro hl
  have hentry := (h.entry peer.address p).2 (livesAt_of_peers hp hl)
  rw [peerFor?, (h.cancelled hc).2] at hentry
  cases hentry

theorem carries_distributes (h : s.Regular) (hs : s.Distributes s') :
    Carries s s' (s.taken .distribute) fun _ => [] := by
  cases hs with
  | stops hc =>
    intro p peer hp hl
    exact (h.not_live_of_cancelled hc (peers_of_live_stop hp hl) hl).elim
  | rests hs =>
    rw [taken_of_work?_eq_none hs]
    exact .refl s
  | admits ht hs =>
    rw [taken_of_ne (by simp [ht])]
    exact carries_admit? ht hs
  | forwards ht hs =>
    rw [taken_of_ne (by simp [ht])]
    exact carries_forward? ht hs
  | @takes a d rest hc ht hi =>
    rw [taken_of_cons hc ht hi]
    exact ((h.withInbox rest).carries_take ht a (received d)).of_same rfl rfl
  | notices ht hi =>
    rw [taken_of_nil hi]
    exact carries_notice ht

theorem carries (h : s.Regular) {x : Move} (hx : ∀ a, x ≠ .connectFrom a) :
    Carries s (s.act x) (s.taken x) (s.given x) := by
  cases x with
  | arrive a d => exact .still fun p peer hp _ => ⟨hp, rfl⟩
  | distribute => exact h.carries_distributes (distributes_act s)
  | notice => exact .ite fun hidle => carries_notice hidle.1
  | accept => exact carries_accept
  | connectFrom a => exact (hx a rfl).elim
  | read n q => exact carries_read n q
  | close q => exact .ite fun _ => carries_release q
  | discard q => exact .ite fun _ => carries_discard q
  | shutDown =>
    exact carries_discardAll { s with isOpen := false, waiting := [] } s.waiting rfl rfl rfl rfl
  | abandon =>
    rw [SharedSocket.act, SharedSocket.abandon, dismiss]
    split
    · exact carries_discardAll { s with isOpen := false, waiting := [], isCancelled := true }
        s.waiting rfl rfl rfl rfl
    · exact carries_discardAll { s with isOpen := false, waiting := [], signal := true }
        s.waiting rfl rfl rfl rfl

end Regular

end SharedSocket

end Wirebench.Loopback

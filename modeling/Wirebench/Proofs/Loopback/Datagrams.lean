import Wirebench.Loopback.Network
import Wirebench.Proofs.Loopback.Flow
import Wirebench.Proofs.Wire.Transfers

namespace Wirebench

/-- The bytes that have been sent by a call. -/
def Call.sent? : Call → Option (List UInt8)
  | write data (.ok n) => some (data.take n)
  | read .. | write .. | writeUrgent .. | readUrgent .. | control .. | close _ => none

namespace Loopback

variable {h h' : Host} {a b : SocketAddress} {link : Link}

/-- The datagrams that have been sent by some calls. -/
def datagramsOf (made : List Call) : List Datagram := made.filterMap Call.sent?

theorem flatten_datagramsOf (made : List Call) :
    (datagramsOf made).flatten = made.flatMap Call.taken := by
  induction made with
  | nil => rfl
  | cons c made ih =>
    rw [datagramsOf, List.filterMap_cons, List.flatMap_cons, ← ih]
    cases c with
    | write data r => cases r <;> rfl
    | read | writeUrgent | readUrgent | control | close => rfl

namespace SharedSocket

/-- Peers are not forgotten, and keep their addresses. -/
def Remembers (s t : SharedSocket) : Prop :=
  ∀ p a, (s.status? p).map Prod.fst = some a → (t.status? p).map Prod.fst = some a

variable {s t u : SharedSocket}

theorem Remembers.trans (h : Remembers s t) (h' : Remembers t u) : Remembers s u :=
  fun p a hp => h' p a (h p a hp)

theorem remembers_discard (s : SharedSocket) (p : Nat) : Remembers s (s.discard p) := by
  intro q a hq
  rw [status?_discard, status?_release, status?_hangUp]
  split
  · rwa [Option.map_map]
  · exact hq

theorem remembers_take (s : SharedSocket) (a : SocketAddress) (d : Datagram) :
    Remembers s (s.take a d) := by
  intro q b hq
  cases hp : s.peerFor? a with
  | some p =>
    rw [take_known hp]
    exact hq
  | none =>
    by_cases hopen : s.isOpen = true
    · obtain ⟨x, hx, rfl⟩ := Option.map_eq_some_iff.1 hq
      rw [take_new hp hopen]
      exact congrArg (Option.map Prod.fst) (status?_addPeer_of_some hx a)
    · rwa [take_closed hp hopen]

theorem remembers_stop (s : SharedSocket) : Remembers s s.stop := by
  rw [stop]
  split
  · exact remembers_discard s _
  all_goals exact fun _ _ => id

theorem remembers_notice (s : SharedSocket) : Remembers s s.notice := by
  rw [notice]
  dsimp only
  split <;> exact fun _ _ => id

theorem Distributes.remembers (h : s.Distributes t) : Remembers s t := by
  cases h with
  | stops hc => exact remembers_stop s
  | rests hs => exact fun _ _ => id
  | @admits _ p d ht hs =>
    obtain ⟨-, -, rfl⟩ | ⟨-, rfl⟩ := admit?_eq_some hs
    · exact fun _ _ => id
    · exact remembers_discard s p
  | @forwards _ p d ht hs =>
    obtain ⟨peer, hpeer, ⟨-, -, rfl⟩ | ⟨-, rfl⟩⟩ := forward?_eq_some hs
    · intro q a hq
      have hsame := status?_modify (s := s) (p := p)
        (f := fun peer => { peer with queue := peer.queue ++ [d] }) (fun _ => rfl) (fun _ => rfl) q
      exact (congrArg (Option.map Prod.fst) hsame).trans hq
    · exact fun _ _ => id
  | @takes a d rest hc ht hi =>
    intro p b hp
    exact remembers_take { s with inbox := rest } a (received d) p b hp
  | notices ht hi => exact remembers_notice s

theorem remembers_distribute (n : Nat) (s : SharedSocket) : Remembers s (distribute n s) := by
  induction n generalizing s with
  | zero => exact fun _ _ => id
  | succ n ih =>
    rw [distribute]
    cases hs : s.distribute? with
    | none => exact fun _ _ => id
    | some t =>
      have hstep := s.distributes_act.remembers
      rw [act, hs] at hstep
      exact hstep.trans (ih t)

end SharedSocket

namespace Link

/-- The addresses between which a datagram goes over a link, and whether it is known that the link
can send. -/
def route? (link : Link) (h : Host) : Option ((SocketAddress × SocketAddress) × Bool) :=
  match link with
  | stream _ => none
  | datagram s => h.sockets[s]?.map fun s => ((s.localAddress, s.peer.address), s.isReady)
  | shared hub peer =>
    h.hubs[hub]?.bind fun s => (s.socket.status? peer).map fun p => ((s.address, p.1), s.isReady)

theorem addresses?_eq (link : Link) (h : Host) :
    link.addresses? h = (link.route? h).map Prod.fst := by
  cases link with
  | stream i => rfl
  | datagram s =>
    rw [addresses?, route?, Option.map_map]
    rfl
  | shared hub peer =>
    rw [addresses?, route?]
    cases h.hubs[hub]? with
    | none => rfl
    | some s =>
      rw [Option.bind_some, SharedSocket.status?, Option.map_map, Option.map_map]
      exact Option.map_eq_bind.symm

def isReady (link : Link) (h : Host) : Bool := ((link.route? h).map Prod.snd).getD true

theorem route?_shared {hub peer : Nat} {r : Bool}
    (hr : (shared hub peer).route? h = some ((a, b), r)) :
    ∃ s live, h.hubs[hub]? = some s ∧ s.socket.status? peer = some (b, live) ∧ s.address = a ∧
      s.isReady = r := by
  obtain ⟨s, hs, hsame⟩ := Option.bind_eq_some_iff.1 hr
  obtain ⟨⟨c, live⟩, hc, hsame⟩ := Option.map_eq_some_iff.1 hsame
  cases hsame
  exact ⟨s, live, hs, hc, rfl, rfl⟩

theorem route?_settle {r : Bool} (hr : link.route? h = some ((a, b), r)) :
    link.route? h.settle = some ((a, b), true) := by
  cases link with
  | stream i => cases hr
  | datagram s =>
    obtain ⟨socket, hs, hsame⟩ := Option.map_eq_some_iff.1 hr
    cases hsame
    simp only [route?, Host.settle, List.getElem?_map, hs, Option.map_some]
  | shared hub peer =>
    obtain ⟨s, live, hs, hb, rfl, rfl⟩ := route?_shared hr
    have hkept := SharedSocket.remembers_distribute (4 * s.socket.inbox.length + 5) s.socket peer b
      (congrArg (Option.map Prod.fst) hb)
    obtain ⟨x, hx, rfl⟩ := Option.map_eq_some_iff.1 hkept
    have hsettled : s.socket.settle.status? peer = some x := hx
    simp only [route?, Host.settle, List.getElem?_map, hs, Option.map_some, Option.bind_some,
      hsettled]

theorem route?_onceReady {r : Bool} (hr : link.route? h = some ((a, b), r)) :
    link.route? (h.onceReady r) = some ((a, b), true) := by
  cases r with
  | true => exact hr
  | false => exact route?_settle hr

theorem route?_onSocket {α : Type} {op : Peer → α × Peer}
    (hop : ∀ p, (op p).2.address = p.address) (link : Link) (i : Nat) (missing : α) (h : Host) :
    link.route? (h.onSocket i missing op).2 = link.route? h := by
  rw [Host.onSocket]
  cases hi : h.sockets[i]? with
  | none => rfl
  | some s =>
    cases link with
    | stream | shared => rfl
    | datagram j =>
      rw [route?, route?, List.getElem?_set]
      split
      · next hij =>
        rw [if_pos (List.getElem?_eq_some_iff.1 hi).1, ← hij, hi, Option.map_some, Option.map_some]
        simp only [hop]
      · rfl

theorem route?_onHub {α : Type} {op : SharedSocket → α × SharedSocket}
    (hop : ∀ s p, (op s).2.status? p = s.status? p) (link : Link) (i : Nat) (missing : α)
    (h : Host) : link.route? (h.onHub i missing op).2 = link.route? h := by
  rw [Host.onHub]
  cases hi : h.hubs[i]? with
  | none => rfl
  | some s =>
    cases link with
    | stream | datagram => rfl
    | shared j peer =>
      rw [route?, route?, List.getElem?_set]
      split
      · next hij =>
        rw [if_pos (List.getElem?_eq_some_iff.1 hi).1, ← hij, hi, Option.bind_some,
          Option.bind_some]
        simp only [hop]
      · rfl

/-- Bringing a datagram to where it goes changes only what is there to be read. -/
theorem route?_deliver (link : Link) (source target : SocketAddress) (d : Datagram) (h : Host) :
    link.route? (h.deliver source target d) = link.route? h := by
  rw [Host.deliver]
  split
  · exact route?_onSocket (fun _ => rfl) ..
  · split
    · exact route?_onHub (fun _ _ => rfl) ..
    · rfl

theorem write_eq {r : Bool} (hr : link.route? h = some ((a, b), r)) (data : List UInt8) :
    link.write data h = (h.onceReady r).send a b (data.take datagramLimit) := by
  cases link with
  | stream i => cases hr
  | datagram s =>
    obtain ⟨socket, hs, hsame⟩ := Option.map_eq_some_iff.1 hr
    cases hsame
    simp only [write, hs]
  | shared hub peer =>
    obtain ⟨s, live, hs, hb, rfl, rfl⟩ := route?_shared hr
    obtain ⟨p, hp, hsame⟩ := Option.map_eq_some_iff.1 hb
    cases hsame
    simp only [write, hs, hp]

end Link

theorem Host.send_cases (h : Host) (a b : SocketAddress) (d : Datagram) :
    h.send a b d = (.ok d.length, h.deliver a.concrete b.concrete d) ∨
      ∃ e, h.send a b d = (.error e, h) := by
  rw [Host.send]
  split
  · exact .inr ⟨_, rfl⟩
  · cases h.reaches b with
    | ok => exact .inl rfl
    | error e => exact .inr ⟨_, rfl⟩

theorem Host.onceReady_true (h : Host) : h.onceReady true = h := rfl

/-- Some datagrams are brought to where they go, one after the other. -/
def Host.deliverAll (a b : SocketAddress) (ds : List Datagram) (h : Host) : Host :=
  ds.foldl (fun h d => h.deliver a.concrete b.concrete d) h

/-- A write sends a datagram, which holds what comes first of the data, or it fails and nothing is
sent. -/
theorem write_cases {c : Connection} {r : Bool} (hr : c.link.route? h = some ((a, b), r))
    (data : List UInt8) :
    wire.write data c h = (.ok (data.take datagramLimit).length, c,
        (h.onceReady r).deliver a.concrete b.concrete (data.take datagramLimit)) ∨
      ∃ e, wire.write data c h = (.error e, c, h.onceReady r) := by
  have hwrite : wire.write data c h =
      (((h.onceReady r).send a b (data.take datagramLimit)).1, c,
        ((h.onceReady r).send a b (data.take datagramLimit)).2) := by
    rw [← Link.write_eq hr]
    rfl
  rw [hwrite]
  obtain hsend | ⟨e, hsend⟩ := (h.onceReady r).send_cases a b (data.take datagramLimit)
  · exact .inl (by rw [hsend])
  · exact .inr ⟨e, by rw [hsend]⟩

/-- A connection over which datagrams go between two addresses. -/
def Routed (a b : SocketAddress) (c : Connection) (h : Host) : Prop :=
  c.link.addresses? h = some (a, b)

theorem routed_iff {c : Connection} :
    Routed a b c h ↔ ∃ r, c.link.route? h = some ((a, b), r) := by
  rw [Routed, Link.addresses?_eq, Option.map_eq_some_iff]
  constructor
  · rintro ⟨⟨_, r⟩, hr, rfl⟩
    exact ⟨r, hr⟩
  · rintro ⟨r, hr⟩
    exact ⟨_, hr, rfl⟩

theorem takesPart_datagrams (a b : SocketAddress) : wire.TakesPart (Routed a b) where
  write := by
    intro c h data hI
    obtain ⟨r, hr⟩ := routed_iff.1 hI
    obtain hw | ⟨e, hw⟩ := write_cases hr data
    · rw [hw]
      refine ⟨routed_iff.2 ⟨true, ?_⟩, nofun⟩
      rw [Link.route?_deliver]
      exact Link.route?_onceReady hr
    · rw [hw]
      exact ⟨routed_iff.2 ⟨true, Link.route?_onceReady hr⟩, nofun⟩
  takes := by
    intro c h data hI hdata
    obtain ⟨r, hr⟩ := routed_iff.1 hI
    obtain hw | ⟨e, hw⟩ := write_cases hr data
    · rw [hw]
      intro hzero
      have hnil := List.length_eq_zero_iff.1 (Outcome.ok.inj hzero)
      exact take_ne_nil (by decide) hdata hnil
    · rw [hw]
      nofun
  within := by
    intro c h data n hI hn
    obtain ⟨r, hr⟩ := routed_iff.1 hI
    obtain hw | ⟨e, hw⟩ := write_cases hr data
    · rw [hw] at hn
      rw [← Outcome.ok.inj hn]
      exact List.length_take_le' ..
    · rw [hw] at hn
      cases hn

theorem sends_of_writesAll {c c' : Connection} {data : List UInt8} {made : List Call}
    {result : Outcome Unit} {r : Bool} (hr : c.link.route? h = some ((a, b), r))
    (hall : wire.WritesAll data (c, h) made result (c', h')) :
    c' = c ∧ (∀ d ∈ datagramsOf made, 1 ≤ d.length ∧ d.length ≤ datagramLimit) ∧
      h' = (if data = [] then h else h.onceReady r).deliverAll a b (datagramsOf made) := by
  generalize hx : (c, h) = x at hall
  generalize hy : (c', h') = y at hall
  induction hall generalizing h r with
  | done =>
    cases hx.trans hy.symm
    exact ⟨rfl, nofun, rfl⟩
  | @took data n s w x made result y hw hpos hle _ ih =>
    cases hx
    have hdata : data ≠ [] := List.length_pos_iff.1 (by omega)
    obtain hw' | ⟨e, hw'⟩ := write_cases hr data
    · obtain ⟨hn, hx⟩ := Prod.mk.inj (hw.symm.trans hw')
      subst hx
      have hn := Outcome.ok.inj hn
      have hsent : data.take n = data.take datagramLimit := by
        rw [hn, List.length_take, ← List.take_eq_take_min]
      have hr' : c.link.route? ((w.onceReady r).deliver a.concrete b.concrete
          (data.take datagramLimit)) = some ((a, b), true) := by
        rw [Link.route?_deliver]
        exact Link.route?_onceReady hr
      obtain ⟨hc, hlengths, hh⟩ := ih hr' rfl hy
      have hdatagrams : datagramsOf (.write data (.ok n) :: made) =
          data.take datagramLimit :: datagramsOf made := by
        rw [← hsent]
        rfl
      refine ⟨hc, ?_, ?_⟩
      · rw [hdatagrams, List.forall_mem_cons]
        refine ⟨⟨?_, List.length_take_le ..⟩, hlengths⟩
        omega
      · rw [hh, hdatagrams, if_neg hdata, Host.onceReady_true, ite_self]
        rfl
    · cases hw.symm.trans hw'
  | @failed data s w e x hdata hw =>
    cases hx
    obtain hw' | ⟨e, hw'⟩ := write_cases hr data
    · cases hw.symm.trans hw'
    · cases hy.trans (Prod.mk.inj (hw.symm.trans hw')).2
      exact ⟨rfl, nofun, (if_neg hdata).symm⟩
  | @waits data s w x hdata hw =>
    cases hx
    obtain hw' | ⟨e, hw'⟩ := write_cases hr data
    · cases hw.symm.trans hw'
    · cases hw.symm.trans hw'

/-- The bytes that a peer has received and not yet read. -/
def Peer.ahead (p : Peer) : List UInt8 := p.rest ++ p.queue.flatten

theorem Peer.ahead_of_isEmpty {p : Peer} (hrest : p.rest.isEmpty) :
    p.ahead = (p.queue.dropWhile List.isEmpty).flatten := by
  have hempty : (p.queue.takeWhile List.isEmpty).flatten = [] := by
    apply List.flatten_eq_nil_iff.2
    intro d hd
    exact List.isEmpty_iff.1 (List.all_eq_true.1 List.all_takeWhile d hd)
  rw [ahead, List.isEmpty_iff.1 hrest, List.nil_append,
    ← List.takeWhile_append_dropWhile (p := List.isEmpty) (l := p.queue), List.flatten_append,
    hempty, List.nil_append, List.takeWhile_append_dropWhile]

/-- A read gives what comes first of what is ahead, or there is nothing. -/
theorem Peer.read_cases (n : Nat) (p : Peer) :
    (∃ bytes p', p.read n = (some bytes, p') ∧ bytes ++ p'.ahead = p.ahead ∧ bytes.length ≤ n ∧
      (0 < n → bytes ≠ [])) ∨
    p.read n = (none, { p with queue := [] }) ∧ p.rest = [] ∧ p.ahead = [] := by
  cases hrest : p.rest.isEmpty with
  | false =>
    refine .inl ⟨_, _, read_rest hrest n, ?_, List.length_take_le .., fun hn => ?_⟩
    · rw [ahead, ← List.append_assoc, List.take_append_drop, ← ahead]
    · exact take_ne_nil hn fun hnil => by rw [hnil] at hrest; cases hrest
  | true =>
    rw [ahead_of_isEmpty hrest]
    cases hdrop : p.queue.dropWhile List.isEmpty with
    | nil => exact .inr ⟨read_none hrest hdrop n, List.isEmpty_iff.1 hrest, rfl⟩
    | cons d queue =>
      refine .inl ⟨_, _, read_next hrest hdrop n, ?_, List.length_take_le .., fun hn => ?_⟩
      · rw [ahead, ← List.append_assoc, List.take_append_drop, List.flatten_cons]
      · apply take_ne_nil hn
        have hne : p.queue.dropWhile List.isEmpty ≠ [] := by
          rw [hdrop]
          exact List.cons_ne_nil d queue
        have hfull := List.head_dropWhile_not List.isEmpty hne
        simp only [hdrop, List.head_cons] at hfull
        exact fun hnil => by rw [hnil] at hfull; cases hfull

theorem Host.onSocket_eq {α : Type} {s : Nat} {socket : DatagramSocket}
    (hs : h.sockets[s]? = some socket) (missing : α) (op : Peer → α × Peer) :
    h.onSocket s missing op = ((op socket.peer).1,
      { h with sockets := h.sockets.set s { socket with peer := (op socket.peer).2 } }) := by
  rw [onSocket, hs]

theorem Link.read_datagram {s : Nat} {socket : DatagramSocket} (hs : h.sockets[s]? = some socket)
    (n : Nat) : ∃ h' socket', Link.read n (.datagram s) h =
        (((socket.peer.read n).1.map Outcome.ok).getD .waiting, h') ∧
      h'.sockets[s]? = some socket' ∧ socket'.peer = (socket.peer.read n).2 := by
  have hset {h : Host} {old : DatagramSocket} (hs : h.sockets[s]? = some old)
      (new : DatagramSocket) : (h.sockets.set s new)[s]? = some new :=
    List.getElem?_set_self (List.getElem?_eq_some_iff.1 hs).1
  simp only [Link.read, Host.patiently, Host.onSocket_eq hs]
  obtain ⟨bytes, p', hp, -⟩ | ⟨hp, hrest, -⟩ := socket.peer.read_cases n
  · rw [hp]
    exact ⟨_, _, rfl, hset hs _, rfl⟩
  · rw [hp]
    have hwaited (new : DatagramSocket) :
        ({ h with sockets := h.sockets.set s new } : Host).settle.sockets[s]? =
          some { new with isReady := true } := by
      simp only [Host.settle, List.getElem?_map, hset hs, Option.map_some]
    have hnone := Peer.read_none (p := { socket.peer with queue := [] })
      (List.isEmpty_iff.2 hrest) rfl n
    simp only [Option.map_none, Option.getD_none, Host.onSocket_eq (hwaited _), hnone]
    exact ⟨_, _, rfl, hset (hwaited _) _, rfl⟩

/-- A connection on a socket of its own has received what comes first of a stream. -/
def Receives (c : Connection) (h : Host) (σ : Stream' UInt8) : Prop :=
  ∃ s socket later, c.link = .datagram s ∧ h.sockets[s]? = some socket ∧
    socket.peer.ahead ++ₛ later = σ

theorem Peer.backlog_eq (p : Peer) : p.backlog = p.ahead.length := by
  rw [backlog, ahead, List.length_append]

theorem Receives.read_cases {c : Connection} {σ : Stream' UInt8} (hc : Receives c h σ) (n : Nat) :
    (∃ bytes h' σ', wire.read n c h = (.ok bytes, c, h') ∧ bytes ++ₛ σ' = σ ∧ Receives c h' σ' ∧
      bytes.length ≤ n ∧ (0 < n → wire.backlog c h' < wire.backlog c h)) ∨
    ∃ h', wire.read n c h = (.waiting, c, h') ∧ Receives c h' σ := by
  obtain ⟨name, _⟩ := c
  obtain ⟨s, socket, later, rfl, hs, rfl⟩ := hc
  obtain ⟨h', socket', hread, hs', hpeer⟩ := Link.read_datagram hs n
  have hwire : wire.read n ⟨name, .datagram s⟩ h = (_, ⟨name, .datagram s⟩, h') :=
    congrArg (fun x => (x.1, (⟨name, .datagram s⟩ : Connection), x.2)) hread
  have hbacklog {h : Host} {socket : DatagramSocket} (hs : h.sockets[s]? = some socket) :
      wire.backlog ⟨name, .datagram s⟩ h = socket.peer.ahead.length := by
    simp only [wire, Link.backlog, hs, Option.map_some, Option.getD_some, Peer.backlog_eq]
  rw [hwire, hbacklog hs]
  obtain ⟨bytes, p', hp, hahead, hle, hpos⟩ | ⟨hp, hrest, hahead⟩ := socket.peer.read_cases n
  · rw [hp] at hpeer ⊢
    refine .inl ⟨bytes, h', p'.ahead ++ₛ later, rfl, ?_, ⟨s, socket', later, rfl, hs', ?_⟩, hle, ?_⟩
    · rw [← Stream'.append_append_stream, hahead]
    · rw [hpeer]
    · intro hn
      have hbytes := List.length_pos_iff.2 (hpos hn)
      rw [hbacklog hs', hpeer, ← hahead, List.length_append]
      exact Nat.lt_add_of_pos_left hbytes
  · rw [hp] at hpeer ⊢
    refine .inr ⟨h', rfl, s, socket', later, rfl, hs', ?_⟩
    rw [hpeer, hahead, Peer.ahead, hrest]
    rfl

theorem streams_datagram : wire.Streams Receives where
  read := by
    intro c h σ n hc
    obtain ⟨bytes, h', σ', hread, hstream, hc', -⟩ | ⟨h', hread, hc'⟩ := hc.read_cases n
    · rw [hread]
      exact ⟨σ', hstream, hc'⟩
    · rw [hread]
      exact ⟨σ, rfl, hc'⟩
  within := by
    intro c h σ n bytes hc hok
    obtain ⟨bytes', h', σ', hread, -, -, hle, -⟩ | ⟨h', hread, -⟩ := hc.read_cases n
    · rw [hread] at hok
      cases hok
      exact hle
    · rw [hread] at hok
      cases hok
  moves := by
    intro c h σ n hc
    obtain ⟨bytes, h', σ', hread, -⟩ | ⟨h', hread, -⟩ := hc.read_cases n <;> rw [hread] <;> nofun
  counts := by
    intro c h σ n bytes c' h' hc hn hok
    obtain ⟨bytes', h₁, σ', hread, -, -, -, hless⟩ | ⟨h₁, hread, -⟩ := hc.read_cases n
    · cases hread.symm.trans hok
      exact hless hn
    · cases hread.symm.trans hok

end Loopback

open Loopback in
/-- Transfers are exact. Over any wire that takes some of what is written, writing all takes all of
the data, in its order, and fails only as the wire does; over datagrams every write sends one of
them, not empty and of at most 65507 bytes. Over any wire that delivers a stream, exact reads and
other reads give one part of it after the other, and take no more of it. The record in which this
is seen makes no difference. -/
theorem transfers_exact :
    (∀ {S W : Type} (io : Wire S W) (I : S → W → Prop), io.TakesPart I → io.WritesExactly I) ∧
    (∀ (c : Connection) (h : Host) (a b : SocketAddress), Routed a b c h →
      ∀ data calls, ∃ made rest r h',
        wire.watched.guarded.writeAll data ⟨true, c⟩ (calls, h) =
            (r, ⟨true, c⟩, (calls ++ made, h')) ∧
          Wire.Written data rest made r ∧ (datagramsOf made).flatten ++ rest = data ∧
          (∀ d ∈ datagramsOf made, 1 ≤ d.length ∧ d.length ≤ 65507) ∧
          h' = (if data = [] then h else h.onceReady (c.link.isReady h)).deliverAll a b
            (datagramsOf made)) ∧
    (∀ {S W : Type} (io : Wire S W) (Ahead : S → W → Stream' UInt8 → Prop),
      io.Streams Ahead → io.ReadsExactly Ahead) ∧
    ∀ {S W : Type} (io : Wire S W) (os : List Operation) (s : S) (calls : List Call) (w : W),
      let x := useAll io.watched.guarded.perform os (⟨true, s⟩, (calls, w))
      (x.1, x.2.1, x.2.2.2) = useAll io.guarded.perform os (⟨true, s⟩, w) := by
  refine ⟨fun io I h => h.writesExactly, ?_, fun io Ahead h => h.readsExactly, ?_⟩
  · intro c h a b hroute data calls
    obtain ⟨made, r, c', h', -, hall, heq⟩ :=
      Wire.writeAll_watched (takesPart_datagrams a b) hroute data calls
    obtain ⟨rest, hwritten⟩ := hall.written
    obtain ⟨ready, hready⟩ := routed_iff.1 hroute
    obtain ⟨rfl, hlengths, hhost⟩ := sends_of_writesAll hready hall
    refine ⟨made, rest, r, h', heq, hwritten, ?_, hlengths, ?_⟩
    · rw [flatten_datagramsOf]
      exact hwritten.taken
    · rw [hhost, Link.isReady, hready]
      rfl
  · intro S W io os s calls w
    exact Wire.useAll_watched io.mirrors_watched.guarded_same os ⟨true, s⟩ calls w

namespace Loopback

/-- Two sockets that are connected to each other. -/
def twoSockets : Host where
  isUp := true
  sockets := [{ localAddress := .loopback 4000, peer := { address := .loopback 5000 } },
    { localAddress := .loopback 5000, peer := { address := .loopback 4000 } }]

/-- What is written through one of them is read through the other one, in two exact reads. -/
theorem transfers_exact_twoSockets :
    let one : Connection := ⟨"one", .datagram 0⟩
    let two : Connection := ⟨"two", .datagram 1⟩
    let x := wire.watched.guarded.writeAll [1, 2, 3] ⟨true, one⟩ ([], twoSockets)
    let y := useAll wire.watched.guarded.perform [.readExact 1 [], .readExact 2 []]
      (⟨true, two⟩, x.2.2)
    Routed (.loopback 4000) (.loopback 5000) one twoSockets ∧
      Receives two x.2.2.2 (([1, 2, 3] : List UInt8) ++ₛ Stream'.const 0) ∧
      wire.WritesExactly (Routed (.loopback 4000) (.loopback 5000)) ∧ wire.ReadsExactly Receives ∧
      (∃ made rest r h', x = (r, ⟨true, one⟩, (made, h')) ∧ Wire.Written [1, 2, 3] rest made r ∧
        ∀ d ∈ datagramsOf made, 1 ≤ d.length ∧ d.length ≤ 65507) ∧
      y.1 = [.ok (.bytes [1]), .ok (.bytes [2, 3])] := by
  intro one two x y
  have hroute : Routed (.loopback 4000) (.loopback 5000) one twoSockets := rfl
  have hreceives : Receives two x.2.2.2 (([1, 2, 3] : List UInt8) ++ₛ Stream'.const 0) := by
    have hahead : (x.2.2.2.sockets[1]?.map fun s => s.peer.ahead) = some [1, 2, 3] := by
      decide +kernel
    obtain ⟨socket, hsocket, hahead⟩ := Option.map_eq_some_iff.1 hahead
    exact ⟨1, socket, Stream'.const 0, rfl, hsocket, by rw [hahead]⟩
  obtain ⟨hwrites, hsends, hreads, -⟩ := transfers_exact
  obtain ⟨made, rest, r, h', heq, hwritten, -, hlengths, -⟩ :=
    hsends one twoSockets _ _ hroute [1, 2, 3] []
  exact ⟨hroute, hreceives, hwrites wire _ (takesPart_datagrams _ _),
    hreads wire _ streams_datagram, ⟨made, rest, r, h', heq, hwritten, hlengths⟩, by decide +kernel⟩

end Loopback

end Wirebench

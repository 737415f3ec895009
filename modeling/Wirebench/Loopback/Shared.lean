import Wirebench.Address.Basic
import Wirebench.Config.Basic
import Wirebench.Wire

namespace Wirebench.Loopback

abbrev Datagram := List UInt8

/-- The datagrams that a queue holds before the distributor has to wait. -/
def queueDepth : Nat := 64

/-- The new peers that can wait to be accepted before the distributor has to wait. -/
def waitingDepth : Nat := 16

structure Peer where
  address : SocketAddress
  /-- The datagrams that have come and are not yet read, oldest first. -/
  queue : List Datagram := []
  /-- What is left of the datagram read last. -/
  rest : List UInt8 := []
  /-- The peer has not been released. -/
  isLive : Bool := true
  /-- Somebody has hold of the peer, and with it of the socket. -/
  isHeld : Bool := true
  deriving DecidableEq, Repr

namespace Peer

/-- Read from what is left, or else from the first datagram that is not empty. What does not fit is
kept for the next read. -/
def read (n : Nat) (p : Peer) : Option (List UInt8) × Peer :=
  if p.rest.isEmpty then
    match p.queue.dropWhile List.isEmpty with
    | [] => (none, { p with queue := [] })
    | d :: queue => (some (d.take n), { p with rest := d.drop n, queue })
  else (some (p.rest.take n), { p with rest := p.rest.drop n })

/-- The reads that can succeed before something has to come, at most. -/
def backlog (p : Peer) : Nat := p.rest.length + p.queue.flatten.length

end Peer

/-- What the distributor is doing with the datagram in its hand. -/
inductive Task
  | idle
  /-- It hands a new peer over to be accepted. -/
  | admitting (peer : Nat) (datagram : Datagram)
  /-- It puts the datagram into the queue of a peer. -/
  | forwarding (peer : Nat) (datagram : Datagram)
  | stopped
  deriving DecidableEq, Repr

/-- A datagram socket shared by many peers, which are known by the order in which they were made. A
distributor takes the datagrams that arrive one after the other and puts each into the queue of its
sender; an unknown sender becomes a new peer, which waits to be accepted. Once the acceptor of the
socket is closed no new peer is let in, and the distributor stops when the last one is gone. -/
structure SharedSocket where
  /-- Its acceptor is not closed. -/
  isOpen : Bool := true
  peers : List Peer := []
  /-- The peer that receives what comes from an address. -/
  table : List (SocketAddress × Nat) := []
  /-- New peers that wait to be accepted. -/
  waiting : List Nat := []
  /-- What has arrived and was not yet taken by the distributor. -/
  inbox : List (SocketAddress × Datagram) := []
  task : Task := .idle
  /-- The distributor is to look whether it is still needed. -/
  signal : Bool := false
  /-- The distributor is to stop at once. -/
  isCancelled : Bool := false
  deriving DecidableEq, Repr

namespace SharedSocket

/-- The peer to which the table sends what comes from an address. -/
def peerFor? (s : SharedSocket) (a : SocketAddress) : Option Nat := s.table.lookup a

def isLive (s : SharedSocket) (peer : Nat) : Bool := (s.peers[peer]?.map Peer.isLive).getD false

/-- Strike an address from the table; when the table is empty then, the distributor is told. -/
def strike (s : SharedSocket) (a : SocketAddress) : SharedSocket :=
  let table := s.table.filter (·.1 ≠ a)
  { s with table, signal := s.signal || table.isEmpty }

/-- A new peer for an address, which takes the place of an earlier one in the table. -/
def addPeer (s : SharedSocket) (a : SocketAddress) : Nat × SharedSocket :=
  (s.peers.length,
    { s with
      peers := s.peers ++ [{ address := a }]
      table := (a, s.peers.length) :: s.table.filter (·.1 ≠ a) })

/-- Close the queue of a peer: nothing more is put into it. -/
def hangUp (s : SharedSocket) (peer : Nat) : SharedSocket :=
  { s with peers := s.peers.modify peer fun p => { p with isLive := false } }

/-- Release a peer, the first time only. Its queue is closed, and then its address is struck, whoever
has the entry by then. -/
def release (s : SharedSocket) (peer : Nat) : SharedSocket :=
  match s.peers[peer]? with
  | none => s
  | some p => if p.isLive then (s.hangUp peer).strike p.address else s

/-- Nobody has hold of a peer any more. -/
def letGo (s : SharedSocket) (peer : Nat) : SharedSocket :=
  { s with peers := s.peers.modify peer fun p => { p with isHeld := false } }

def discard (s : SharedSocket) (peer : Nat) : SharedSocket := (s.release peer).letGo peer

/-- The socket is in use as long as its acceptor is open, its distributor has not stopped, or
somebody has hold of a peer, even of one that has been released. -/
def isInUse (s : SharedSocket) : Bool :=
  s.isOpen || s.task ≠ .stopped || s.peers.any (·.isHeld)

def arrive (s : SharedSocket) (source : SocketAddress) (d : Datagram) : SharedSocket :=
  { s with inbox := s.inbox ++ [(source, d)] }

/-- What is received of a datagram. The rest of a longer one is lost. -/
def received (d : Datagram) : Datagram := d.take datagramLimit

/-- Make a new peer for a datagram. -/
def enter (s : SharedSocket) (source : SocketAddress) (d : Datagram) : SharedSocket :=
  let (peer, s) := s.addPeer source
  { s with task := .admitting peer d }

/-- Take a datagram in hand. One from an unknown sender is dropped when the acceptor is closed. -/
def take (s : SharedSocket) (source : SocketAddress) (d : Datagram) : SharedSocket :=
  match s.peerFor? source with
  | some peer => { s with task := .forwarding peer d }
  | none => if s.isOpen then s.enter source d else s

/-- Hand a new peer over, once there is room for it. With a closed acceptor it is let go of and its
datagram is lost. -/
def admit? (s : SharedSocket) (peer : Nat) (d : Datagram) : Option SharedSocket :=
  if s.isOpen then
    if s.waiting.length < waitingDepth then
      some { s with waiting := s.waiting ++ [peer], task := .forwarding peer d }
    else none
  else some { s.discard peer with task := .idle }

/-- Put a datagram into the queue of a peer, once there is room for it. When the peer has been
released, its address is struck. -/
def forward? (s : SharedSocket) (peer : Nat) (d : Datagram) : Option SharedSocket :=
  match s.peers[peer]? with
  | none => none
  | some p =>
    if p.isLive then
      if p.queue.length < queueDepth then
        some { s with
          peers := s.peers.modify peer fun p => { p with queue := p.queue ++ [d] }
          task := .idle }
      else none
    else some { s.strike p.address with task := .idle }

def notice (s : SharedSocket) : SharedSocket :=
  let s := { s with signal := false }
  if !s.isOpen && s.table.isEmpty then { s with task := .stopped } else s

/-- Stop, whatever there is to do. A new peer in hand is let go of. -/
def stop (s : SharedSocket) : SharedSocket :=
  match s.task with
  | .admitting peer _ => { s.discard peer with task := .stopped }
  | .idle | .forwarding .. | .stopped => { s with task := .stopped }

/-- The next step of the distributor's work, unless it has to wait. A datagram goes before the
signal. -/
def work? (s : SharedSocket) : Option SharedSocket :=
  match s.task with
  | .stopped => none
  | .admitting peer d => s.admit? peer d
  | .forwarding peer d => s.forward? peer d
  | .idle =>
    match s.inbox with
    | (source, d) :: rest => some ({ s with inbox := rest }.take source (received d))
    | [] => if s.signal then some s.notice else none

/-- The next step of the distributor, unless it has to wait or has stopped. -/
def distribute? (s : SharedSocket) : Option SharedSocket :=
  if s.isCancelled ∧ s.task ≠ .stopped then some s.stop else s.work?

/-- Let the distributor go on for a number of steps at most. -/
def distribute : Nat → SharedSocket → SharedSocket
  | 0, s => s
  | n + 1, s =>
    match s.distribute? with
    | some s => distribute n s
    | none => s

/-- Let the distributor go on until it has to wait: it takes up to three steps for a datagram, and
looks at the signal in between. -/
def settle (s : SharedSocket) : SharedSocket := distribute (4 * s.inbox.length + 5) s

/-- Accept the peer that has waited longest. -/
def accept (s : SharedSocket) : Outcome Nat × SharedSocket :=
  if s.isOpen then
    match s.waiting with
    | peer :: rest => (.ok peer, { s with waiting := rest })
    | [] => (.waiting, s)
  else (.error .closed, s)

/-- Whether something may still come into the queue of a peer. -/
def isServed (s : SharedSocket) (peer : Nat) : Bool :=
  s.table.any (·.2 = peer) ||
    match s.task with
    | .admitting p _ | .forwarding p _ => p = peer
    | .idle | .stopped => false

/-- Read as a peer. When nothing is left and nothing more can come, the remote end is gone. -/
def read (n : Nat) (peer : Nat) (s : SharedSocket) : Outcome (List UInt8) × SharedSocket :=
  match s.peers[peer]? with
  | none => (.error .closed, s)
  | some p =>
    let (bytes, p) := p.read n
    let r :=
      match bytes with
      | some bytes => .ok bytes
      | none => if s.isServed peer then .waiting else .error .remoteClosed
    (r, { s with peers := s.peers.set peer p })

/-- The reads of any peer that can succeed before something has to come, at most. The distributor
goes on as soon as a queue has room, so all that has arrived counts. -/
def backlog (s : SharedSocket) : Nat :=
  let inHand :=
    match s.task with
    | .admitting _ d | .forwarding _ d => d.length
    | .idle | .stopped => 0
  s.peers.foldr (·.backlog + ·) 0 + (s.inbox.flatMap (·.2)).length + inHand

/-- Close the queue of new peers. Those that were never accepted are let go of. -/
def closeQueue (s : SharedSocket) : SharedSocket :=
  s.waiting.foldl discard { s with isOpen := false, waiting := [] }

/-- Close the acceptor. -/
def shutDown (s : SharedSocket) : SharedSocket := { s.closeQueue with signal := true }

/-- Without peers the distributor is to stop at once, else it is told. -/
def dismiss (s : SharedSocket) : SharedSocket :=
  if s.table.isEmpty then { s with isCancelled := true } else { s with signal := true }

/-- Let go of the acceptor, closed or not. -/
def abandon (s : SharedSocket) : SharedSocket := s.dismiss.closeQueue

end SharedSocket

end Wirebench.Loopback

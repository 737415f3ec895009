import Wirebench.Proofs.Loopback.Moves

namespace Wirebench.Loopback

/-- Those who release peers. All of them act at the same time. -/
inductive Party
  | distributor
  /-- Who has the acceptor. -/
  | owner
  /-- Who has been given a peer. -/
  | holder (peer : Nat)
  deriving DecidableEq, Repr

/-- What the distributor is going to do next. -/
inductive Stage
  /-- It waits for what its task says, or has stopped. -/
  | resting
  /-- It looks up the sender of a datagram. -/
  | received (source : SocketAddress) (d : Datagram)
  /-- The sender is unknown: it looks whether the acceptor is closed. -/
  | unknown (source : SocketAddress) (d : Datagram)
  /-- The acceptor was open: it makes a new peer. -/
  | entering (source : SocketAddress) (d : Datagram)
  /-- It has found room, and hands over the new peer of its task even if the queue is closed now. -/
  | reserved
  /-- It has taken the signal, and looks whether the acceptor is closed. -/
  | roused
  /-- The acceptor was closed: it looks whether the table is empty. -/
  | leaving
  deriving DecidableEq, Repr

/-- What the owner of the acceptor is going to do next. -/
inductive Closing
  /-- It is not about to close the acceptor. -/
  | none
  /-- It takes a peer out of the closed queue, or is done. -/
  | draining (forGood : Bool)
  /-- It lets go of the acceptor, and tells the distributor what the table was like. -/
  | looked (isEmpty : Bool)
  /-- It lets go of the acceptor, and closes the queue. -/
  | told
  | gone
  deriving DecidableEq, Repr

/-- What happens to a shared socket while everybody acts at the same time. -/
inductive Step
  | arrive (source : SocketAddress) (d : Datagram)
  /-- The distributor goes on. -/
  | advance
  /-- The distributor takes the signal for which it waits. -/
  | rouse
  /-- The distributor is stopped where it waits. -/
  | cancel
  /-- A party strikes an address, as it has to. -/
  | strike (party : Party) (a : SocketAddress)
  | accept
  | connectFrom (a : SocketAddress)
  | shutDown
  | abandon
  /-- The owner of the acceptor goes on to close it. -/
  | proceed
  | read (n peer : Nat)
  /-- Whoever has been given a peer begins to release it. -/
  | hangUp (peer : Nat)
  | letGo (peer : Nat)
  deriving DecidableEq, Repr

/-- A shared socket with what everybody is in the middle of. A step is one access to what is shared.
Only that a queue is closed, which it stays, is found out in the step that acts on it. -/
structure Interleaving where
  socket : SharedSocket := {}
  stage : Stage := .resting
  closing : Closing := .none
  /-- The addresses that are to be struck: the party has closed the queue of a peer, or has found it
  closed. -/
  strikes : List (Party × SocketAddress) := []
  deriving DecidableEq, Repr

namespace Interleaving

/-- The party has an address to strike before it goes on. -/
def isStriking (t : Interleaving) (party : Party) : Bool := t.strikes.any (·.1 = party)

/-- Begin to release a peer, the first time only. -/
def hangUp (t : Interleaving) (party : Party) (p : Nat) : Interleaving :=
  match t.socket.status? p with
  | some (a, true) => { t with socket := t.socket.hangUp p, strikes := (party, a) :: t.strikes }
  | some (_, false) | none => t

/-- What the distributor does where it waits, unless it has to wait longer. -/
def resume (t : Interleaving) : Interleaving :=
  match t.socket.task with
  | .stopped => t
  | .idle =>
    match t.socket.inbox with
    | [] => t
    | (a, d) :: rest =>
      { t with
        socket := { t.socket with inbox := rest }
        stage := .received a (SharedSocket.received d) }
  | .admitting p _ =>
    if t.socket.isOpen then
      if t.socket.waiting.length < waitingDepth then { t with stage := .reserved } else t
    else { t with socket := { t.socket with task := .idle } }.hangUp .distributor p
  | .forwarding p d =>
    match t.socket.status? p with
    | some (a, false) =>
      { t with
        socket := { t.socket with task := .idle }
        strikes := (.distributor, a) :: t.strikes }
    | some (_, true) | none => { t with socket := (t.socket.forward? p d).getD t.socket }

/-- Hand over the new peer of the task. -/
def handOver (t : Interleaving) : Interleaving :=
  match t.socket.task with
  | .admitting p d =>
    { t with
      socket := { t.socket with waiting := t.socket.waiting ++ [p], task := .forwarding p d }
      stage := .resting }
  | .idle | .forwarding .. | .stopped => t

def advance (t : Interleaving) : Interleaving :=
  match t.stage with
  | .resting => t.resume
  | .received a d =>
    match t.socket.peerFor? a with
    | some p => { t with socket := { t.socket with task := .forwarding p d }, stage := .resting }
    | none => { t with stage := .unknown a d }
  | .unknown a d => { t with stage := if t.socket.isOpen then .entering a d else .resting }
  | .entering a d => { t with socket := t.socket.enter a d, stage := .resting }
  | .reserved => t.handOver
  | .roused => { t with stage := if t.socket.isOpen then .resting else .leaving }
  | .leaving =>
    { t with
      socket := if t.socket.table.isEmpty then { t.socket with task := .stopped } else t.socket
      stage := .resting }

/-- A new peer that the distributor has in hand is let go of when it is stopped. -/
def cancel (t : Interleaving) : Interleaving :=
  let stopped := { t with socket := { t.socket with task := .stopped } }
  match t.socket.task.newcomer? with
  | some p => stopped.hangUp .distributor p
  | none => stopped

def proceed (t : Interleaving) : Interleaving :=
  match t.closing with
  | .none | .gone => t
  | .looked true => { t with socket := { t.socket with isCancelled := true }, closing := .told }
  | .looked false => { t with socket := { t.socket with signal := true }, closing := .told }
  | .told => { t with socket := { t.socket with isOpen := false }, closing := .draining true }
  | .draining forGood =>
    match t.socket.waiting with
    | p :: rest => { t with socket := { t.socket with waiting := rest } }.hangUp .owner p
    | [] =>
      if forGood then { t with closing := .gone }
      else { t with socket := { t.socket with signal := true }, closing := .none }

def act (t : Interleaving) : Step → Interleaving
  | .arrive source d => { t with socket := t.socket.arrive source d }
  | .advance => if t.isStriking .distributor then t else t.advance
  | .rouse =>
    if t.stage = .resting ∧ t.socket.task = .idle ∧ t.socket.signal ∧ ¬t.isStriking .distributor then
      { t with socket := { t.socket with signal := false }, stage := .roused }
    else t
  | .cancel =>
    if t.stage = .resting ∧ t.socket.isCancelled ∧ ¬t.isStriking .distributor then t.cancel else t
  | .strike party a =>
    if (party, a) ∈ t.strikes then
      { t with socket := t.socket.strike a, strikes := t.strikes.erase (party, a) }
    else t
  | .accept => if t.closing = .none then { t with socket := t.socket.accept.2 } else t
  | .connectFrom a =>
    if t.closing = .none ∧ t.socket.isOpen then { t with socket := (t.socket.addPeer a).2 } else t
  | .shutDown =>
    if t.closing = .none then
      { t with socket := { t.socket with isOpen := false }, closing := .draining false }
    else t
  | .abandon =>
    if t.closing = .none then { t with closing := .looked t.socket.table.isEmpty } else t
  | .proceed => if t.isStriking .owner then t else t.proceed
  | .read n p => if t.socket.isHandedOut p then { t with socket := (t.socket.read n p).2 } else t
  | .hangUp p => if t.socket.isHandedOut p then t.hangUp (.holder p) p else t
  | .letGo p => if t.socket.isLive p then t else { t with socket := t.socket.letGo p }

def run (t : Interleaving) (schedule : List Step) : Interleaving := schedule.foldl act t

end Interleaving

end Wirebench.Loopback

import Wirebench.Network
import Wirebench.Proofs.Wire.Lifecycle

namespace Wirebench

variable {A T W W' : Type} {Q : W → W' → Prop} {w : W} {w' : W'}

theorem Endpoint.mirrors_same {io : Wire T W} {io' : Wire T W'}
    (h : io.Mirrors io' (SameState Q)) : (wire io).Mirrors (wire io') (SameState Q) where
  read := by
    rintro ⟨n, s⟩ w _ w' k ⟨rfl, hQ⟩
    obtain ⟨hr, hs, hQ'⟩ := (h.stack_same n).read k ⟨rfl, hQ⟩
    exact ⟨hr, congrArg (Endpoint.mk n) hs, hQ'⟩
  write := by
    rintro ⟨n, s⟩ w _ w' data ⟨rfl, hQ⟩
    obtain ⟨hr, hs, hQ'⟩ := (h.stack_same n).write data ⟨rfl, hQ⟩
    exact ⟨hr, congrArg (Endpoint.mk n) hs, hQ'⟩
  backlog := by
    rintro ⟨n, s⟩ w _ w' ⟨rfl, hQ⟩
    exact (h.stack_same n).backlog ⟨rfl, hQ⟩
  writeUrgent := by
    rintro ⟨n, s⟩ w _ w' data ⟨rfl, hQ⟩
    obtain ⟨hr, hs, hQ'⟩ := (h.stack_same n).writeUrgent data ⟨rfl, hQ⟩
    exact ⟨hr, congrArg (Endpoint.mk n) hs, hQ'⟩
  readUrgent := by
    rintro ⟨n, s⟩ w _ w' k ⟨rfl, hQ⟩
    obtain ⟨hr, hs, hQ'⟩ := (h.stack_same n).readUrgent k ⟨rfl, hQ⟩
    exact ⟨hr, congrArg (Endpoint.mk n) hs, hQ'⟩
  control := by
    rintro ⟨n, s⟩ w _ w' request ⟨rfl, hQ⟩
    obtain ⟨hr, hs, hQ'⟩ := (h.stack_same n).control request ⟨rfl, hQ⟩
    exact ⟨hr, congrArg (Endpoint.mk n) hs, hQ'⟩
  close := by
    rintro ⟨n, s⟩ w _ w' ⟨rfl, hQ⟩
    obtain ⟨hr, hs, hQ'⟩ := (h.stack_same n).close ⟨rfl, hQ⟩
    exact ⟨hr, congrArg (Endpoint.mk n) hs, hQ'⟩
  discard := by
    rintro ⟨n, s⟩ w _ w' ⟨rfl, hQ⟩
    exact ⟨rfl, ((h.stack_same n).discard ⟨rfl, hQ⟩).2⟩

namespace Setup

variable {io : Wire T W} {io' : Wire T W'} {now : Nat}

theorem agree_abandon (h : io.Mirrors io' (SameState Q)) (e : Endpoint T) (reason : String)
    (hQ : Q w w') : Agree Q (abandon io e reason w) (abandon io' e reason w') := by
  obtain ⟨-, hclose⟩ := (Endpoint.mirrors_same h).close ⟨rfl, hQ⟩
  exact ⟨rfl, ((Endpoint.mirrors_same h).discard hclose).2⟩

theorem agree_wait (h : io.Mirrors io' (SameState Q)) (n : Negotiation T) (hQ : Q w w') :
    Agree Q (wait io now n w) (wait io' now n w') := by
  unfold wait
  split
  · exact agree_abandon h _ _ hQ
  · exact ⟨rfl, hQ⟩

theorem agree_afterSettle (h : io.Mirrors io' (SameState Q)) (n : Negotiation T)
    {next : Endpoint T → W → Setup T × W} {next' : Endpoint T → W' → Setup T × W'}
    (hnext : ∀ e {w w'}, Q w w' → Agree Q (next e w) (next' e w'))
    {r : Outcome Unit × (Telnet.Layer × StackState T n.layers) × W}
    {r' : Outcome Unit × (Telnet.Layer × StackState T n.layers) × W'}
    (hr : Agree (SameState Q) r r') :
    Agree Q (afterSettle io now n next r) (afterSettle io' now n next' r') := by
  obtain ⟨r, s, w⟩ := r
  obtain ⟨_, _, w'⟩ := r'
  obtain ⟨rfl, rfl, hQ⟩ := hr
  cases r with
  | ok => exact hnext _ hQ
  | error e => exact agree_abandon h _ _ hQ
  | waiting => exact agree_wait h _ hQ
  | stalled => exact agree_wait h _ hQ

theorem agree_settle (h : io.Mirrors io' (SameState Q)) {n : Nat}
    (x : Telnet.Layer × StackState T n) (hQ : Q w w') :
    Agree (SameState Q) (Telnet.settle (stackWire io n) x w)
      (Telnet.settle (stackWire io' n) x w') := by
  have hx : SameState Q (x.2, w) (x.2, w') := ⟨rfl, hQ⟩
  have hsettle := (h.stack_same n).fillUntil Telnet.Layer.isSettled
    ((stackWire io' n).backlog x.2 w' + 1) x.1 hx
  rw [Telnet.Layer.both_sameState] at hsettle
  rw [Telnet.settle, (h.stack_same n).backlog hx]
  exact hsettle

theorem agree_start (h : io.Mirrors io' (SameState Q)) (todo : List EndpointConfig)
    (e : Endpoint T) (hQ : Q w w') : Agree Q (start io now todo e w) (start io' now todo e w') := by
  induction todo generalizing e w w' with
  | nil => exact ⟨rfl, hQ⟩
  | cons config todo ih =>
    have he : SameState Q (e.state, w) (e.state, w') := ⟨rfl, hQ⟩
    have hwrite := (h.stack_same e.layers).writeAll
      (Telnet.Negotiator.offers (Telnet.Negotiator.supported config.telnet)) he
    revert hwrite
    rw [start, start, Telnet.begin, Telnet.begin]
    obtain ⟨r, s, v⟩ := (stackWire io e.layers).writeAll _ e.state w
    obtain ⟨r', s', v'⟩ := (stackWire io' e.layers).writeAll _ e.state w'
    rintro ⟨⟨⟩, ⟨⟩, hQ'⟩
    cases r with
    | ok => exact agree_afterSettle h _ (fun e {_ _} hQ => ih e hQ) (agree_settle h _ hQ')
    | error err => exact agree_abandon h _ _ hQ'
    | waiting => exact agree_wait h _ hQ'
    | stalled => exact agree_wait h _ hQ'

theorem agree_poll (h : io.Mirrors io' (SameState Q)) (s : Setup T) (hQ : Q w w') :
    Agree Q (s.poll io now w) (s.poll io' now w') := by
  cases s with
  | ended r => exact ⟨rfl, hQ⟩
  | negotiating n =>
    rw [poll, poll]
    split
    · exact agree_afterSettle h n (fun e {_ _} hQ => agree_start h n.todo e hQ)
        (agree_settle h n.state hQ)
    · exact agree_wait h n hQ

end Setup

/-- Two networks answer alike, with the exception of shutting listeners down. -/
structure Network.Mirrors (net : Network A T W) (net' : Network A T W') (Q : W → W' → Prop) :
    Prop where
  wire : net.wire.Mirrors net'.wire (SameState Q)
  accept : ∀ {w w'} l, Q w w' → Agree Q (net.accept l w) (net'.accept l w')
  connectFrom : ∀ {w w'} l target, Q w w' →
    Agree Q (net.connectFrom l target w) (net'.connectFrom l target w')
  addresses : ∀ {w w'} l, Q w w' → net.addresses l w = net'.addresses l w'

namespace Opening

variable {io : Wire T W} {io' : Wire T W'} {net : Network A T W} {net' : Network A T W'}

/-- Go on with an opening at some times, one after the other. -/
def pollAll (net : Network A T W) (times : List Nat) (x : Opening A T × W) : Opening A T × W :=
  times.foldl (fun x now => x.1.poll net now x.2) x

theorem agree_afterSetup (h : io.Mirrors io' (SameState Q)) (greeting : List UInt8)
    {x : Setup T × W} {x' : Setup T × W'} (hx : Agree Q x x') :
    Agree Q (afterSetup io greeting x : Opening A T × W) (afterSetup io' greeting x') := by
  obtain ⟨s, w⟩ := x
  obtain ⟨_, w'⟩ := x'
  obtain ⟨rfl, hQ⟩ := hx
  cases s with
  | negotiating n => exact ⟨rfl, hQ⟩
  | ended r =>
    cases r with
    | error err => exact ⟨rfl, hQ⟩
    | ok e =>
      have he : SameState Q (e, w) (e, w') := ⟨rfl, hQ⟩
      have hwrite := (Endpoint.mirrors_same h).writeAll greeting he
      revert hwrite
      rw [afterSetup, afterSetup]
      obtain ⟨r, e, v⟩ := (Endpoint.wire io).writeAll greeting e w
      obtain ⟨r', e', v'⟩ := (Endpoint.wire io').writeAll greeting _ w'
      rintro ⟨⟨⟩, ⟨⟩, hQ'⟩
      cases r <;> exact ⟨rfl, hQ'⟩

theorem agree_poll (h : net.Mirrors net' Q) (now : Nat) (o : Opening A T) (hQ : Q w w') :
    Agree Q (o.poll net now w) (o.poll net' now w') := by
  cases o with
  | accepting l todo =>
    have haccept := h.accept l hQ
    revert haccept
    rw [poll, poll]
    obtain ⟨r, v⟩ := net.accept l w
    obtain ⟨r', v'⟩ := net'.accept l w'
    rintro ⟨⟨⟩, hQ'⟩
    cases r with
    | ok t => exact agree_afterSetup h.wire [] (Setup.agree_start h.wire todo _ hQ')
    | error e => exact ⟨rfl, hQ'⟩
    | waiting => exact ⟨rfl, hQ'⟩
    | stalled => exact ⟨rfl, hQ'⟩
  | settingUp s greeting =>
    exact agree_afterSetup h.wire greeting (Setup.agree_poll h.wire s hQ)
  | stuck e => exact ⟨rfl, hQ⟩
  | opened e => exact ⟨rfl, hQ⟩
  | failed e f => exact ⟨rfl, hQ⟩

theorem agree_pollAll (h : net.Mirrors net' Q) (times : List Nat) {x : Opening A T × W}
    {x' : Opening A T × W'} (hx : Agree Q x x') :
    Agree Q (pollAll net times x) (pollAll net' times x') := by
  induction times generalizing x x' with
  | nil => exact hx
  | cons now times ih =>
    obtain ⟨o, w⟩ := x
    obtain ⟨_, w'⟩ := x'
    obtain ⟨rfl, hQ⟩ := hx
    exact ih (agree_poll h now o hQ)

/-- What going on with an opening keeps holds however often one goes on. -/
theorem pollAll_of_poll {P : Opening A T × W → Prop}
    (hP : ∀ {x} now, P x → P (x.1.poll net now x.2)) (times : List Nat) {x : Opening A T × W}
    (hx : P x) : P (pollAll net times x) := by
  induction times generalizing x with
  | nil => exact hx
  | cons now times ih => exact ih (hP now hx)

theorem pollAll_failed (net : Network A T W) (times : List Nat) (e : Option (Endpoint T))
    (f : StreamError) (w : W) : pollAll net times (failed e f, w) = (failed e f, w) := by
  induction times with
  | nil => rfl
  | cons now times ih => exact ih

end Opening

/-- A use of an acceptor. What comes of an opening is looked at at some times, before it is over or
it is given up. -/
inductive Acceptor.Use
  | accept (times : List Nat)
  | connectFrom (target : Descriptor) (now : Nat) (times : List Nat)
  | control (r : ControlRequest)
  | close

inductive Acceptor.Reply (A T : Type)
  | opening (o : Opening A T)
  | text (r : Except StreamError String)
  | done (r : Except StreamError Unit)

namespace Acceptor.Use

def isClose : Use → Bool
  | close => true
  | accept _ | connectFrom .. | control _ => false

/-- The answer of a closed acceptor. -/
def late : Use → Reply A T
  | accept _ | connectFrom .. => .opening (.failed none .closed)
  | control _ => .text (.error .closed)
  | close => .done (.ok ())

end Acceptor.Use

namespace Network

def use (net : Network A T W) (u : Acceptor.Use) (x : Acceptor A × W) :
    Acceptor.Reply A T × (Acceptor A × W) :=
  match u with
  | .accept times =>
    let (o, w) := Opening.pollAll net times (acceptFrom x.1, x.2)
    (.opening o, x.1, w)
  | .connectFrom target now times =>
    let (o, w) := Opening.pollAll net times (net.connectFromAcceptor now x.1 target x.2)
    (.opening o, x.1, w)
  | .control r => (.text (net.acceptorControl r x.1 x.2), x)
  | .close =>
    let (r, a, w) := net.closeAcceptor x.1 x.2
    (.done r, a, w)

/-- A call of a listener. -/
inductive Call
  | accept
  | connectFrom (target : Descriptor)
  | shutdown (r : Except StreamError Unit)

def Call.isShutdown : Call → Bool
  | shutdown _ => true
  | accept | connectFrom _ => false

/-- The calls in a record that shut the listener down. -/
def shutdowns (calls : List Call) : Nat := calls.countP Call.isShutdown

/-- The same network with a record of the calls of its listeners. -/
def watched (net : Network A T W) : Network A T (List Call × W) where
  wire := net.wire.beside (List Call)
  listen d config w :=
    let (r, v) := net.listen d config w.2
    (r, (w.1, v))
  connect d config w :=
    let (r, v) := net.connect d config w.2
    (r, (w.1, v))
  accept l w :=
    let (r, v) := net.accept l w.2
    (r, (w.1 ++ [.accept], v))
  connectFrom l target w :=
    let (r, v) := net.connectFrom l target w.2
    (r, (w.1 ++ [.connectFrom target], v))
  addresses l w := net.addresses l w.2
  shutdown l w :=
    let (r, v) := net.shutdown l w.2
    (r, (w.1 ++ [.shutdown r], v))
  discard l w := (w.1, net.discard l w.2)

/-- An acceptor as something to be closed. -/
def closable (net : Network A T W) :
    Closable (Acceptor A × (List Call × W)) Acceptor.Use (Acceptor.Reply A T) where
  use := net.watched.use
  isClose := Acceptor.Use.isClose
  isOpen x := x.1.isOpen
  closings x := shutdowns x.2.1
  due _ := 1
  late := Acceptor.Use.late

theorem mirrors_watched (net : Network A T W) {P : List Call → Prop} (haccept : KeptBy P .accept)
    (hconnect : ∀ target, KeptBy P (.connectFrom target)) : net.watched.Mirrors net (Beside P) where
  wire := net.wire.mirrors_beside P
  accept := by
    rintro ⟨calls, w⟩ _ l ⟨rfl, hP⟩
    exact ⟨rfl, rfl, haccept _ hP⟩
  connectFrom := by
    rintro ⟨calls, w⟩ _ l target ⟨rfl, hP⟩
    exact ⟨rfl, rfl, hconnect target _ hP⟩
  addresses := by
    rintro ⟨calls, w⟩ _ l ⟨rfl, hP⟩
    rfl

variable {net : Network A T W} {net' : Network A T W'}

theorem Mirrors.connectFromAcceptor (h : net.Mirrors net' Q) (now : Nat) (a : Acceptor A)
    (target : Descriptor) (hQ : Q w w') :
    Agree Q (net.connectFromAcceptor now a target w)
      (net'.connectFromAcceptor now a target w') := by
  rw [Network.connectFromAcceptor, Network.connectFromAcceptor]
  cases a.dial target with
  | error e => exact ⟨rfl, hQ⟩
  | ok d =>
    obtain ⟨l, lower, todo⟩ := d
    have hconnect := h.connectFrom l lower hQ
    revert hconnect
    simp only
    obtain ⟨r, v⟩ := net.connectFrom l lower w
    obtain ⟨r', v'⟩ := net'.connectFrom l lower w'
    rintro ⟨⟨⟩, hQ'⟩
    cases r with
    | error e => exact ⟨rfl, hQ'⟩
    | ok t => exact Opening.agree_afterSetup h.wire [] (Setup.agree_start h.wire todo _ hQ')

/-- What a use of an acceptor comes to, if it is not closed by it. -/
theorem Mirrors.use (h : net.Mirrors net' Q) {u : Acceptor.Use} (hu : u.isClose = false)
    (a : Acceptor A) (hQ : Q w w') :
    Agree (SameState Q) (net.use u (a, w)) (net'.use u (a, w')) ∧ (net.use u (a, w)).2.1 = a := by
  cases u with
  | accept times =>
    have hstart : Agree Q ((acceptFrom a : Opening A T), w) (acceptFrom a, w') := ⟨rfl, hQ⟩
    obtain ⟨ho, hw⟩ := Opening.agree_pollAll h times hstart
    exact ⟨⟨congrArg Acceptor.Reply.opening ho, rfl, hw⟩, rfl⟩
  | connectFrom target now times =>
    obtain ⟨ho, hw⟩ := Opening.agree_pollAll h times (h.connectFromAcceptor now a target hQ)
    exact ⟨⟨congrArg Acceptor.Reply.opening ho, rfl, hw⟩, rfl⟩
  | control r =>
    refine ⟨⟨congrArg (fun as => Acceptor.Reply.text (a.control as r)) ?_, rfl, hQ⟩, rfl⟩
    exact h.addresses a.listener hQ
  | close => cases hu

theorem isOpen_closed (a : Acceptor A) : a.closed.isOpen = false := by
  cases a <;> rfl

theorem shutdowns_append (cs ds : List Call) : shutdowns (cs ++ ds) = shutdowns cs + shutdowns ds :=
  List.countP_append

theorem use_late {a : Acceptor A} (ha : a.isOpen = false) (u : Acceptor.Use) (w : W) :
    net.use u (a, w) = (u.late, (a, w)) := by
  cases u with
  | accept times =>
    have hroute : acceptFrom (T := T) a = .failed none .closed := by
      cases a <;> (obtain rfl : _ = false := ha; rfl)
    rw [use, hroute, Opening.pollAll_failed]
    rfl
  | connectFrom target now times =>
    have hdial : net.connectFromAcceptor now a target w = (.failed none .closed, w) := by
      cases a <;> (obtain rfl : _ = false := ha; rfl)
    rw [use, hdial, Opening.pollAll_failed]
    rfl
  | control r =>
    have hcontrol : net.acceptorControl r a w = .error .closed := by
      rw [acceptorControl, Acceptor.control, ha]
      rfl
    rw [use, hcontrol]
    rfl
  | close =>
    have hclose : net.closeAcceptor a w = (.ok (), a, w) := by
      rw [closeAcceptor, ha]
      rfl
    rw [use, hclose]
    rfl

theorem closesOnce (net : Network A T W) : net.closable.ClosesOnce where
  other := by
    rintro u ⟨a, calls, w⟩ ha hu
    have hmirrors : net.watched.Mirrors net (Beside fun cs => shutdowns cs = shutdowns calls) :=
      net.mirrors_watched (fun _ h => (shutdowns_append _ _).trans h)
        fun _ _ h => (shutdowns_append _ _).trans h
    obtain ⟨⟨-, -, -, hshutdowns⟩, hsame⟩ := hmirrors.use hu a (w := (calls, w)) ⟨rfl, rfl⟩
    exact ⟨(congrArg Acceptor.isOpen hsame).trans ha, hshutdowns, rfl⟩
  close := by
    rintro u ⟨a, calls, w⟩ (ha : a.isOpen = true) hu
    cases u with
    | accept | connectFrom | control => cases hu
    | close =>
      simp only [closable, use, closeAcceptor, ha, if_true]
      exact ⟨isOpen_closed a, shutdowns_append _ _⟩
  late := by
    rintro u ⟨a, calls, w⟩ ha
    exact use_late ha u (calls, w)

theorem isOpen_new (d : Descriptor) (config : EndpointConfig) (l : A) :
    (Acceptor.new d config l).isOpen = true := by
  obtain ⟨filters, transport⟩ := d
  cases filters with
  | nil => rfl
  | cons f fs =>
    cases f
    rfl

theorem lifecycle_new (net : Network A T W) (d : Descriptor) (config : EndpointConfig) (l : A)
    (w : W) : net.closable.Lifecycle 1 (Acceptor.new d config l, ([], w)) :=
  net.closesOnce.lifecycle (z := (Acceptor.new d config l, ([], w))) (isOpen_new d config l)

theorem useAll_watched (net : Network A T W) (us : List Acceptor.Use) (a : Acceptor A)
    (calls : List Call) (w : W) :
    let x := useAll net.watched.use us (a, (calls, w))
    (x.1, x.2.1, x.2.2.2) = useAll net.use us (a, w) := by
  have huse (u : Acceptor.Use) {x : Acceptor A × (List Call × W)} {y : Acceptor A × W}
      (hx : SameState (Beside fun _ => True) x y) :
      Agree (SameState (Beside fun _ => True)) (net.watched.use u x) (net.use u y) := by
    obtain ⟨a, calls, w⟩ := x
    obtain ⟨_, _⟩ := y
    obtain ⟨rfl, rfl, -⟩ := hx
    cases hu : u.isClose with
    | false =>
      exact ((net.mirrors_watched (fun _ _ => trivial) fun _ _ _ => trivial).use hu a
        ⟨rfl, trivial⟩).1
    | true =>
      cases u with
      | accept | connectFrom | control => cases hu
      | close =>
        cases ha : a.isOpen with
        | false =>
          rw [use_late ha, use_late ha]
          exact ⟨rfl, rfl, rfl, trivial⟩
        | true =>
          simp only [use, closeAcceptor, ha, if_true]
          exact ⟨rfl, rfl, rfl, trivial⟩
  have hstart : SameState (Beside fun _ => True) (a, (calls, w)) (a, w) := ⟨rfl, rfl, trivial⟩
  obtain ⟨ha, hs, hw, -⟩ := agree_useAll (fun u {_ _} hx => huse u hx) us hstart
  exact Prod.ext ha (Prod.ext hs hw)

end Network

/-- Handles on any wire, and on any listener, live as they should: the first closing closes what is
under the handle, whatever comes of it, and nothing else does; after it the handle is closed, does
nothing any more and gives late answers. The transport of a stack is closed at most once, however
the outer handle is used, and closing that handle closes it if no other handle has been closed
before. The records of calls in which this is found make no difference to what is done. -/
theorem handles_close_once {S T A V : Type} (io : Wire S W) (transport : Wire T W)
    (net : Network A V W) :
    (∀ s w, io.handle.Lifecycle 1 (⟨true, s⟩, ([], w))) ∧
      (∀ d config l w, net.closable.Lifecycle 1 (Acceptor.new d config l, ([], w))) ∧
      (∀ n s os w, closings
        (useAll (stackWire transport.watched n).perform os (s, ([], w))).2.2.1 ≤ 1) ∧
      (∀ n s w, (∀ o ∈ StackState.handles n s, o = true) →
        (transport.stackHandle n).Lifecycle 1 (s, ([], w))) ∧
      (∀ os h calls w,
        let x := useAll io.watched.guarded.perform os (h, (calls, w))
        (x.1, x.2.1, x.2.2.2) = useAll io.guarded.perform os (h, w)) ∧
      (∀ n os s calls w,
        let x := useAll (stackWire transport.watched n).perform os (s, (calls, w))
        (x.1, x.2.1, x.2.2.2) = useAll (stackWire transport n).perform os (s, w)) ∧
      ∀ us a calls w,
        let x := useAll net.watched.use us (a, (calls, w))
        (x.1, x.2.1, x.2.2.2) = useAll net.use us (a, w) := by
  refine ⟨io.lifecycle_handle, net.lifecycle_new, ?_, ?_, ?_, ?_, net.useAll_watched⟩
  · intro n s os w
    exact transport.closings_stackHandle_le n s w os
  · intro n s w hs
    exact transport.lifecycle_stackHandle hs w
  · exact Wire.useAll_watched io.mirrors_watched.guarded_same
  · intro n
    exact Wire.useAll_watched (transport.mirrors_watched.stack_same n)

end Wirebench

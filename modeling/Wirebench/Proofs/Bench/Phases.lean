import Wirebench.Proofs.Bench.Cleanup

namespace Wirebench.Bench

variable {A T W α β : Type}

/-- The run, the source and the target of a change of phase that an event reports. -/
def Event.change? : Event → Option (String × Phase × Phase)
  | phaseChanged test source target => some (test, source, target)
  | _ => none

/-- The changes of phase that a log reports, in order. -/
def changes (log : Log) : List (String × Phase × Phase) := log.filterMap Event.change?

@[simp] theorem changes_append (log more : Log) :
    changes (log ++ more) = changes log ++ changes more := List.filterMap_append

/-- The changes of phase of a run none of whose stages fails. -/
def course : List (Phase × Phase) :=
  [(.init, .listening), (.listening, .connected), (.connected, .exchanging),
    (.exchanging, .asserting)]

namespace Phase

/-- How many changes of phase lead to this one. -/
def place : Phase → Nat
  | init => 0
  | listening => 1
  | connected => 2
  | exchanging => 3
  | asserting => 4
  | closed => 5

/-- The changes by which a run comes to a phase before it is closed. -/
def way (label : String) (p : Phase) : List (String × Phase × Phase) :=
  (course.take p.place).map (Prod.mk label)

variable {p q : Phase}

theorem way_next (label : String) (h : (p, q) ∈ course) :
    q.way label = p.way label ++ [(label, p, q)] ∧ p ≠ .closed ∧ q ≠ .closed := by
  simp only [course, List.mem_cons, Prod.mk.injEq, List.not_mem_nil, or_false] at h
  rcases h with ⟨rfl, rfl⟩ | ⟨rfl, rfl⟩ | ⟨rfl, rfl⟩ | ⟨rfl, rfl⟩ <;> exact ⟨rfl, nofun, nofun⟩

end Phase

namespace RunState

/-- The run is on its way: the changes it has reported are those that lead to its phase, and the
handles that the phase stands for are staged. -/
structure InCourse (label : String) (s : RunState A T W) : Prop where
  labelled : s.label = label
  running : s.phase ≠ .closed
  changes : changes s.log = s.phase.way label
  acceptor : Phase.listening.place ≤ s.phase.place → s.handles.acceptor.isSome = true
  ends : Phase.connected.place ≤ s.phase.place →
    s.handles.first.isSome = true ∧ s.handles.second.isSome = true

/-- Nothing has been reported of a change of phase, and the same handles are staged. -/
structure Stays (s s' : RunState A T W) : Prop where
  label : s'.label = s.label
  phase : s'.phase = s.phase
  changes : Bench.changes s'.log = Bench.changes s.log
  acceptor : s'.handles.acceptor.isSome = s.handles.acceptor.isSome
  first : s'.handles.first.isSome = s.handles.first.isSome
  second : s'.handles.second.isSome = s.handles.second.isSome

variable {s s' s'' : RunState A T W} {label : String}

theorem Stays.refl (s : RunState A T W) : Stays s s := ⟨rfl, rfl, rfl, rfl, rfl, rfl⟩

theorem Stays.trans (h : Stays s s') (h' : Stays s' s'') : Stays s s'' :=
  ⟨h'.label.trans h.label, h'.phase.trans h.phase, h'.changes.trans h.changes,
    h'.acceptor.trans h.acceptor, h'.first.trans h.first, h'.second.trans h.second⟩

theorem Stays.reported (h : Stays s s') {more : Log} (hmore : Bench.changes more = []) :
    Stays s { s' with log := s'.log ++ more } := by
  refine ⟨h.label, h.phase, ?_, h.acceptor, h.first, h.second⟩
  rw [changes_append, hmore, List.append_nil]
  exact h.changes

theorem InCourse.start (label : String) (w : W) :
    (start label w : RunState A T W).InCourse label where
  labelled := rfl
  running := nofun
  changes := rfl
  acceptor := nofun
  ends := nofun

theorem InCourse.stays (h : s.InCourse label) (hs : Stays s s') : s'.InCourse label where
  labelled := hs.label.trans h.labelled
  running := hs.phase ▸ h.running
  changes := by
    rw [hs.changes, hs.phase]
    exact h.changes
  acceptor := by
    rw [hs.phase, hs.acceptor]
    exact h.acceptor
  ends := by
    rw [hs.phase, hs.first, hs.second]
    exact h.ends

theorem InCourse.advance (h : s.InCourse label) {next : Phase} (hnext : (s.phase, next) ∈ course)
    (hacceptor : s.handles.acceptor.isSome = true)
    (hends : Phase.connected.place ≤ next.place →
      s.handles.first.isSome = true ∧ s.handles.second.isSome = true) :
    InCourse label
      { s with phase := next, log := s.log ++ [.phaseChanged s.label s.phase next] } := by
  obtain ⟨hway, -, hrunning⟩ := Phase.way_next label hnext
  refine ⟨h.labelled, hrunning, ?_, fun _ => hacceptor, hends⟩
  rw [changes_append, h.changes, hway, ← h.labelled]
  rfl

end RunState

namespace Link

variable {S : Type}

/-- What has been reported since is not a change of phase. -/
def Quiet (x y : Link S W) : Prop := changes y.log = changes x.log

variable {x y z : Link S W}

theorem Quiet.report (h : Quiet x y) {e : Event} (he : e.change? = none) :
    Quiet x (y.report e) := by
  have hnone : changes [e] = [] := List.filterMap_cons_none he
  rw [Quiet, Link.report, changes_append, hnone, List.append_nil]
  exact h

end Link

section Exchanges

variable {S : Type} {io : Wire S W}

theorem quiet_transfer (p : Params) (data : List UInt8) (l : Link S W) :
    l.Quiet (transfer io p data l).2 := by
  rw [transfer]
  obtain ⟨answer, source, w⟩ := io.control ⟨.first, true, .maxWritePacket, none⟩ l.source l.world
  have hreported : l.Quiet (l.report
      (.transferStarted data.length (writeLimit p.chunkSize (packetLimit answer)))) :=
    Link.Quiet.report rfl rfl
  exact hreported

theorem quiet_transferUrgent (p : Params) (data : List UInt8) (l : Link S W) :
    l.Quiet (transferUrgent io p data l).2 := by
  rw [transferUrgent]
  obtain ⟨r, source, w⟩ := io.writeUrgent data l.source l.world
  cases r with
  | ok =>
    dsimp only
    obtain ⟨r, sink, w⟩ := readUrgent io p (io.backlog l.sink w + 1) data.length [] l.sink w
    cases r <;> rfl
  | error => rfl
  | waiting => rfl
  | stalled => rfl

theorem quiet_bothWays {send : Link S W → Except BenchError Unit × Link S W}
    (hsend : ∀ l : Link S W, l.Quiet (send l).2) (l : Link S W) : l.Quiet (bothWays send l).2 := by
  have hfirst := (hsend (l.report .firstToSecond)).trans (Link.Quiet.report rfl rfl)
  rw [bothWays]
  cases hr : send (l.report .firstToSecond) with
  | mk r l₁ =>
    rw [hr] at hfirst
    cases r with
    | error => exact hfirst
    | ok =>
      have hsecond := (hsend (l₁.report .secondToFirst).swap).trans
        (Link.Quiet.report hfirst rfl)
      dsimp only
      cases hr' : send (l₁.report .secondToFirst).swap with
      | mk r' l₂ =>
        rw [hr'] at hsecond
        cases r' with
        | error => exact hsecond
        | ok => exact Link.Quiet.report hsecond rfl

theorem quiet_exchange (io : Wire S W) (p : Params) (l : Link S W) (e : Exchange) :
    l.Quiet (e.run io p l).2 := by
  cases e with
  | data payload =>
    exact (quiet_bothWays (quiet_transfer p payload) _).trans (Link.Quiet.report rfl rfl)
  | urgent payload =>
    exact (quiet_bothWays (quiet_transferUrgent p payload) _).trans (Link.Quiet.report rfl rfl)
  | small => exact quiet_bothWays (quiet_transfer _ smallPayload) l
  | random size =>
    exact (quiet_bothWays (quiet_transfer p _) _).trans (Link.Quiet.report rfl rfl)
  | fail e => rfl

end Exchanges

namespace Stage

/-- The stage keeps the run in its course, and where it succeeds it leads from `p` to `q`. -/
def Moves (p : Phase) (m : Stage A T W α) (q : Phase) : Prop :=
  ∀ label s, s.InCourse label → s.phase = p →
    (m.run.run s).2.InCourse label ∧ ∀ a, (m.run.run s).1 = .ok a → (m.run.run s).2.phase = q

variable {m : Stage A T W α} {p q r : Phase}

theorem inCourse_of_error {s : RunState A T W} {label : String} (hs : s.InCourse label)
    (e : BenchError) (q : Phase) : s.InCourse label ∧
      ∀ a : α, (.error e : Except BenchError α) = .ok a → s.phase = q := by
  constructor
  · exact hs
  · intro a h
    cases h

theorem Moves.bind {f : α → Stage A T W β} (h : Moves p m q) (h' : ∀ a, Moves q (f a) r) :
    Moves p (m >>= f) r := by
  intro label s hs hp
  obtain ⟨hcourse, hmoves⟩ := h label s hs hp
  rw [run_bind]
  cases hr : m.run.run s with
  | mk x s' =>
    rw [hr] at hcourse hmoves
    cases x with
    | error e => exact inCourse_of_error hcourse e r
    | ok a => exact h' a label s' hcourse (hmoves a rfl)

theorem moves_pure (a : α) : Moves p (pure a : Stage A T W α) p :=
  fun _ _ hs hp => ⟨hs, fun _ _ => hp⟩

theorem moves_of_stays (h : ∀ s, RunState.Stays s (m.run.run s).2) : Moves p m p :=
  fun _ s hs hp => ⟨hs.stays (h s), fun _ _ => (h s).phase.trans hp⟩

theorem stays_report {e : Event} (he : e.change? = none) (s : RunState A T W) :
    RunState.Stays s ((report e).run.run s).2 :=
  (RunState.Stays.refl s).reported (List.filterMap_cons_none he)

theorem stays_judge {r : Except BenchError Unit × Log} (hr : changes r.2 = [])
    (s : RunState A T W) : RunState.Stays s ((judge r).run.run s).2 := by
  rw [run_judge]
  exact (RunState.Stays.refl s).reported hr

theorem changes_expectAnswer (label : String) (option : ControlOption) (expected : String)
    (answer : Except StreamError String) :
    changes (expectAnswer label option expected answer).2 = [] := by
  cases answer <;> rfl

theorem stays_world (s : RunState A T W) (w : W) : RunState.Stays s { s with world := w } :=
  ⟨rfl, rfl, rfl, rfl, rfl, rfl⟩

variable {net : Network A T W} {c : Context}

theorem stays_onWorld (op : W → Except StreamError α × W) (s : RunState A T W) :
    RunState.Stays s ((onWorld op).run.run s).2 := by
  rw [run_onWorld]
  exact stays_world s _

theorem stays_expectLocal (net : Network A T W) (a : Acceptor A) (expected : String)
    (s : RunState A T W) :
    RunState.Stays s ((expectLocal net a expected).run.run s).2 :=
  stays_judge (changes_expectAnswer _ _ _ _) s

theorem stays_first {s : RunState A T W} (he : s.handles.first.isSome = true) (e : Endpoint T)
    (w : W) :
    RunState.Stays s { s with handles := { s.handles with first := some e }, world := w } :=
  ⟨rfl, rfl, rfl, rfl, he.symm, rfl⟩

theorem stays_second {s : RunState A T W} (he : s.handles.second.isSome = true) (e : Endpoint T)
    (w : W) :
    RunState.Stays s { s with handles := { s.handles with second := some e }, world := w } :=
  ⟨rfl, rfl, rfl, rfl, rfl, he.symm⟩

theorem stays_expectRemote (expected : String) (s : RunState A T W) :
    RunState.Stays s ((expectRemote net expected).run.run s).2 := by
  rw [expectRemote, run_get]
  cases he : s.handles.first with
  | none => exact .refl s
  | some e =>
    have hsome : s.handles.first.isSome = true := he ▸ rfl
    exact (stays_first hsome _ _).trans (stays_judge (changes_expectAnswer _ _ _ _) _)

theorem stays_readBack (wait : Duration) (greeting : List UInt8) (s : RunState A T W) :
    RunState.Stays s ((readBack net wait greeting).run.run s).2 := by
  rw [readBack, run_get]
  cases he : s.handles.second with
  | none => exact .refl s
  | some e =>
    have hsome : s.handles.second.isSome = true := he ▸ rfl
    rw [run_present_some]
    obtain ⟨r, got, e', w⟩ := (Endpoint.wire net.wire).readExact greeting.length [] e s.world
    dsimp only
    rw [run_set]
    have hread := stays_second hsome e' w
    cases r with
    | ok bytes => exact hread.trans (stays_judge rfl _)
    | error => exact hread
    | waiting => exact hread
    | stalled => exact hread

theorem moves_openAcceptor (d : Descriptor) :
    Moves .init (openAcceptor net c d) .listening := by
  intro label s hs hp
  rw [openAcceptor, run_bind, run_onWorld]
  obtain ⟨r, w⟩ := c.openAcceptor net d s.world
  cases r with
  | error e => exact inCourse_of_error (hs.stays (stays_world s w)) _ _
  | ok a =>
    -- Before the first change of phase nothing is expected of the handles.
    have hstaged : RunState.InCourse label
        { s with handles := { s.handles with acceptor := some a }, world := w } := by
      refine ⟨hs.labelled, hs.running, hs.changes, fun _ => rfl, ?_⟩
      exact hs.ends
    have hearly : ¬Phase.connected.place ≤ Phase.listening.place := by decide
    refine ⟨hstaged.advance ?_ rfl fun hlate => absurd hlate hearly, fun _ _ => rfl⟩
    rw [hp]
    decide

theorem moves_openConnector (d : Descriptor) : Moves p (openConnector net c d) p := by
  apply moves_of_stays
  intro s
  rw [openConnector, run_bind, run_onWorld]
  obtain ⟨r, w⟩ := c.openAcceptor net d s.world
  cases r <;> exact ⟨rfl, rfl, rfl, rfl, rfl, rfl⟩

theorem moves_connect (wait : Duration) (a : Acceptor A)
    (connecting : Nat → W → Opening A T × W) :
    Moves .listening (connect net wait a connecting) .connected := by
  intro label s hs hp
  have hacceptor : s.handles.acceptor.isSome = true := hs.acceptor (hp ▸ Nat.le_refl _)
  -- Until the next change of phase it does not matter how many ends there are.
  have hstaged (first second : Option (Endpoint T)) (w : W) (now : Nat) : RunState.InCourse label
      { s with handles := { s.handles with first, second }, world := w, now } := by
    refine ⟨hs.labelled, hs.running, hs.changes, fun _ => hacceptor, ?_⟩
    intro hconnected
    rw [hp] at hconnected
    exact absurd hconnected (by decide)
  rw [connect, run_get]
  obtain ⟨one, w⟩ := connecting s.now s.world
  dsimp only
  obtain ⟨one, two, w, now⟩ := Opening.awaitBoth net true (s.now + wait.toNanoseconds) s.now one
    (Network.acceptFrom a) w
  dsimp only
  rw [run_set]
  have hleft := hstaged one.endpoint? two.endpoint? (two.discard net (one.discard net w)) now
  cases one with
  | opened e =>
    cases two with
    | opened e' =>
      refine ⟨hleft.advance ?_ hacceptor fun _ => ⟨rfl, rfl⟩, fun _ _ => rfl⟩
      rw [hp]
      decide
    | accepting => exact inCourse_of_error hleft _ _
    | settingUp => exact inCourse_of_error hleft _ _
    | stuck => exact inCourse_of_error hleft _ _
    | failed => exact inCourse_of_error hleft _ _
  | failed => exact inCourse_of_error hleft _ _
  | accepting => cases two <;> exact inCourse_of_error hleft _ _
  | settingUp => cases two <;> exact inCourse_of_error hleft _ _
  | stuck => cases two <;> exact inCourse_of_error hleft _ _

theorem moves_conclusion {r : Except BenchError Unit × Log} (hr : changes r.2 = []) :
    Moves .exchanging (judge r >>= fun _ => (advance .asserting : Stage A T W Unit))
      .asserting := by
  refine .bind (moves_of_stays (stays_judge hr)) fun _ label s hs hp => ?_
  have hends := hs.ends (by rw [hp]; decide)
  have hacceptor := hs.acceptor (by rw [hp]; decide)
  refine ⟨hs.advance ?_ hacceptor fun _ => hends, fun _ _ => rfl⟩
  rw [hp]
  decide

theorem moves_exchange (o : RunOptions) (random : Nat → List UInt8) :
    Moves .connected (exchange net c o random) .asserting := by
  intro label s hs hp
  have hends := hs.ends (hp ▸ Nat.le_refl _)
  have hacceptor := hs.acceptor (by rw [hp]; decide)
  have hnext : (s.phase, Phase.exchanging) ∈ course := by
    rw [hp]
    decide
  have hreported := (hs.advance hnext hacceptor fun _ => hends).stays
    (stays_report (e := .exchangeStarted s.label o.exchange.name) rfl _)
  rw [exchange, run_advance, run_get, run_report]
  obtain ⟨first, hfirst⟩ := Option.isSome_iff_exists.1 hends.1
  obtain ⟨second, hsecond⟩ := Option.isSome_iff_exists.1 hends.2
  rw [hfirst, hsecond, run_present_some, run_present_some]
  have hquiet := quiet_exchange (Endpoint.wire net.wire) (o.params c random)
    ⟨first, second, s.world, []⟩ o.exchange
  refine moves_conclusion ?_ label _ ?_ rfl
  · exact hquiet
  · exact hreported.stays ⟨rfl, rfl, rfl, rfl, hends.1.symm, hends.2.symm⟩

end Stage

theorem AcceptRun.moves_stages (net : Network A T W) (c : Context) (random : Nat → List UInt8)
    (r : AcceptRun) : Stage.Moves .init (r.stages net c random) .asserting := by
  unfold stages
  refine (Stage.moves_openAcceptor r.accept).bind fun a => ?_
  refine (Stage.moves_of_stays (Stage.stays_onWorld _)).bind fun port => ?_
  refine (Stage.moves_of_stays (Stage.stays_report rfl)).bind fun _ => ?_
  refine (Stage.moves_connect (r.options.wait c) a _).bind fun _ => ?_
  refine (Stage.moves_of_stays (Stage.stays_readBack _ r.greeting)).bind fun _ => ?_
  have hend : Stage.Moves .connected
      (Stage.exchange net c r.options random >>= fun _ => pure port) .asserting :=
    (Stage.moves_exchange r.options random).bind fun _ => Stage.moves_pure port
  have hlocal (start : String) :=
    (Stage.moves_of_stays (Stage.stays_expectLocal net a (withPort start port))).bind fun _ => hend
  cases r.expectedRemote with
  | none =>
    cases r.expectedLocal with
    | none => exact hend
    | some start => exact hlocal start
  | some start =>
    refine (Stage.moves_of_stays (Stage.stays_expectRemote (withPort start port))).bind
      fun _ => ?_
    cases r.expectedLocal with
    | none => exact hend
    | some start => exact hlocal start

theorem AcceptConnectRun.moves_stages (net : Network A T W) (c : Context)
    (random : Nat → List UInt8) (r : AcceptConnectRun) :
    Stage.Moves .init (r.stages net c random) .asserting := by
  unfold stages
  refine (Stage.moves_openAcceptor r.accept).bind fun a => ?_
  refine (Stage.moves_openConnector r.connector).bind fun connector => ?_
  refine (Stage.moves_of_stays (Stage.stays_onWorld _)).bind fun port => ?_
  refine (Stage.moves_of_stays (Stage.stays_report rfl)).bind fun _ => ?_
  refine (Stage.moves_connect (r.options.wait c) a _).bind fun _ => ?_
  exact (Stage.moves_exchange r.options random).bind fun _ => Stage.moves_pure port

namespace Handles

theorem changes_closeFailures (net : Network A T W) (h : Handles A T) (x : Closings) :
    changes (h.closeFailures net x) = [] := by
  have hendpoint (e : Option (Endpoint T)) (r : Except StreamError Unit) :
      changes (endpointFailure net e r) = [] := by
    cases r <;> cases e <;> rfl
  have hacceptor (a : Option (Acceptor A)) (r : Except StreamError Unit) :
      changes (acceptorFailure a r) = [] := by
    cases r <;> cases a <;> rfl
  simp only [closeFailures, changes_append, hendpoint, hacceptor, List.append_nil]

theorem isSome_closeEndpoint (net : Network A T W) (e : Option (Endpoint T)) (w : W) :
    (closeEndpoint net e w).2.1.isSome = e.isSome := by
  cases e <;> rfl

theorem isSome_closeAcceptor (net : Network A T W) (a : Option (Acceptor A)) (w : W) :
    (closeAcceptor net a w).2.1.isSome = a.isSome := by
  cases a <;> rfl

end Handles

namespace RunState

variable {label : String}

theorem stays_closeHandles (net : Network A T W) (s : RunState A T W) :
    Stays s (s.closeHandles net) := by
  have hclosed : Stays s { s with
      handles := (s.handles.close net s.world).2.1
      world := (s.handles.close net s.world).2.2 } :=
    ⟨rfl, rfl, rfl, Handles.isSome_closeAcceptor _ _ _, Handles.isSome_closeEndpoint _ _ _,
      Handles.isSome_closeEndpoint _ _ _⟩
  exact hclosed.reported (Handles.changes_closeFailures _ _ _)

/-- A run that fails is closed in the end, and what it has staged is still there. -/
theorem slots_fail (net : Network A T W) (e : BenchError) (s : RunState A T W) :
    (s.fail net e).phase = .closed ∧
      (s.fail net e).handles.acceptor.isSome = s.handles.acceptor.isSome ∧
        (s.fail net e).handles.first.isSome = s.handles.first.isSome ∧
          (s.fail net e).handles.second.isSome = s.handles.second.isSome :=
  have hclosed := stays_closeHandles net { s with log := s.log ++ [.runFailed s.label s.phase e] }
  ⟨rfl, hclosed.acceptor, hclosed.first, hclosed.second⟩

theorem InCourse.changes_fail {s : RunState A T W} (h : s.InCourse label) (net : Network A T W)
    (e : BenchError) :
    Bench.changes (s.fail net e).log = s.phase.way label ++ [(label, s.phase, .closed)] := by
  have hreported : Stays s { s with log := s.log ++ [.runFailed s.label s.phase e] } :=
    (Stays.refl s).reported rfl
  have hclosed := hreported.trans (stays_closeHandles net _)
  rw [RunState.fail, changes_append, hclosed.changes, h.changes, hclosed.label,
    hclosed.phase, h.labelled]
  rfl

end RunState

namespace Pair

/-- What can be done with a pair. -/
inductive Use (A T W : Type)
  | close
  /-- Anything that is done with what the pair holds, or in the world. -/
  | change (first second : Endpoint T) (acceptor : Acceptor A) (connector : Option (Acceptor A))
    (w : W)

/-- A pair after a use of it, with what is reported and the world. -/
def use (net : Network A T W) (x : Pair A T × Log × W) : Use A T W → Pair A T × Log × W
  | .close =>
    let (_, p, more, w) := x.1.close net x.2.2
    (p, x.2.1 ++ more, w)
  | .change first second acceptor connector w =>
    ({ x.1 with first, second, acceptor, connector }, x.2.1, w)

/-- The pair has stayed in its phase, or it has been closed, once. -/
def OnlyCloses (x y : Pair A T × Log × W) : Prop :=
  y.1.label = x.1.label ∧
    (y.1.phase = x.1.phase ∧ changes y.2.1 = changes x.2.1 ∨
      x.1.phase ≠ .closed ∧ y.1.phase = .closed ∧
        changes y.2.1 = changes x.2.1 ++ [(x.1.label, x.1.phase, .closed)])

theorem close_phase (net : Network A T W) (p : Pair A T) (w : W) :
    (p.close net w).2.1.label = p.label ∧ (p.close net w).2.1.phase = .closed ∧
      changes (p.close net w).2.2.1 =
        if p.phase = .closed then [] else [(p.label, p.phase, .closed)] := by
  rw [close]
  split
  next hclosed => exact ⟨rfl, hclosed, rfl⟩
  next => exact ⟨rfl, rfl, rfl⟩

theorem onlyCloses_use (net : Network A T W) (x : Pair A T × Log × W) (u : Use A T W) :
    OnlyCloses x (use net x u) := by
  cases u with
  | change => exact ⟨rfl, .inl ⟨rfl, rfl⟩⟩
  | close =>
    obtain ⟨hlabel, hphase, hchanges⟩ := close_phase net x.1 x.2.2
    have hlog : changes (use net x .close).2.1 =
        changes x.2.1 ++ changes (x.1.close net x.2.2).2.2.1 := changes_append _ _
    refine ⟨hlabel, ?_⟩
    rw [hlog, hchanges]
    split
    next hclosed => exact .inl ⟨hphase.trans hclosed.symm, List.append_nil _⟩
    next hopen => exact .inr ⟨hopen, hphase, rfl⟩

theorem OnlyCloses.trans {x y z : Pair A T × Log × W} (h : OnlyCloses x y)
    (h' : OnlyCloses y z) : OnlyCloses x z := by
  obtain ⟨hlabel, hphase⟩ := h
  obtain ⟨hlabel', hphase'⟩ := h'
  refine ⟨hlabel'.trans hlabel, ?_⟩
  rcases hphase with ⟨hsame, hchanges⟩ | ⟨hopen, hclosed, hchanges⟩
  · rw [hlabel, hsame, hchanges] at hphase'
    exact hphase'
  · rcases hphase' with ⟨hsame, hchanges'⟩ | ⟨hopen', -⟩
    · exact .inr ⟨hopen, hsame.trans hclosed, hchanges'.trans hchanges⟩
    · exact absurd hclosed hopen'

/-- Whatever is done with a pair, it moves to the closed phase only. -/
theorem onlyCloses (net : Network A T W) (uses : List (Use A T W)) (x : Pair A T × Log × W) :
    OnlyCloses x (uses.foldl (use net) x) := by
  induction uses generalizing x with
  | nil => exact ⟨rfl, .inl ⟨rfl, rfl⟩⟩
  | cons u uses ih => exact (onlyCloses_use net x u).trans (ih _)

end Pair

/-- The changes are the first ones of the course of a run, in order, and at most one more, by which
the run is closed. -/
def InOrder (label : String) (cs : List (String × Phase × Phase)) : Prop :=
  ∃ p : Phase, p ≠ .closed ∧ (cs = p.way label ∨ cs = p.way label ++ [(label, p, .closed)])

/-- How the phases of a run go that its stages have left as `x` and that ends as `f`. -/
structure Ordered (net : Network A T W) (label : String) (doClose : Bool)
    (x : Except BenchError UInt16 × RunState A T W) (f : Finished A T W) : Prop where
  ordered : InOrder label (changes f.log)
  /-- The last change of a run that fails, in whatever way, is to the closed phase. -/
  failing : ∀ e, f.result = .error e →
    ∃ p : Phase, p ≠ .closed ∧ changes f.log = p.way label ++ [(label, p, .closed)]
  /-- However far the stages have got, the handles that the phase stands for are staged. -/
  inCourse : x.2.InCourse label
  /-- When a stage fails, the last change is from the phase the run was in to the closed one. -/
  failed : ∀ e, x.1 = .error e → f.result = .error e ∧ f.log = (x.2.fail net e).log ∧
    changes f.log = x.2.phase.way label ++ [(label, x.2.phase, .closed)]
  /-- Closing takes nothing out of the slots. -/
  slots : ∀ e, (x.2.fail net e).phase = .closed ∧
    (x.2.fail net e).handles.acceptor.isSome = x.2.handles.acceptor.isSome ∧
      (x.2.fail net e).handles.first.isSome = x.2.handles.first.isSome ∧
        (x.2.fail net e).handles.second.isSome = x.2.handles.second.isSome
  /-- Stages that succeed leave a whole pair. -/
  complete : ∀ port, x.1 = .ok port → x.2.phase = .asserting ∧
    (Pair.ofHandles? x.2.label x.2.phase port x.2.handles).isSome = true
  closed : ∀ port, x.1 = .ok port → doClose = true →
    changes f.log = Phase.asserting.way label ++ [(label, .asserting, .closed)] ∧
      ∀ p, f.result = .ok p → p.phase = .closed
  kept : ∀ port, x.1 = .ok port → doClose = false →
    changes f.log = Phase.asserting.way label ∧
      ∃ p, f.result = .ok p ∧ p.label = label ∧ p.phase = .asserting
  /-- Whatever is done with a pair that has been handed back. -/
  used : ∀ p, f.result = .ok p → ∀ (uses : List (Pair.Use A T W)) (w : W),
    Pair.OnlyCloses (p, f.log, w) (uses.foldl (Pair.use net) (p, f.log, w))

theorem RunState.InCourse.ofHandles? {label : String} {s : RunState A T W}
    (h : s.InCourse label) (hphase : s.phase = .asserting) (port : UInt16) :
    ∃ p, Pair.ofHandles? s.label s.phase port s.handles = some p ∧ p.label = label ∧
      p.phase = .asserting := by
  obtain ⟨hfirst, hsecond⟩ := h.ends (by rw [hphase]; decide)
  obtain ⟨a, ha⟩ := Option.isSome_iff_exists.1 (h.acceptor (by rw [hphase]; decide))
  obtain ⟨e, he⟩ := Option.isSome_iff_exists.1 hfirst
  obtain ⟨e', he'⟩ := Option.isSome_iff_exists.1 hsecond
  refine ⟨⟨s.label, s.phase, port, e, e', a, s.handles.connector⟩, ?_, h.labelled, hphase⟩
  rw [Pair.ofHandles?, he, he', ha]
  rfl

theorem Finished.changes_ofPair (net : Network A T W) {p : Pair A T} (hp : p.phase = .asserting)
    (log : Log) (w : W) :
    changes (ofPair net true p log w).log =
        changes log ++ [(p.label, .asserting, .closed)] ∧
      ∀ q, (ofPair net true p log w).result = .ok q → q.phase = .closed := by
  obtain ⟨-, hphase, hchanges⟩ := Pair.close_phase net p w
  have hrunning : Phase.asserting ≠ .closed := by decide
  rw [hp, if_neg hrunning] at hchanges
  rw [ofPair, if_pos rfl]
  cases hclose : p.close net w with
  | mk r rest =>
    obtain ⟨q, more, w'⟩ := rest
    rw [hclose] at hphase hchanges
    have hlog : changes (log ++ more) = changes log ++ [(p.label, .asserting, .closed)] := by
      rw [changes_append, hchanges]
    cases r with
    | error =>
      refine ⟨hlog, ?_⟩
      intro _ hq
      cases hq
    | ok =>
      refine ⟨hlog, ?_⟩
      intro _ hq
      cases hq
      exact hphase

theorem Finished.ordered_conclude (net : Network A T W) {label : String} (doClose : Bool)
    {x : Except BenchError UInt16 × RunState A T W} (hx : x.2.InCourse label)
    (hok : ∀ port, x.1 = .ok port → x.2.phase = .asserting) :
    Ordered net label doClose x (conclude net doClose x) := by
  obtain ⟨r, s⟩ := x
  cases r with
  | error e =>
    have hfail := hx.changes_fail net e
    exact {
      ordered := ⟨s.phase, hx.running, .inr hfail⟩
      failing := fun _ _ => ⟨s.phase, hx.running, hfail⟩
      inCourse := hx
      failed := by
        intro _ he
        cases he
        exact ⟨rfl, rfl, hfail⟩
      slots := fun e => s.slots_fail net e
      complete _ hport := by cases hport
      closed _ hport := by cases hport
      kept _ hport := by cases hport
      used _ hpair := by cases hpair }
  | ok port =>
    have hphase := hok port rfl
    obtain ⟨p, hp, hlabel, hasserting⟩ := hx.ofHandles? hphase port
    have hchanges : changes s.log = Phase.asserting.way label := by
      rw [← hphase]
      exact hx.changes
    have hcomplete : ∀ port', (Except.ok port : Except BenchError UInt16) = .ok port' →
        s.phase = .asserting ∧
          (Pair.ofHandles? s.label s.phase port' s.handles).isSome = true := by
      intro _ h
      cases h
      rw [hp]
      exact ⟨hphase, rfl⟩
    have hrunning : Phase.asserting ≠ .closed := by decide
    simp only [conclude, hp]
    cases doClose with
    | false =>
      exact {
        ordered := ⟨.asserting, hrunning, .inl hchanges⟩
        failing _ he := by cases he
        inCourse := hx
        failed _ he := by cases he
        slots := fun e => s.slots_fail net e
        complete := hcomplete
        closed _ _ hclose := by cases hclose
        kept := fun _ _ _ => ⟨hchanges, p, rfl, hlabel, hasserting⟩
        used := fun q _ uses w => Pair.onlyCloses net uses _ }
    | true =>
      obtain ⟨hclosing, hclosed⟩ := changes_ofPair net hasserting s.log s.world
      rw [hchanges, hlabel] at hclosing
      exact {
        ordered := ⟨.asserting, hrunning, .inr hclosing⟩
        failing := fun _ _ => ⟨.asserting, hrunning, hclosing⟩
        inCourse := hx
        failed _ he := by cases he
        slots := fun e => s.slots_fail net e
        complete := hcomplete
        closed := fun _ _ _ => ⟨hclosing, hclosed⟩
        kept _ _ hopen := by cases hopen
        used := fun q _ uses w => Pair.onlyCloses net uses _ }

/-- Every run goes through its phases in order, on any network and however its stages end. It is
closed from the phase that it has reached; when its stages succeed there is a whole pair, which is
closed, or is handed back asserting and moves to the closed phase only. -/
theorem phases_in_order (net : Network A T W) (c : Context) (random : Nat → List UInt8) (w : W) :
    (∀ r : AcceptRun, Ordered net r.label r.options.doClose
      ((r.stages net c random).run.run (.start r.label w)) (r.run net c random w)) ∧
    ∀ r : AcceptConnectRun, Ordered net r.label r.options.doClose
      ((r.stages net c random).run.run (.start r.label w)) (r.run net c random w) := by
  constructor
  · intro r
    obtain ⟨hcourse, hok⟩ := r.moves_stages net c random r.label _
      (RunState.InCourse.start r.label w) rfl
    exact Finished.ordered_conclude net _ hcourse hok
  · intro r
    obtain ⟨hcourse, hok⟩ := r.moves_stages net c random r.label _
      (RunState.InCourse.start r.label w) rfl
    exact Finished.ordered_conclude net _ hcourse hok

end Wirebench.Bench

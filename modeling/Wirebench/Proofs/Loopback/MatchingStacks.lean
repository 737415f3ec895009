import Wirebench.Loopback.Transports
import Wirebench.Proofs.Loopback.PendingPorts
import Wirebench.Proofs.Wire.Listening

namespace Wirebench

variable {A T W : Type}

namespace Opening

/-- A connection comes to `n` layers: those that are settled, the one that is negotiating and those
still to come. If it fails it is one of its layers that fails. -/
inductive Layered (n : Nat) : Opening A T → Prop
  | settingUp (g : Negotiation T) (hlayers : g.layers + 1 + g.todo.length = n) :
      Layered n (.settingUp (.negotiating g) [])
  | opened (e : Endpoint T) (hlayers : e.layers = n) : Layered n (.opened e)
  | failed (reason : String) : Layered n (.failed none (.negotiation reason))

variable {n : Nat} {o : Opening A T} {w : W}

theorem Layered.afterSetup {io : Wire T W} {x : Setup T × W}
    (hx : Setup.Along io (fun _ _ _ => True) n x) :
    Layered n (afterSetup io [] x : Opening A T × W).1 := by
  cases hx with
  | negotiating g w hstack hlayers => exact .settingUp g hlayers
  | whole e w hstack hlayers =>
    rw [Opening.afterSetup, Wire.writeAll]
    exact .opened e hlayers
  | abandoned e reason w hstack => exact .failed reason

theorem always_invariant (io : Wire T W) : Setup.Invariant io fun _ _ _ => True where
  write _ _ := trivial
  settle _ := trivial
  addLayer _ _ := trivial

theorem Layered.poll (ho : Layered n o) (net : Network A T W) (now : Nat) (w : W) :
    Layered n (o.poll net now w).1 := by
  cases ho with
  | settingUp g hlayers =>
    exact .afterSetup (Setup.Along.poll (always_invariant net.wire) trivial hlayers)
  | opened e hlayers => exact .opened e hlayers
  | failed reason => exact .failed reason

theorem Layered.layers {e : Endpoint T} (ho : Layered n o) (he : o.endpoint? = some e) :
    e.layers = n := by
  cases ho with
  | settingUp | failed => cases he
  | opened e' hlayers =>
    cases he
    exact hlayers

theorem Layered.fault {f : StreamError} (ho : Layered n o) (hf : o.fault? = some f) :
    ∃ reason, f = .negotiation reason := by
  cases ho with
  | settingUp | opened => cases hf
  | failed reason =>
    cases hf
    exact ⟨reason, rfl⟩

theorem record_afterSetup {io : Wire T W} {calls : List Network.Call}
    {x : Setup T × (List Network.Call × W)} {x' : Setup T × W}
    (hx : Agree (Beside (· = calls)) x x') :
    (afterSetup (io.beside _) [] x : Opening A T × _).2.1 = calls :=
  (agree_afterSetup (io.mirrors_beside _) [] hx).2.2

theorem Layered.record (ho : Layered n o) (net : Network A T W) (now : Nat)
    (w : List Network.Call × W) : (o.poll net.watched now w).2.1 = w.1 := by
  cases ho with
  | settingUp g hlayers =>
    have hw : Beside (· = w.1) w w.2 := ⟨rfl, rfl⟩
    exact record_afterSetup (Setup.agree_poll (net.wire.mirrors_beside _) (.negotiating g) hw)
  | opened | failed => rfl

end Opening

namespace Acceptor

variable {d target : Descriptor}

/-- A target gets through every check: each open layer has the stack that is left of the target, and
takes one filter off. -/
inductive Passes : Acceptor A → Descriptor → Prop
  | transport {d target : Descriptor} {listener : A} (h : d.stackMatches target) :
      Passes (.transport d listener true) target
  | telnet {d target lower : Descriptor} {config : EndpointConfig} {inner : Acceptor A}
      (h : d.stackMatches target) (hinner : target.inner? = some lower)
      (hlower : Passes inner lower) : Passes (.telnet d config inner true) target

theorem dial_of_mismatch {a : Acceptor A} (ha : a.isOpen)
    (h : ¬ a.descriptor.stackMatches target) : a.dial target =
      .error (.invalidDescriptor target.wire (.stackMismatch a.descriptor.wire)) := by
  have hcheck : checkStack a.descriptor target =
    .error (.invalidDescriptor target.wire (.stackMismatch a.descriptor.wire)) := if_neg h
  cases a with
  | transport d l o =>
    obtain rfl : o = true := ha
    rw [descriptor] at hcheck
    rw [dial, if_pos rfl, hcheck]
    rfl
  | telnet d c inner o =>
    obtain rfl : o = true := ha
    rw [descriptor] at hcheck
    rw [dial, if_pos rfl, hcheck]
    rfl

theorem dial_telnet (h : d.stackMatches target) (config : EndpointConfig) (inner : Acceptor A) :
    (telnet d config inner true).dial target = match target.inner? with
      | some lower => (inner.dial lower).map fun r => (r.1, r.2.1, r.2.2 ++ [config])
      | none => .error (.invalidDescriptor target.wire .notFiltered) := by
  rw [dial, if_pos rfl, checkStack_eq_ok h]
  cases target.inner? with
  | none => rfl
  | some lower =>
    simp only [bind, Except.bind]
    cases inner.dial lower <;> rfl

theorem matches_of_dial {a : Acceptor A} {r : A × Descriptor × List EndpointConfig}
    (h : a.dial target = .ok r) : a.isOpen ∧ a.descriptor.stackMatches target := by
  have ha : a.isOpen := by
    cases a with
    | transport d l o =>
      cases o with
      | true => rfl
      | false => cases h
    | telnet d c inner o =>
      cases o with
      | true => rfl
      | false => cases h
  refine ⟨ha, Decidable.byContradiction fun hmismatch => ?_⟩
  rw [dial_of_mismatch ha hmismatch] at h
  cases h

/-- A target is dialled if and only if no check rejects it. -/
theorem exists_dial_iff (a : Acceptor A) (target : Descriptor) :
    (∃ r, a.dial target = .ok r) ↔ a.Passes target := by
  constructor
  · rintro ⟨r, hr⟩
    induction a generalizing target r with
    | transport d l o =>
      obtain ⟨hopen, hmatches⟩ := matches_of_dial hr
      obtain rfl : o = true := hopen
      exact .transport hmatches
    | telnet d c inner o ih =>
      obtain ⟨hopen, hmatches⟩ := matches_of_dial hr
      rw [descriptor] at hmatches
      obtain rfl : o = true := hopen
      rw [dial_telnet hmatches] at hr
      cases hinner : target.inner? with
      | none =>
        rw [hinner] at hr
        cases hr
      | some lower =>
        rw [hinner] at hr
        cases hlower : inner.dial lower with
        | error e =>
          simp only [hlower] at hr
          cases hr
        | ok r' => exact .telnet hmatches hinner (ih lower r' hlower)
  · intro h
    induction h with
    | transport h =>
      rw [dial, if_pos rfl, checkStack_eq_ok h]
      exact ⟨_, rfl⟩
    | telnet h hinner _ ih =>
      obtain ⟨r, hr⟩ := ih
      rw [dial_telnet h, hinner]
      simp only [hr]
      exact ⟨_, rfl⟩

theorem stackMatches_iff :
    d.stackMatches target ↔ d.filters = target.filters ∧ d.protocol = target.protocol := by
  rw [Descriptor.stackMatches, Bool.and_eq_true, decide_eq_true_iff, decide_eq_true_iff]

theorem listener_new (d : Descriptor) (config : EndpointConfig) (listener : A) :
    (new d config listener).listener = listener := by
  obtain ⟨filters, t⟩ := d
  rw [new]
  induction filters with
  | nil => rfl
  | cons f fs ih =>
    cases f
    exact ih

theorem descriptor_new (d : Descriptor) (config : EndpointConfig) (listener : A) :
    (new d config listener).descriptor = d := by
  obtain ⟨filters, t⟩ := d
  cases filters with
  | nil => rfl
  | cons f fs =>
    cases f
    rfl

theorem dial_new_of_mismatch (h : ¬ d.stackMatches target) (config : EndpointConfig)
    (listener : A) : (new d config listener).dial target =
      .error (.invalidDescriptor target.wire (.stackMismatch d.wire)) := by
  have hnew := descriptor_new d config listener
  rw [← hnew] at h
  rw [dial_of_mismatch (Network.isOpen_new d config listener) h, hnew]

theorem passes_new (d target : Descriptor) (config : EndpointConfig) (listener : A) :
    (new d config listener).Passes target ↔ d.stackMatches target := by
  rw [← exists_dial_iff]
  by_cases h : d.stackMatches target
  · exact iff_of_true ⟨_, dial_new h config listener⟩ h
  · rw [dial_new_of_mismatch h]
    exact iff_of_false nofun h

end Acceptor

namespace Network

variable {net : Network A T W} {d target : Descriptor} {config : EndpointConfig} {listener : A}
  {calls : List Call} {w : W} {now : Nat}

theorem use_eq_or_closed (u : Acceptor.Use) (x : Acceptor A × W) :
    (net.use u x).2.1 = x.1 ∨ (net.use u x).2.1.isOpen = false := by
  cases u with
  | accept | connectFrom | control => exact .inl rfl
  | close =>
    rw [use, closeAcceptor]
    cases x.1.isOpen with
    | true => exact .inr (isOpen_closed x.1)
    | false => exact .inl rfl

theorem useAll_closed (us : List Acceptor.Use) (x : Acceptor A × W) (hx : x.1.isOpen = false) :
    (useAll net.use us x).2.1.isOpen = false := by
  induction us with
  | nil => exact hx
  | cons u us ih =>
    rw [useAll_cons, use_late hx u x.2]
    exact ih

theorem useAll_of_isOpen (us : List Acceptor.Use) (x : Acceptor A × W)
    (hx : (useAll net.use us x).2.1.isOpen) : (useAll net.use us x).2.1 = x.1 := by
  induction us generalizing x with
  | nil => rfl
  | cons u us ih =>
    rw [useAll_cons] at hx ⊢
    rcases use_eq_or_closed u x with hsame | hclosed
    · exact (ih _ hx).trans hsame
    · rw [useAll_closed us _ hclosed] at hx
      cases hx

theorem openAcceptor_eq_ok {a : Acceptor A} {v : W}
    (ha : net.openAcceptor d config w = (.ok a, v)) :
    ∃ l, net.listen d.bottom config w = (.ok l, v) ∧ a = Acceptor.new d config l := by
  rw [openAcceptor] at ha
  split at ha
  · next l v' hl =>
    cases ha
    exact ⟨l, hl, rfl⟩
  · cases ha

theorem connectFromAcceptor_of_mismatch (h : ¬ d.stackMatches target) (w : W) :
    net.connectFromAcceptor now (Acceptor.new d config listener) target w =
      (.failed none (.invalidDescriptor target.wire (.stackMismatch d.wire)), w) := by
  rw [connectFromAcceptor, Acceptor.dial_new_of_mismatch h]

/-- What comes of connecting to a target with the same stack. The transport is asked once, for the
target without its filters; either it fails, or as many layers as there are filters are put on what
it gives. -/
structure Connects (net : Network A T W) (d target : Descriptor) (listener : A)
    (w : List Call × W) (x : Opening A T × (List Call × W)) : Prop where
  record : x.2.1 = w.1 ++ [.connectFrom target.bottom]
  opening : (∃ e, (net.connectFrom listener target.bottom w.2).1 = .error e ∧
    x.1 = .failed none e) ∨ x.1.Layered d.filters.length

theorem connects (h : d.stackMatches target) (w : List Call × W) :
    net.Connects d target listener w
      (net.watched.connectFromAcceptor now (Acceptor.new d config listener) target w) := by
  cases hconnect : net.connectFrom listener target.bottom w.2 with
  | mk r v =>
    have hwatched : net.watched.connectFrom listener target.bottom w =
        (r, (w.1 ++ [.connectFrom target.bottom], v)) := by
      simp only [watched, hconnect]
    cases r with
    | error e =>
      rw [connectFromAcceptor_of_error h hwatched]
      exact ⟨rfl, .inl ⟨e, by rw [hconnect], rfl⟩⟩
    | ok t =>
      rw [connectFromAcceptor_of_ok h hwatched]
      have hv : Beside (· = w.1 ++ [.connectFrom target.bottom])
        (w.1 ++ [.connectFrom target.bottom], v) v := ⟨rfl, rfl⟩
      have hlayers : (Endpoint.ofTransport t).layers +
          (List.replicate d.filters.length config).length = d.filters.length := by
        rw [List.length_replicate]
        exact Nat.zero_add _
      refine ⟨?_, .inr (.afterSetup ?_)⟩
      · exact Opening.record_afterSetup (Setup.agree_start (net.wire.mirrors_beside _) _ _ hv)
      · exact .start (Opening.always_invariant net.watched.wire) _ _ trivial hlayers

theorem Connects.poll {w : List Call × W} {x : Opening A T × (List Call × W)}
    (hx : net.Connects d target listener w x) (now : Nat) :
    net.Connects d target listener w (x.1.poll net.watched now x.2) := by
  obtain ⟨o, v⟩ := x
  obtain ⟨hrecord, ⟨e, he, rfl⟩ | hlayered⟩ := hx
  · exact ⟨hrecord, .inl ⟨e, he, rfl⟩⟩
  · exact ⟨(hlayered.record net now v).trans hrecord, .inr (hlayered.poll net.watched now v)⟩

theorem Connects.pollAll {w : List Call × W} {x : Opening A T × (List Call × W)}
    (hx : net.Connects d target listener w x) (times : List Nat) :
    net.Connects d target listener w (Opening.pollAll net.watched times x) :=
  Opening.pollAll_of_poll (P := net.Connects d target listener w)
    (fun now hx => hx.poll now) times hx

theorem connecting_cases (us : List Acceptor.Use) (v : W)
    (hopen : (useAll net.use us (Acceptor.new d config listener, v)).2.1.isOpen)
    (target : Descriptor) (now : Nat) (times : List Nat) :
    let x := (useAll net.use us (Acceptor.new d config listener, v)).2
    let z := Opening.pollAll net.watched times
      (net.watched.connectFromAcceptor now x.1 target ([], x.2))
    x.1 = Acceptor.new d config listener ∧
      (¬ d.stackMatches target →
        z = (.failed none (.invalidDescriptor target.wire (.stackMismatch d.wire)), ([], x.2))) ∧
      (d.stackMatches target → net.Connects d target listener ([], x.2) z) := by
  intro x z
  have hsame : x.1 = Acceptor.new d config listener := useAll_of_isOpen us _ hopen
  refine ⟨hsame, fun h => ?_, fun h => ?_⟩
  · simp only [z, hsame, connectFromAcceptor_of_mismatch h, Opening.pollAll_failed]
  · simp only [z, hsame]
    exact (connects h ([], x.2)).pollAll times

theorem Connects.layers {w : List Call × W} {x : Opening A T × (List Call × W)} {e : Endpoint T}
    (hx : net.Connects d target listener w x) (he : x.1.endpoint? = some e) :
    e.layers = d.filters.length := by
  rcases hx.opening with ⟨f, -, hfailed⟩ | hlayered
  · rw [hfailed] at he
    cases he
  · exact hlayered.layers he

theorem Connects.fault {w : List Call × W} {x : Opening A T × (List Call × W)} {f : StreamError}
    (hx : net.Connects d target listener w x) (hf : x.1.fault? = some f) :
    (∃ reason, f = .negotiation reason) ∨
      (net.connectFrom listener target.bottom w.2).1 = .error f := by
  rcases hx.opening with ⟨f', hrefused, hfailed⟩ | hlayered
  · rw [hfailed] at hf
    cases hf
    exact .inr hrefused
  · exact .inl (hlayered.fault hf)

/-- The transport of a listener finds nothing wrong with a target for its own protocol but that it
has no port. -/
def Discerning (net : Network A T W) : Prop :=
  ∀ d config w l, (net.listen d config w).1 = .ok l → ∀ target, d.protocol = target.protocol →
    ∀ w' text fault, (net.connectFrom l target w').1 = .error (.invalidDescriptor text fault) →
      fault = .portNotSet

/-- Targets are refused for their stack, by acceptors that have been opened and are still open, if
and only if they name another one. A target with the right stack may lack a port, and nothing else
is found wrong with it. -/
def RefusesByStack (net : Network A T W) : Prop :=
  ∀ d config w a, (net.openAcceptor d config w).1 = .ok a →
    ∀ (us : List Acceptor.Use) (v : W), (useAll net.use us (a, v)).2.1.isOpen →
    ∀ target now times,
      let x := (useAll net.use us (a, v)).2
      let z := Opening.pollAll net.watched times
        (net.watched.connectFromAcceptor now x.1 target ([], x.2))
      (z.1.fault? = some (.invalidDescriptor target.wire (.stackMismatch d.wire)) ↔
        ¬ (d.filters = target.filters ∧ d.protocol = target.protocol)) ∧
      (d.filters = target.filters ∧ d.protocol = target.protocol →
        ∀ text fault, z.1.fault? = some (.invalidDescriptor text fault) → fault = .portNotSet)

theorem Connects.portNotSet {w : List Call × W} {x : Opening A T × (List Call × W)}
    (hx : net.Connects d target listener w x) (hnet : net.Discerning) {v : W}
    (hl : (net.listen d.bottom config v).1 = .ok listener)
    (hprotocol : d.protocol = target.protocol) (text : String) (fault : DescriptorFault)
    (hf : x.1.fault? = some (.invalidDescriptor text fault)) : fault = .portNotSet := by
  rcases hx.fault hf with ⟨reason, hreason⟩ | hrefused
  · cases hreason
  · exact hnet d.bottom config v listener hl target.bottom hprotocol w.2 text fault hrefused

theorem Discerning.refusesByStack (hnet : net.Discerning) : net.RefusesByStack := by
  intro d config w a ha us v hopen target now times
  obtain ⟨l, hl, rfl⟩ := openAcceptor_eq_ok (Prod.ext ha rfl)
  obtain ⟨-, hmismatch, hmatch⟩ := connecting_cases us v hopen target now times
  have hfault (hstack : d.filters = target.filters ∧ d.protocol = target.protocol) :=
    (hmatch (Acceptor.stackMatches_iff.2 hstack)).portNotSet hnet (congrArg Prod.fst hl) hstack.2
  refine ⟨⟨fun hf hstack => ?_, fun h => ?_⟩, hfault⟩
  · cases hfault hstack _ _ hf
  · rw [hmismatch (mt Acceptor.stackMatches_iff.1 h)]
    rfl

end Network

namespace Association

variable {S K : Type} {sockets : Sockets S K}

theorem connect_ne (t : Transport) (port : UInt16) (a : SocketAddress) (config : EndpointConfig)
    (k : K) (text : String) (fault : DescriptorFault) :
    (connect sockets t port a config k).1 ≠ .error (.invalidDescriptor text fault) := by
  unfold connect
  split
  · nofun
  · nofun
  · split
    · nofun
    · nofun
    · split <;> nofun

end Association

namespace Loopback

variable {h : Host} {d target : Descriptor} {config : EndpointConfig} {text : String}
  {fault : DescriptorFault}

theorem port_eq_error {e : StreamError} (he : d.port = .error e) :
    e = .invalidDescriptor d.wire .portNotSet := by
  rw [Descriptor.port] at he
  split at he <;> cases he
  rfl

/-- A transport of one's own finds nothing wrong with a target but that it has no port. -/
theorem connect_eq_invalidDescriptor
    (hd : (connect d config h).1 = .error (.invalidDescriptor text fault)) :
    fault = .portNotSet := by
  have hresolve := resolve_ne_invalidDescriptor d.transport text fault
  unfold connect Host.locate at hd
  cases hport : d.port with
  | error e =>
    simp only [hport] at hd
    cases hd
    cases port_eq_error hport
    rfl
  | ok port =>
    cases hr : resolve d.transport with
    | error e =>
      simp only [hport, hr] at hd
      cases hd
      exact (hresolve hr).elim
    | ok a =>
      simp only [hport, hr] at hd
      split at hd
      · split at hd <;> cases hd
      · split at hd <;> cases hd
      · cases hd

theorem connectFrom_eq_invalidDescriptor {l : Listener} (hl : (listen d config h).1 = .ok l)
    (hprotocol : d.protocol = target.protocol) {h' : Host}
    (hd : (connectFrom l target h').1 = .error (.invalidDescriptor text fault)) :
    fault = .portNotSet := by
  rcases listen_cases hl with ⟨hd', i, rfl⟩ | ⟨hd', hub, rfl⟩
  · have htcp : target.protocol = .tcp := hprotocol.symm.trans hd'
    simp only [connectFrom, htcp, if_true] at hd
    exact connect_eq_invalidDescriptor hd
  · exact (connectFrom_shared_ne hub (hprotocol.symm.trans hd') h' text fault hd).elim

theorem discerning_network : network.Discerning :=
  fun _ _ _ _ hl _ hprotocol _ _ _ => connectFrom_eq_invalidDescriptor hl hprotocol

section

variable {S K : Type} (sockets : Association.Sockets S K) {w : World K}

theorem connectAssociation_eq_invalidDescriptor
    (hd : (connectAssociation sockets d config w).1 = .error (.invalidDescriptor text fault)) :
    fault = .portNotSet := by
  have hresolve := resolve_ne_invalidDescriptor d.transport text fault
  unfold connectAssociation Host.locate at hd
  cases hport : d.port with
  | error e =>
    simp only [hport] at hd
    cases hd
    cases port_eq_error hport
    rfl
  | ok port =>
    cases hr : resolve d.transport with
    | error e =>
      simp only [hport, hr] at hd
      cases hd
      exact (hresolve hr).elim
    | ok a =>
      simp only [hport, hr] at hd
      exact (Association.connect_ne d.transport port a config w.2.kernel text fault hd).elim

theorem eq_invalidDescriptor_of_map {α β : Type} {f : α → β} {r : Except StreamError α}
    (h : r.map f = .error (.invalidDescriptor text fault)) :
    r = .error (.invalidDescriptor text fault) := by
  cases r with
  | ok a => cases h
  | error e =>
    cases h
    rfl

theorem listen_transports_cases {l : Listener ⊕ Association.Listener S}
    (hl : ((transports sockets).listen d config w).1 = .ok l) :
    (∃ l', l = .inl l' ∧ (listen d config w.1).1 = .ok l') ∨
      (∃ l', l = .inr l' ∧ d.protocol = .sctp) := by
  simp only [transports] at hl
  cases hp : d.protocol with
  | tcp | udp =>
    simp only [hp, onHost] at hl
    cases hr : (listen d config w.1).1 with
    | error e =>
      rw [hr] at hl
      cases hl
    | ok l' =>
      rw [hr] at hl
      cases hl
      exact .inl ⟨l', rfl, rfl⟩
  | sctp =>
    simp only [hp, Prod.map_fst] at hl
    cases hr : (listenAssociation sockets d config w).1 with
    | error e =>
      rw [hr] at hl
      cases hl
    | ok l' =>
      rw [hr] at hl
      cases hl
      exact .inr ⟨l', rfl, rfl⟩

theorem discerning_transports : (transports sockets).Discerning := by
  intro d config w l hl target hprotocol w' text fault hd
  rcases listen_transports_cases sockets hl with ⟨l', rfl, hl'⟩ | ⟨l', rfl, hsctp⟩
  · exact connectFrom_eq_invalidDescriptor hl' hprotocol (eq_invalidDescriptor_of_map hd)
  · have htarget : target.protocol = .sctp := hprotocol.symm.trans hsctp
    have hd' : (connectFromAssociation sockets l' target w').1 =
        .error (.invalidDescriptor text fault) := eq_invalidDescriptor_of_map hd
    rw [connectFromAssociation, if_pos htarget] at hd'
    exact connectAssociation_eq_invalidDescriptor sockets hd'

end

/-- An open acceptor takes exactly the targets that name its stack. Any other one is refused by the
outermost check, before anything is done. With a target that does name it no check fails, at any
layer or at the transport, be that one for streams, datagrams or associations; the transport is
asked once, for the target without its filters, and the connection has as many layers as the
acceptor. -/
theorem acceptor_connects_iff_stacks_match :
    (∀ {A T W : Type} (net : Network A T W) {d : Descriptor} {config : EndpointConfig} {w v : W}
      {a : Acceptor A}, net.openAcceptor d config w = (.ok a, v) →
      ∀ (us : List Acceptor.Use) (v' : W), (useAll net.use us (a, v')).2.1.isOpen →
      ∀ (target : Descriptor) (now : Nat) (times : List Nat),
        let x := (useAll net.use us (a, v')).2
        let z := Opening.pollAll net.watched times
          (net.watched.connectFromAcceptor now x.1 target ([], x.2))
        (¬ (d.filters = target.filters ∧ d.protocol = target.protocol) →
          z = (.failed none (.invalidDescriptor target.wire (.stackMismatch d.wire)), ([], x.2))) ∧
        (d.filters = target.filters ∧ d.protocol = target.protocol →
          x.1.Passes target ∧ z.2.1 = [.connectFrom ⟨[], target.transport⟩] ∧
            (∀ e, z.1.endpoint? = some e → e.layers = d.filters.length) ∧
            ∀ f, z.1.fault? = some f → (∃ reason, f = .negotiation reason) ∨
              (net.connectFrom x.1.listener ⟨[], target.transport⟩ x.2).1 = .error f)) ∧
      network.RefusesByStack ∧
      ∀ {S K : Type} (sockets : Association.Sockets S K), (transports sockets).RefusesByStack := by
  refine ⟨?_, discerning_network.refusesByStack,
    fun sockets => (discerning_transports sockets).refusesByStack⟩
  intro A T W net d config w v a ha us v' hopen target now times
  obtain ⟨l, -, rfl⟩ := Network.openAcceptor_eq_ok ha
  obtain ⟨hsame, hmismatch, hmatch⟩ := Network.connecting_cases us v' hopen target now times
  refine ⟨fun h => hmismatch (mt Acceptor.stackMatches_iff.1 h), fun h => ?_⟩
  have hstack := Acceptor.stackMatches_iff.2 h
  have hconnects := hmatch hstack
  refine ⟨?_, hconnects.record, fun e he => hconnects.layers he, fun f hf => ?_⟩
  · rw [hsame]
    exact (Acceptor.passes_new d target config l).2 hstack
  · rw [hsame, Acceptor.listener_new]
    exact hconnects.fault hf

/-- A kernel with sockets for associations on which nobody ever answers. -/
def lonelySockets : Association.Sockets Nat (List SocketAddress) where
  create a _ k := (.ok k.length, k ++ [a])
  listen _ _ k := (.ok (), k)
  connect _ _ _ k := (some (.error SocketFault.connectionRefused.message), k)
  watch _ k := (.ok (), k)
  accept _ k := (none, k)
  boundAddresses _ _ := .ok []
  localAddress s k := .ok k[s]?
  remoteAddress _ _ := .error "Transport endpoint is not connected (os error 107)"
  streamCounts _ _ := .error "Invalid argument (os error 22)"
  read _ _ k := (none, k)
  write _ _ k := (none, k)
  shutdown _ k := k
  drop _ k := k
  backlog _ _ := 0

/-- An acceptor for associations with two layers, which is asked for its address before it connects:
to a target with one layer too few, and to one with the right stack, where nobody listens. -/
theorem acceptor_connects_iff_stacks_match_twoLayers :
    let net := transports lonelySockets
    let d : Descriptor := ⟨[.telnet, .telnet], ⟨.sctp, some "127.0.0.1", some 7⟩⟩
    let target : Descriptor := ⟨[.telnet, .telnet], ⟨.sctp, some "127.0.0.1", some 9⟩⟩
    let other : Descriptor := ⟨[.telnet], ⟨.sctp, some "127.0.0.1", some 9⟩⟩
    let us : List Acceptor.Use := [.control ⟨.first, true, .localAddr, none⟩]
    let s := net.openAcceptor d {} (Host.fresh true, ⟨[], []⟩)
    ∃ a, s.1 = .ok a ∧ (useAll net.use us (a, s.2)).2.1.isOpen ∧
      let x := (useAll net.use us (a, s.2)).2
      x.1.Passes target ∧
        (net.watched.connectFromAcceptor 0 x.1 target ([], x.2)).1.fault? =
          some (.connectFailed "127.0.0.1:9" "IO error: Connection refused (os error 111)") ∧
        (net.watched.connectFromAcceptor 0 x.1 other ([], x.2)).1.fault? =
          some (.invalidDescriptor other.wire (.stackMismatch d.wire)) := by
  intro net d target other us s
  obtain ⟨hgeneric, -, htransports⟩ := acceptor_connects_iff_stacks_match
  have hs : s.1 = .ok (.new d {} (.inr ⟨0, 0, {}⟩)) := rfl
  have hopen : (useAll net.use us (Acceptor.new d {} (.inr ⟨0, 0, {}⟩), s.2)).2.1.isOpen := rfl
  refine ⟨_, hs, hopen, ?_, by decide +kernel, ?_⟩
  · exact ((hgeneric net (Prod.ext hs rfl) us s.2 hopen target 0 []).2 ⟨rfl, rfl⟩).1
  · exact (htransports lonelySockets _ _ _ _ hs us s.2 hopen other 0 []).1.2 fun h => nomatch h.1

end Loopback

end Wirebench

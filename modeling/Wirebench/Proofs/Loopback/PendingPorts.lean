import Wirebench.Loopback.Network
import Wirebench.Proofs.Wire.Setups

namespace Wirebench

variable {A T W : Type}

/-- An opening has been refused for its descriptor, and nothing has been done in the world `w`. -/
def Opening.Refused (w : W) (x : Opening A T × W) : Prop :=
  ∃ text fault, x = (.failed none (.invalidDescriptor text fault), w)

theorem Opening.not_refused_afterSetup {io : Wire T W} {m : Nat} {x : Setup T × W}
    (hx : x.1.Within m) (w : W) : ¬ Refused w (afterSetup io [] x : Opening A T × W) := by
  rintro ⟨text, fault, h⟩
  obtain ⟨s, w'⟩ := x
  cases s with
  | negotiating g => cases h
  | ended r =>
    cases r with
    | ok e =>
      rw [afterSetup, Wire.writeAll] at h
      cases h
    | error err =>
      obtain ⟨reason, rfl⟩ := hx
      cases h

namespace Acceptor

theorem checkStack_eq_ok {d target : Descriptor} (h : d.stackMatches target) :
    checkStack d target = .ok () := by
  rw [checkStack, if_pos h]

theorem dial_build (config : EndpointConfig) {t t' : Transport} (h : t.protocol = t'.protocol)
    (listener : A) (filters : List Filter) :
    (build config t listener filters).dial ⟨filters, t'⟩ =
      .ok (listener, ⟨[], t'⟩, List.replicate filters.length config) := by
  have hmatches (fs : List Filter) : Descriptor.stackMatches ⟨fs, t⟩ ⟨fs, t'⟩ := by
    simp [Descriptor.stackMatches, Descriptor.protocol, h]
  induction filters with
  | nil =>
    rw [build, dial, if_pos rfl, checkStack_eq_ok (hmatches [])]
    rfl
  | cons f fs ih =>
    cases f
    simp only [build, dial, checkStack_eq_ok (hmatches _), Descriptor.inner?, ih, if_true,
      List.length_cons, List.replicate_succ']
    rfl

theorem dial_new {d target : Descriptor} (h : d.stackMatches target) (config : EndpointConfig)
    (listener : A) : (Acceptor.new d config listener).dial target =
      .ok (listener, target.bottom, List.replicate d.filters.length config) := by
  obtain ⟨filters, t⟩ := d
  obtain ⟨filters', t'⟩ := target
  obtain ⟨hfilters, hprotocol⟩ := Bool.and_eq_true_iff.1 h
  obtain rfl : filters = filters' := of_decide_eq_true hfilters
  exact dial_build config (of_decide_eq_true hprotocol) listener filters

end Acceptor

namespace Network

variable {net : Network A T W} {d target : Descriptor} {config : EndpointConfig} {listener : A}
  {w v : W}

theorem connectFromAcceptor_of_ok (h : d.stackMatches target) {t : T}
    (hconnect : net.connectFrom listener target.bottom w = (.ok t, v)) (now : Nat) :
    net.connectFromAcceptor now (Acceptor.new d config listener) target w =
      Opening.afterSetup net.wire [] (Setup.start net.wire now
        (List.replicate d.filters.length config) (.ofTransport t) v) := by
  simp only [connectFromAcceptor, Acceptor.dial_new h, hconnect]

theorem connectFromAcceptor_of_error (h : d.stackMatches target) {e : StreamError}
    (hconnect : net.connectFrom listener target.bottom w = (.error e, v)) (now : Nat) :
    net.connectFromAcceptor now (Acceptor.new d config listener) target w =
      (.failed none e, v) := by
  simp only [connectFromAcceptor, Acceptor.dial_new h, hconnect]

end Network

namespace Loopback

variable {h : Host} {d target : Descriptor} {config : EndpointConfig}

/-- The port is looked for before the host. -/
theorem connect_of_pending (hport : d.isPortPending) (config : EndpointConfig) (h : Host) :
    connect d config h = (.error (.invalidDescriptor d.wire .portNotSet), h) := by
  have hmissing : d.port = .error (.invalidDescriptor d.wire .portNotSet) := by
    rw [Descriptor.port, Option.isNone_iff_eq_none.1 hport]
  rw [connect, hmissing]

theorem resolve_ne_invalidDescriptor (t : Transport) (text : String) (fault : DescriptorFault) :
    resolve t ≠ .error (.invalidDescriptor text fault) := by
  unfold resolve
  cases t.host with
  | none => nofun
  | some host =>
    simp only
    cases spelled? host (t.port.getD 0) with
    | some a => nofun
    | none =>
      simp only [Option.map_none, Option.getD_none]
      unfold lookUp
      split
      · nofun
      · split <;> nofun

theorem connectFrom_shared_ne (hub : Nat) (htarget : target.protocol = .udp) (h : Host)
    (text : String) (fault : DescriptorFault) :
    (connectFrom (.shared hub) target h).1 ≠ .error (.invalidDescriptor text fault) := by
  have hresolve := resolve_ne_invalidDescriptor target.transport text fault
  simp only [connectFrom, htarget, if_true, Host.locate]
  split
  · cases hr : resolve target.transport with
    | error e =>
      rw [hr] at hresolve
      simp only
      intro he
      cases he
      exact hresolve rfl
    | ok a =>
      simp only
      split <;> nofun
  · nofun

theorem listen_cases {l : Listener} (hl : (listen d config h).1 = .ok l) :
    (d.protocol = .tcp ∧ ∃ i, l = .stream i config) ∨
      (d.protocol = .udp ∧ ∃ hub, l = .shared hub) := by
  unfold listen at hl
  cases hlocate : h.locate d.transport with
  | mk r h' =>
    rw [hlocate] at hl
    cases r with
    | error e => cases hl
    | ok a =>
      cases hp : d.protocol with
      | tcp =>
        simp only [hp] at hl
        split at hl <;> cases hl
        exact .inl ⟨rfl, _, rfl⟩
      | udp =>
        simp only [hp] at hl
        split at hl <;> cases hl
        exact .inr ⟨rfl, _, rfl⟩
      | sctp =>
        simp only [hp] at hl
        cases hl

theorem openAcceptor_cases {a : Acceptor Listener}
    (ha : (network.openAcceptor d config h).1 = .ok a) :
    ∃ l, (listen d.bottom config h).1 = .ok l ∧ a = Acceptor.new d config l := by
  simp only [Network.openAcceptor, network] at ha
  cases hl : listen d.bottom config h with
  | mk r h' =>
    rw [hl] at ha
    cases r with
    | error e => cases ha
    | ok l =>
      cases ha
      exact ⟨l, rfl, rfl⟩

/-- A target without a port is refused by an acceptor if and only if that is not one for
datagrams. -/
theorem refused_connectFromAcceptor_iff {a : Acceptor Listener} (now : Nat) (h' : Host)
    (ha : (network.openAcceptor d config h).1 = .ok a) (hport : target.isPortPending)
    (hmatches : d.stackMatches target) :
    Opening.Refused h' (network.connectFromAcceptor now a target h') ↔ d.protocol ≠ .udp := by
  obtain ⟨l, hl, rfl⟩ := openAcceptor_cases ha
  have hprotocol : d.protocol = target.protocol :=
    of_decide_eq_true (Bool.and_eq_true_iff.1 hmatches).2
  rcases listen_cases hl with ⟨hd, i, rfl⟩ | ⟨hd, hub, rfl⟩
  · have htcp : target.bottom.protocol = .tcp := hprotocol.symm.trans hd
    have hconnect : network.connectFrom (.stream i config) target.bottom h' =
        (.error (.invalidDescriptor target.bottom.wire .portNotSet), h') := by
      simp only [network, connectFrom, htcp, if_true]
      exact connect_of_pending (d := target.bottom) hport config h'
    have hne : d.protocol ≠ .udp := by
      rw [show d.protocol = .tcp from hd]
      nofun
    exact iff_of_true ⟨_, _, Network.connectFromAcceptor_of_error hmatches hconnect now⟩ hne
  · have hudp : target.bottom.protocol = .udp := hprotocol.symm.trans hd
    refine iff_of_false ?_ (not_not_intro hd)
    have hshared := connectFrom_shared_ne hub hudp h'
    cases hconnect : network.connectFrom (.shared hub) target.bottom h' with
    | mk r h'' =>
      rw [show connectFrom (.shared hub) target.bottom h' = (r, h'') from hconnect] at hshared
      cases r with
      | ok t =>
        rw [Network.connectFromAcceptor_of_ok hmatches hconnect]
        exact Opening.not_refused_afterSetup (Setup.within_start _ _) h'
      | error e =>
        rw [Network.connectFromAcceptor_of_error hmatches hconnect]
        rintro ⟨text, fault, he⟩
        cases he
        exact hshared text fault rfl

/-- A target without a port is refused by every connection that is opened to it and by every
transport of one's own that looks for the port, before anything is done. An acceptor refuses it if
and only if it does not lend out a shared datagram socket. -/
theorem pending_target_refused {target : Descriptor} (hport : target.isPortPending) :
    (∀ {A T W : Type} (net : Network A T W) now config greeting w,
      net.openConnection now target config greeting w =
        (.failed none (.invalidDescriptor target.wire .portNotFilledIn), w)) ∧
      (∀ config h,
        connect target config h = (.error (.invalidDescriptor target.wire .portNotSet), h)) ∧
      ∀ d config h a now h', (network.openAcceptor d config h).1 = .ok a → d.stackMatches target →
        (Opening.Refused h' (network.connectFromAcceptor now a target h') ↔
          d.protocol ≠ .udp) := by
  refine ⟨?_, connect_of_pending hport, ?_⟩
  · intro A T W net now config greeting w
    rw [Network.openConnection, if_pos hport]
  · intro d config h a now h' ha hmatches
    exact refused_connectFromAcceptor_iff now h' ha hport hmatches

theorem pending_target_refused_stream :
    let target : Descriptor := ⟨[.telnet], ⟨.tcp, none, none⟩⟩
    let x := network.openAcceptor (target.withPort 0) {} (Host.fresh true)
    ∃ a, x.1 = .ok a ∧ target.isPortPending ∧ (target.withPort 0).stackMatches target ∧
      Opening.Refused x.2 (network.connectFromAcceptor 0 a target x.2) ∧
        Opening.Refused x.2 (network.openConnection 0 target {} [] x.2) := by
  intro target x
  have hport : target.isPortPending := rfl
  obtain ⟨hopen, -, haccept⟩ := pending_target_refused hport
  refine ⟨_, rfl, hport, rfl, ?_, _, _, hopen network 0 {} [] x.2⟩
  apply (haccept (target.withPort 0) {} (Host.fresh true) _ 0 x.2 rfl rfl).2
  nofun

/-- The shared socket of an acceptor gets a peer at port zero. -/
theorem pending_target_taken :
    let target : Descriptor := .plain .udp (some "127.0.0.1") none
    let x := network.openAcceptor (target.withPort 0) {} (Host.fresh true)
    ∃ a, x.1 = .ok a ∧ target.isPortPending ∧ (target.withPort 0).stackMatches target ∧
      ¬ Opening.Refused x.2 (network.connectFromAcceptor 0 a target x.2) ∧
        (network.connectFromAcceptor 0 a target x.2).2.hubs.flatMap
          (fun hub => hub.socket.peers.map Peer.address) = [.v4 .localhost 0] := by
  intro target x
  have hx : x.1 = .ok (.new (target.withPort 0) {} (.shared 0)) := rfl
  refine ⟨_, hx, rfl, rfl, ?_, by decide +kernel⟩
  intro hrefused
  exact (refused_connectFromAcceptor_iff 0 x.2 hx rfl rfl).1 hrefused rfl

end Loopback

end Wirebench

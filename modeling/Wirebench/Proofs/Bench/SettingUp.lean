import Wirebench.Proofs.Bench.Openings
import Wirebench.Proofs.Wire.Listening
import Wirebench.Scripted.Replay

namespace Wirebench

variable {A T W : Type} {n k : Nat} {l : Ledger}

namespace StackState

/-- All layers are settled. -/
def isSettled : (n : Nat) → StackState T n → Bool
  | 0, _ => true
  | n + 1, (h : Handle (Telnet.Layer × StackState T n)) =>
    h.inner.1.isSettled && isSettled n h.inner.2

/-- What is read from a stack or written to it. -/
def Step : (n : Nat) → StackState T n × W → StackState T n × W → Prop
  | 0 => Handle.Step fun _ _ => True
  | n + 1 => Handle.Step (Telnet.Layer.Step (Step n))

theorem Step.settled {x y : StackState T n × W} (h : Step n x y) (hx : isSettled n x.1) :
    isSettled n y.1 := by
  induction n with
  | zero => rfl
  | succ n ih =>
    obtain ⟨-, hlayer, hbelow⟩ := h
    obtain ⟨hx, hx'⟩ := Bool.and_eq_true_iff.1 hx
    exact Bool.and_eq_true_iff.2 ⟨hlayer hx, ih hbelow hx'⟩

theorem steps (io : Wire T W) (n : Nat) : (stackWire io n).Steps (Step n) := by
  induction n with
  | zero =>
    have htransport : io.Steps fun _ _ => True :=
      ⟨fun _ => trivial, fun _ _ => trivial, fun _ _ _ => trivial, fun _ _ _ => trivial⟩
    exact htransport.guarded
  | succ n ih => exact ih.layer.guarded

end StackState

def Endpoint.isSettled (e : Endpoint T) : Bool := StackState.isSettled e.layers e.state

/-- A stack on the transport with the number `k` is open and settled through all its layers, and the
account is `l`. -/
structure Firm (k : Nat) (l : Ledger) (s : StackState (T × Nat) n) (w : W × Ledger) : Prop where
  tag : stackTag n s = (true, k)
  settled : StackState.isSettled n s
  ledger : w.2 = l

theorem firm_invariant (io : Wire T W) (k : Nat) (l : Ledger) :
    Setup.Invariant io.numbered fun _ => Firm k l where
  write {m s w} data h := by
    obtain ⟨htag, hledger⟩ := (Setup.intact_invariant io k l).write data ⟨h.tag, h.ledger⟩
    have hstep := (StackState.steps io.numbered m).writeAll data s w
    exact ⟨htag, hstep.settled h.settled, hledger⟩
  settle {m w x} h := by
    obtain ⟨htag, hledger⟩ := (Setup.intact_invariant io k l).settle ⟨h.tag, h.ledger⟩
    obtain ⟨-, hstep⟩ := (StackState.steps io.numbered m).fillUntil Telnet.Layer.isSettled
      ((stackWire io.numbered m).backlog x.2 w + 1) x w
    exact ⟨htag, hstep.settled h.settled, hledger⟩
  addLayer {m w x} hx h := by
    obtain ⟨htag, hledger⟩ := (Setup.intact_invariant io k l).addLayer hx ⟨h.tag, h.ledger⟩
    exact ⟨htag, Bool.and_eq_true_iff.2 ⟨hx, h.settled⟩, hledger⟩

namespace Opening

/-- A connection of `n` layers on the transport with the number `k` has been set up as a whole, or
the transport has been closed once; the account was `l` before. -/
inductive AllOrNothing (n k : Nat) (l : Ledger) : Opening (A × Nat) (T × Nat) × (W × Ledger) → Prop
  | whole (e : Endpoint (T × Nat)) (w : W × Ledger) (hlayers : e.layers = n)
      (hsettled : e.isSettled) (htag : e.tag = (true, k)) (hledger : w.2 = l) :
      AllOrNothing n k l (.opened e, w)
  | nothing (reason : String) (r : Except StreamError Unit) (w : W × Ledger)
      (hledger : w.2 = l.close k r) : AllOrNothing n k l (.failed none (.negotiation reason), w)

/-- How an opening on a transport comes along, if nothing is to be written in the end. -/
inductive ComesAlong (n k : Nat) (l : Ledger) : Opening (A × Nat) (T × Nat) × (W × Ledger) → Prop
  | settingUp (g : Negotiation (T × Nat)) (w : W × Ledger) (hfirm : Firm k l g.state.2 w)
      (hlayers : g.layers + 1 + g.todo.length = n) :
      ComesAlong n k l (.settingUp (.negotiating g) [], w)
  | ended (x : Opening (A × Nat) (T × Nat) × (W × Ledger)) (hover : AllOrNothing n k l x) :
      ComesAlong n k l x

/-- An opening comes to an end after some time, however late it is. -/
def EndsInTime (net : Network A T W) (x : Opening A T × W) : Prop :=
  ∀ now, ∃ times : List Nat, (∀ t ∈ times, now ≤ t) ∧ (pollAll net times x).1.isOver

variable {net : Network A T W} {w : W × Ledger} {o : Opening (A × Nat) (T × Nat)}

theorem AllOrNothing.isOver {x : Opening (A × Nat) (T × Nat) × (W × Ledger)}
    (hx : AllOrNothing n k l x) : x.1.isOver := by
  cases hx <;> rfl

theorem ComesAlong.allOrNothing (ho : ComesAlong n k l (o, w)) (hover : o.isOver) :
    AllOrNothing n k l (o, w) := by
  cases ho with
  | settingUp => cases hover
  | ended _ hx => exact hx

theorem ComesAlong.afterSetup {io : Wire T W} {x : Setup (T × Nat) × (W × Ledger)}
    (hx : Setup.Along io.numbered (fun _ => Firm k l) n x) :
    ComesAlong n k l (Opening.afterSetup io.numbered [] x : Opening (A × Nat) _ × _) := by
  cases hx with
  | negotiating g w hfirm hlayers => exact .settingUp g w hfirm hlayers
  | whole e w hfirm hlayers =>
    rw [Opening.afterSetup, Wire.writeAll]
    exact .ended _ (.whole e w hlayers hfirm.settled hfirm.tag hfirm.ledger)
  | abandoned e reason w hfirm =>
    obtain ⟨r, hledger⟩ := Setup.ledger_abandon io ⟨hfirm.tag, hfirm.ledger⟩ reason
    exact .ended _ (.nothing reason r _ hledger)

theorem ComesAlong.poll {x : Opening (A × Nat) (T × Nat) × (W × Ledger)}
    (hx : ComesAlong n k l x) (now : Nat) :
    ComesAlong n k l (x.1.poll net.numbered now x.2) := by
  cases hx with
  | settingUp g w hfirm hlayers => exact .afterSetup (.poll (firm_invariant _ k l) hfirm hlayers)
  | ended x hover =>
    cases hover with
    | whole e w hlayers hsettled htag hledger =>
      exact .ended _ (.whole e w hlayers hsettled htag hledger)
    | nothing reason r w hledger => exact .ended _ (.nothing reason r w hledger)

theorem ComesAlong.pollAll {x : Opening (A × Nat) (T × Nat) × (W × Ledger)}
    (hx : ComesAlong n k l x) (times : List Nat) :
    ComesAlong n k l (Opening.pollAll net.numbered times x) :=
  pollAll_of_poll (fun now hx => hx.poll now) times hx

theorem load_afterSetup_le (io : Wire T W) {m : Nat} {x : Setup T × W} (hx : x.1.Within m) :
    (afterSetup io [] x : Opening A T × W).1.load ≤ m := by
  obtain ⟨s, w⟩ := x
  cases s with
  | negotiating g => exact hx
  | ended r =>
    cases r with
    | error err => exact Nat.zero_le _
    | ok e =>
      rw [afterSetup, Wire.writeAll]
      exact Nat.zero_le _

/-- Each deadline leaves fewer layers to be settled. -/
theorem ComesAlong.endsInTime {x : Opening (A × Nat) (T × Nat) × (W × Ledger)}
    (hx : ComesAlong n k l x) : EndsInTime net.numbered x := by
  intro now
  induction hload : x.1.load using Nat.strongRecOn generalizing x with
  | _ load ih =>
    subst hload
    cases hx with
    | ended _ hover => exact ⟨[], List.forall_mem_nil _, hover.isOver⟩
    | settingUp g w hfirm hlayers =>
      have hlater : g.deadline ≤ max now g.deadline := Nat.le_max_right _ _
      have hnext : ComesAlong n k l (Opening.poll net.numbered (max now g.deadline)
          (.settingUp (.negotiating g) [] : Opening (A × Nat) _) w) :=
        ComesAlong.poll (.settingUp g w hfirm hlayers) _
      have hless : (Opening.poll net.numbered (max now g.deadline)
          (.settingUp (.negotiating g) [] : Opening (A × Nat) _) w).1.load < g.todo.length + 1 :=
        Nat.lt_succ_of_le (load_afterSetup_le net.numbered.wire (Setup.within_poll hlater))
      obtain ⟨times, htimes, hover⟩ := ih _ hless hnext rfl
      refine ⟨max now g.deadline :: times, ?_, hover⟩
      exact List.forall_mem_cons.2 ⟨Nat.le_max_left _ _, htimes⟩

theorem ComesAlong.connected (io : Wire T W) (now : Nat) (todo : List EndpointConfig) (t : T)
    (v : W) (l : Ledger) : ComesAlong todo.length l.opened l.handOut
      (Opening.afterSetup io.numbered []
        (Setup.start io.numbered now todo (.ofTransport (t, l.opened)) (v, l.handOut)) :
          Opening (A × Nat) _ × _) := by
  have hfirm : Firm l.opened l.handOut (Endpoint.ofTransport (t, l.opened)).state (v, l.handOut) :=
    ⟨rfl, rfl, rfl⟩
  exact .afterSetup (.start (firm_invariant io _ _) todo _ hfirm (Nat.zero_add _))

end Opening

/-- Nothing that has been handed out before is closed, and nothing is let go of. -/
structure Ledger.Spares (l l' : Ledger) : Prop where
  opened : l.opened ≤ l'.opened
  closings : ∀ j < l.opened, l'.closings j = l.closings j
  dropped : l'.dropped = l.dropped

namespace Ledger

theorem Spares.refl (l : Ledger) : l.Spares l := ⟨Nat.le_refl _, fun _ _ => rfl, rfl⟩

theorem Spares.trans {l l' l'' : Ledger} (h : l.Spares l') (h' : l'.Spares l'') : l.Spares l'' where
  opened := Nat.le_trans h.opened h'.opened
  closings j hj := (h'.closings j (Nat.lt_of_lt_of_le hj h.opened)).trans (h.closings j hj)
  dropped := h'.dropped.trans h.dropped

theorem Spares.handOut (l : Ledger) : l.Spares l.handOut := ⟨Nat.le_succ _, fun _ _ => rfl, rfl⟩

theorem Spares.close (l : Ledger) (r : Except StreamError Unit) :
    l.Spares (l.handOut.close l.opened r) where
  opened := Nat.le_succ _
  closings j hj := by
    have hne : l.opened ≠ j := Nat.ne_of_gt hj
    rw [closings_close, if_neg hne]
    rfl
  dropped := rfl

end Ledger

namespace Opening

variable {net : Network A T W}

/-- How an opening that needs a transport first comes along. -/
inductive Obtains (n : Nat) (l : Ledger) : Opening (A × Nat) (T × Nat) × (W × Ledger) → Prop
  | accepting (a : A × Nat) (todo : List EndpointConfig) (w : W × Ledger)
      (hlayers : todo.length = n) (hledger : w.2 = l) : Obtains n l (.accepting a todo, w)
  | refused (e : StreamError) (w : W × Ledger) (hledger : w.2 = l) :
      Obtains n l (.failed none e, w)
  | obtained (x : Opening (A × Nat) (T × Nat) × (W × Ledger))
      (hx : ComesAlong n l.opened l.handOut x) : Obtains n l x

theorem Obtains.poll {x : Opening (A × Nat) (T × Nat) × (W × Ledger)} (hx : Obtains n l x)
    (now : Nat) : Obtains n l (x.1.poll net.numbered now x.2) := by
  cases hx with
  | refused e w hledger => exact .refused e w hledger
  | obtained x hx => exact .obtained _ (hx.poll now)
  | accepting a todo w hlayers hledger =>
    subst hlayers hledger
    simp only [Opening.poll, Network.numbered]
    cases net.accept a.1 w.1 with
    | mk r v =>
      cases r with
      | ok t => exact .obtained _ (.connected net.wire now todo t v w.2)
      | error e => exact .refused e _ rfl
      | waiting => exact .accepting a todo _ rfl rfl
      | stalled => exact .accepting a todo _ rfl rfl

theorem Obtains.pollAll {x : Opening (A × Nat) (T × Nat) × (W × Ledger)} (hx : Obtains n l x)
    (times : List Nat) : Obtains n l (Opening.pollAll net.numbered times x) :=
  pollAll_of_poll (fun now hx => hx.poll now) times hx

theorem Obtains.comesAlong {x : Opening (A × Nat) (T × Nat) × (W × Ledger)} (hx : Obtains n l x)
    (hopened : l.opened < x.2.2.opened) : ComesAlong n l.opened l.handOut x := by
  cases hx with
  | accepting a todo w hlayers hledger =>
    subst hledger
    exact absurd hopened (Nat.lt_irrefl _)
  | refused e w hledger =>
    subst hledger
    exact absurd hopened (Nat.lt_irrefl _)
  | obtained x hx => exact hx

theorem Obtains.spares {x : Opening (A × Nat) (T × Nat) × (W × Ledger)} (hx : Obtains n l x) :
    l.Spares x.2.2 := by
  cases hx with
  | accepting a todo w hlayers hledger => exact hledger ▸ .refl l
  | refused e w hledger => exact hledger ▸ .refl l
  | obtained x hx =>
    cases hx with
    | ended x hover =>
      cases hover with
      | whole e w hlayers hsettled htag hledger => exact hledger ▸ .handOut l
      | nothing reason r w hledger => exact hledger ▸ .close l r
    | settingUp g w hfirm hlayers => exact hfirm.ledger ▸ .handOut l

end Opening

theorem Acceptor.length_route {a : Acceptor A} {listener : A} {todo : List EndpointConfig}
    (h : a.route = .ok (listener, todo)) : todo.length = a.layers := by
  induction a generalizing todo with
  | transport d l o =>
    rw [route] at h
    split at h <;> cases h
    rfl
  | telnet d c inner o ih =>
    rw [route] at h
    split at h
    · cases hr : inner.route with
      | error e =>
        rw [hr] at h
        cases h
      | ok r =>
        rw [hr] at h
        cases h
        rw [List.length_append, ih hr]
        rfl
    · cases h

namespace Network

open Opening (Obtains)

variable {net : Network A T W} {w : W × Ledger}

theorem obtains_acceptFrom (a : Acceptor (A × Nat)) (w : W × Ledger) :
    Obtains a.layers w.2 ((acceptFrom a : Opening _ (T × Nat)), w) := by
  rw [acceptFrom]
  cases hr : a.route with
  | error e => exact .refused e w rfl
  | ok route => exact .accepting _ _ w (Acceptor.length_route hr) rfl

theorem obtains_connectFrom (net : Network A T W) (now : Nat) (a : Acceptor (A × Nat))
    (target : Descriptor) (w : W × Ledger) :
    ∃ n, Obtains n w.2 (net.numbered.connectFromAcceptor now a target w) := by
  rw [connectFromAcceptor]
  cases a.dial target with
  | error e => exact ⟨0, .refused e w rfl⟩
  | ok route =>
    obtain ⟨listener, lower, todo⟩ := route
    simp only [numbered]
    cases net.connectFrom listener.1 lower w.1 with
    | mk r v =>
      cases r with
      | ok t => exact ⟨_, .obtained _ (.connected net.wire now todo t v w.2)⟩
      | error e => exact ⟨0, .refused e _ rfl⟩

/-- Short of closing it, using an acceptor changes neither the acceptor nor any connection that
there has been before. -/
theorem spares_use (net : Network A T W) {u : Acceptor.Use} (hu : u.isClose = false)
    (a : Acceptor (A × Nat)) (w : W × Ledger) : (net.numbered.use u (a, w)).2.1 = a ∧
      w.2.Spares (net.numbered.use u (a, w)).2.2.2 := by
  cases u with
  | accept times =>
    have hstart := obtains_acceptFrom (T := T) a w
    exact ⟨rfl, (hstart.pollAll times).spares⟩
  | connectFrom target now times =>
    obtain ⟨n, hstart⟩ := obtains_connectFrom net now a target w
    exact ⟨rfl, (hstart.pollAll times).spares⟩
  | control r => exact ⟨rfl, .refl _⟩
  | close => cases hu

theorem spares_useAll (net : Network A T W) {us : List Acceptor.Use}
    (hus : us.any Acceptor.Use.isClose = false) (a : Acceptor (A × Nat)) (w : W × Ledger) :
    (useAll net.numbered.use us (a, w)).2.1 = a ∧
      w.2.Spares (useAll net.numbered.use us (a, w)).2.2.2 := by
  induction us generalizing w with
  | nil => exact ⟨rfl, .refl _⟩
  | cons u us ih =>
    obtain ⟨hu, hus⟩ := Bool.or_eq_false_iff.1 hus
    obtain ⟨ha, hfirst⟩ := spares_use net hu a w
    have hnext : net.numbered.use u (a, w) =
        ((net.numbered.use u (a, w)).1, a, (net.numbered.use u (a, w)).2.2) :=
      Prod.ext rfl (Prod.ext ha rfl)
    rw [useAll_cons, hnext]
    obtain ⟨ha', hrest⟩ := ih hus (net.numbered.use u (a, w)).2.2
    exact ⟨ha', hfirst.trans hrest⟩

/-- Setting up a stack is all or nothing. Once a connection has a transport it comes to an end in
time, and then either all its layers are there, settled and open, and the transport has not been
closed, or the negotiation has failed and the transport has been closed once, whatever came of that.
The same holds for connections that are accepted, however the acceptor has been used before. Unless
it has been closed it is as it was, and so are the connections that there have been before. -/
theorem setup_allOrNothing (net : Network A T W) (d : Descriptor) (config : EndpointConfig)
    (w : W × Ledger) :
    (∀ now t v times, d.isPortPending = false → net.connect d.bottom config w.1 = (.ok t, v) →
      let x := Opening.pollAll net.numbered times (net.numbered.openConnection now d config [] w)
      Opening.EndsInTime net.numbered x ∧
        (x.1.isOver → Opening.AllOrNothing d.filters.length w.2.opened w.2.handOut x)) ∧
      ∀ a us times, us.any Acceptor.Use.isClose = false →
        let y := useAll net.numbered.use us (a, w)
        let x := Opening.pollAll net.numbered times (acceptFrom a, y.2.2)
        y.2.1 = a ∧ w.2.Spares y.2.2.2 ∧ y.2.2.2.Spares x.2.2 ∧
          (y.2.2.2.opened < x.2.2.opened → Opening.EndsInTime net.numbered x ∧
            (x.1.isOver →
              Opening.AllOrNothing a.layers y.2.2.2.opened y.2.2.2.handOut x)) := by
  constructor
  · intro now t v times hport hconnect x
    have hopen : net.numbered.openConnection now d config [] w =
        Opening.afterSetup net.wire.numbered [] (Setup.start net.wire.numbered now
          (List.replicate d.filters.length config) (.ofTransport (t, w.2.opened))
            (v, w.2.handOut)) := by
      rw [openConnection, hport]
      simp only [numbered, hconnect, Bool.false_eq_true, if_false]
      rfl
    have hx : Opening.ComesAlong d.filters.length w.2.opened w.2.handOut x := by
      have hstart := Opening.ComesAlong.connected (A := A) net.wire now
        (List.replicate d.filters.length config) t v w.2
      rw [← hopen, List.length_replicate] at hstart
      exact hstart.pollAll times
    exact ⟨hx.endsInTime, hx.allOrNothing⟩
  · intro a us times hus y x
    obtain ⟨ha, hbefore⟩ := spares_useAll net hus a w
    have hx : Obtains a.layers y.2.2.2 x := (obtains_acceptFrom a _).pollAll times
    refine ⟨ha, hbefore, hx.spares, ?_⟩
    intro hopened
    have hx := hx.comesAlong hopened
    exact ⟨hx.endsInTime, hx.allOrNothing⟩

end Network

namespace Scripted.Replay

/-- A remote end that says nothing, and a connection to it that cannot be closed well. -/
def silent : Replay where
  device := { closeError := some .remoteClosed }
  reads := []
  urgent := none
  hold := true

def silentStage : Stage × Ledger :=
  ({ incoming := [.ok silent, .ok silent], outgoing := [.ok silent] }, {})

def agreement : List UInt8 := [255, 251, 0, 255, 253, 0, 255, 251, 3, 255, 253, 3]

/-- A remote end that agrees to what both of two layers offer. -/
def agreeing : Replay where
  device := {}
  reads := [.data agreement, .data (Telnet.escape agreement)]
  urgent := none
  hold := true

def agreeingStage : Stage × Ledger := ({ incoming := [], outgoing := [.ok agreeing] }, {})

/-- The inner of two layers gives up, on a connection that is opened and on a second one that is
accepted. With a remote end that answers both layers are set up. -/
theorem setup_allOrNothing_silent :
    let net := network.numbered
    let late := EndpointConfig.connectTimeout {} |>.toNanoseconds
    let d : Descriptor := ⟨[.telnet, .telnet], ⟨.tcp, none, some 23⟩⟩
    let a := Acceptor.new d {} (d.bottom, 0)
    let y := useAll net.use [.accept [0, late]] (a, silentStage)
    let x := Opening.pollAll net [late] (net.openConnection 0 d {} [] silentStage)
    let x' := Opening.pollAll net [0, late] (Network.acceptFrom a, y.2.2)
    let z := Opening.pollAll net [late] (net.openConnection 0 d {} [] agreeingStage)
    (x.1.isOver ∧ Opening.AllOrNothing 2 0 { opened := 1 } x) ∧
      y.2.2.2.closings 0 = 1 ∧ x'.1.isOver ∧ Opening.AllOrNothing 2 1 y.2.2.2.handOut x' ∧
        z.1.endpoint?.isSome ∧ Opening.AllOrNothing 2 0 { opened := 1 } z := by
  intro net late d a y x x' z
  have hover : x.1.isOver := by decide +kernel
  have hover' : x'.1.isOver := by decide +kernel
  have hopened : y.2.2.2.opened < x'.2.2.opened := by decide +kernel
  obtain ⟨hconnect, haccept⟩ := Network.setup_allOrNothing network d {} silentStage
  obtain ⟨-, hx⟩ := hconnect 0 silent _ [late] rfl rfl
  obtain ⟨-, -, -, hx'⟩ := haccept a [.accept [0, late]] [0, late] rfl
  have hall : Opening.AllOrNothing 2 y.2.2.2.opened y.2.2.2.handOut x' := (hx' hopened).2 hover'
  have hsecond : y.2.2.2.opened = 1 := by decide +kernel
  rw [hsecond] at hall
  obtain ⟨hagreed, -⟩ := Network.setup_allOrNothing network d {} agreeingStage
  obtain ⟨-, hz⟩ := hagreed 0 agreeing _ [late] rfl rfl
  exact ⟨⟨hover, hx hover⟩, by decide +kernel, hover', hall, by decide +kernel,
    hz (by decide +kernel)⟩

end Scripted.Replay

end Wirebench

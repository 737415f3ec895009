import Wirebench.Bench.Context
import Wirebench.Proofs.Bench.Ledger
import Wirebench.Proofs.Wire.Setups

namespace Wirebench

variable {A T W : Type} {l : Ledger} {k : Nat}

namespace Setup

/-- The numbers of the transports that a setup holds. -/
def held : Setup (T × Nat) → List Nat
  | negotiating n => [(stackTag n.layers n.state.2).2]
  | ended (.ok e) => [e.tag.2]
  | ended (.error _) => []

/-- What has been put up so far is open. -/
def isWhole : Setup (T × Nat) → Bool
  | negotiating n => (stackTag n.layers n.state.2).1
  | ended (.ok e) => e.tag.1
  | ended (.error _) => true

/-- A setup comes to `x`, and accounts for the handles that it has held. -/
def Accounts (held : List Nat) (l : Ledger) (x : Setup (T × Nat) × (W × Ledger)) : Prop :=
  x.1.isWhole = true ∧ Ledger.Goes held l x.1.held x.2.2

variable {io : Wire T W} {now : Nat}

/-- A stack on the transport with the number `k` is open, and the account is `l`. -/
def Intact (k : Nat) (l : Ledger) (n : Nat) (s : StackState (T × Nat) n) (w : W × Ledger) : Prop :=
  stackTag n s = (true, k) ∧ w.2 = l

theorem intact_invariant (io : Wire T W) (k : Nat) (l : Ledger) :
    Invariant io.numbered (Intact k l) where
  write {m s w} data h := by
    obtain ⟨htag, hledger⟩ := (io.keeps_stack m).writeAll data s w
    exact ⟨htag.trans h.1, hledger.trans h.2⟩
  settle {m w x} h := by
    obtain ⟨htag, hledger⟩ := (io.keeps_stack m).fillUntil Telnet.Layer.isSettled
      ((stackWire io.numbered m).backlog x.2 w + 1) x w
    exact ⟨htag.trans h.1, hledger.trans h.2⟩
  addLayer {m w x} _ h := by
    have htag : (Endpoint.addLayer m x).tag = (true, k) := by
      rw [Endpoint.tag, Endpoint.addLayer, stackTag, Handle.tag, h.1]
      rfl
    exact ⟨htag, h.2⟩

theorem ledger_abandon (io : Wire T W) {e : Endpoint (T × Nat)} {w : W × Ledger}
    (he : Intact k l e.layers e.state w) (reason : String) :
    ∃ r, (abandon io.numbered e reason w).2.2 = l.close k r := by
  obtain ⟨htag, hw⟩ : e.tag = (true, k) ∧ w.2 = l := he
  obtain ⟨hnumber, hclose⟩ := (Endpoint.keeps io).close e w (congrArg Prod.fst htag)
  have hdrop := (Endpoint.keeps io).discard ((Endpoint.wire io.numbered).close e w).2.1
    ((Endpoint.wire io.numbered).close e w).2.2
  rw [hnumber, hclose, Ledger.drop_close, htag, hw] at hdrop
  exact ⟨_, hdrop⟩

theorem Along.accounts {n : Nat} {x : Setup (T × Nat) × (W × Ledger)}
    (hx : Along io.numbered (Intact k l) n x) : Accounts [k] l x := by
  cases hx with
  | negotiating g w hstack hlayers =>
    obtain ⟨htag, rfl⟩ := hstack
    refine ⟨congrArg Prod.fst htag, ?_⟩
    simp only [held, htag]
    exact .refl _ _
  | whole e w hstack hlayers =>
    obtain ⟨htag, rfl⟩ : e.tag = (true, k) ∧ w.2 = l := hstack
    refine ⟨congrArg Prod.fst htag, ?_⟩
    simp only [held, htag]
    exact .refl _ _
  | abandoned e reason w hstack =>
    obtain ⟨r, hledger⟩ := ledger_abandon io hstack reason
    refine ⟨rfl, ?_⟩
    rw [hledger]
    exact .close

theorem accounts_start (todo : List EndpointConfig) (e : Endpoint (T × Nat)) (w : W × Ledger)
    (he : e.tag = (true, k)) (hw : w.2 = l) :
    Accounts [k] l (start io.numbered now todo e w) :=
  have hstart : Along io.numbered (Intact k l) _ (start io.numbered now todo e w) :=
    .start (intact_invariant io k l) todo e ⟨he, hw⟩ rfl
  hstart.accounts

theorem accounts_poll {s : Setup (T × Nat)} (hs : s.isWhole = true) (w : W × Ledger) :
    Accounts s.held w.2 (s.poll io.numbered now w) := by
  cases s with
  | ended r => exact ⟨hs, .refl _ _⟩
  | negotiating n =>
    have hn : Intact (stackTag n.layers n.state.2).2 w.2 n.layers n.state.2 w :=
      ⟨Prod.ext hs rfl, rfl⟩
    exact (Along.poll (intact_invariant io _ _) hn rfl).accounts

end Setup

namespace Opening

def held : Opening (A × Nat) (T × Nat) → List Nat
  | settingUp s _ => s.held
  | stuck e | opened e | failed (some e) _ => [e.tag.2]
  | accepting .. | failed none _ => []

def isWhole : Opening (A × Nat) (T × Nat) → Bool
  | settingUp s _ => s.isWhole
  | stuck e | opened e | failed (some e) _ => e.tag.1
  | accepting .. | failed none _ => true

/-- An opening comes to `x`, and accounts for the handles that it has held. -/
def Accounts (held : List Nat) (l : Ledger)
    (x : Opening (A × Nat) (T × Nat) × (W × Ledger)) : Prop :=
  x.1.isWhole = true ∧ Ledger.Goes held l x.1.held x.2.2

variable {io : Wire T W} {net : Network A T W} {w : W × Ledger} {o : Opening (A × Nat) (T × Nat)}
  {held : List Nat}

theorem accounts_afterSetup (greeting : List UInt8) {x : Setup (T × Nat) × (W × Ledger)}
    (hx : Setup.Accounts held l x) :
    Accounts held l (afterSetup io.numbered greeting x : Opening (A × Nat) _ × _) := by
  obtain ⟨s, w⟩ := x
  obtain ⟨hwhole, hgoes⟩ := hx
  cases s with
  | negotiating n => exact ⟨hwhole, hgoes⟩
  | ended r =>
    cases r with
    | error err => exact ⟨rfl, hgoes⟩
    | ok e =>
      obtain ⟨htag, hledger⟩ := (Endpoint.keeps io).writeAll greeting e w
      rw [afterSetup]
      cases hr : (Endpoint.wire io.numbered).writeAll greeting e w with
      | mk r rest =>
        obtain ⟨e', w'⟩ := rest
        rw [hr] at htag hledger
        have hnumber : Ledger.Goes held l [e'.tag.2] w'.2 := by
          rw [htag, hledger]
          exact hgoes
        have hopen : e'.tag.1 = true := (congrArg Prod.fst htag).trans hwhole
        cases r <;> exact ⟨hopen, hnumber⟩

theorem accounts_connected (now : Nat) (greeting : List UInt8) (todo : List EndpointConfig) (t : T)
    (v : W) (l : Ledger) :
    Accounts [] l (afterSetup io.numbered greeting
      (Setup.start io.numbered now todo (.ofTransport (t, l.opened)) (v, l.handOut)) :
        Opening (A × Nat) _ × _) := by
  have hsetup : Setup.Accounts [l.opened] l.handOut
      (Setup.start io.numbered now todo (.ofTransport (t, l.opened)) (v, l.handOut)) :=
    Setup.accounts_start todo _ _ rfl rfl
  obtain ⟨hwhole, hgoes⟩ : Accounts _ _ (afterSetup _ greeting _ : Opening (A × Nat) _ × _) :=
    accounts_afterSetup greeting hsetup
  exact ⟨hwhole, Ledger.Goes.handOut.trans hgoes⟩

theorem accounts_poll (net : Network A T W) (now : Nat) (ho : o.isWhole = true) (w : W × Ledger) :
    Accounts o.held w.2 (o.poll net.numbered now w) := by
  cases o with
  | accepting a todo =>
    simp only [poll, Network.numbered]
    cases net.accept a.1 w.1 with
    | mk r v =>
      cases r with
      | ok t => exact accounts_connected now [] todo t v w.2
      | error e => exact ⟨rfl, .refl _ _⟩
      | waiting => exact ⟨rfl, .refl _ _⟩
      | stalled => exact ⟨rfl, .refl _ _⟩
  | settingUp s greeting => exact accounts_afterSetup greeting (Setup.accounts_poll ho w)
  | stuck e => exact ⟨ho, .refl _ _⟩
  | opened e => exact ⟨ho, .refl _ _⟩
  | failed e f => exact ⟨ho, .refl _ _⟩

/-- Whether the endpoint that has come out of an opening is open, and its number. -/
def tags (o : Opening (A × Nat) (T × Nat)) : List (Bool × Nat) :=
  (o.endpoint?.map Endpoint.tag).toList

theorem tags_open (ho : o.isWhole = true) : ∀ t ∈ o.tags, t.1 = true := by
  intro t ht
  cases o with
  | accepting => cases ht
  | settingUp => cases ht
  | stuck e => rwa [List.mem_singleton.1 ht]
  | opened e => rwa [List.mem_singleton.1 ht]
  | failed e f =>
    cases e with
    | none => cases ht
    | some e => rwa [List.mem_singleton.1 ht]

theorem goes_discard (net : Network A T W) (o : Opening (A × Nat) (T × Nat)) (w : W × Ledger) :
    Ledger.Goes o.held w.2 (o.tags.map Prod.snd) (o.discard net.numbered w).2 := by
  cases o with
  | accepting a todo => exact .refl _ _
  | stuck e => exact .refl _ _
  | opened e => exact .refl _ _
  | failed e f => cases e <;> exact .refl _ _
  | settingUp s greeting =>
    cases s with
    | negotiating n =>
      have hdrop := (Endpoint.keeps net.wire).discard ⟨n.layers, n.state.2⟩ w
      have hgoes := Ledger.Goes.drop (l := w.2) (k := (stackTag n.layers n.state.2).2)
      exact hdrop ▸ hgoes
    | ended r =>
      cases r with
      | error => exact .refl _ _
      | ok e =>
        have hdrop := (Endpoint.keeps net.wire).discard e w
        have hgoes := Ledger.Goes.drop (l := w.2) (k := e.tag.2)
        exact hdrop ▸ hgoes

/-- Two openings come to `x`, and account for the handles that they have held. -/
structure BothAccount (held : List Nat) (l : Ledger) (a b : Opening (A × Nat) (T × Nat))
    (w : W × Ledger) : Prop where
  first : a.isWhole = true
  second : b.isWhole = true
  goes : Ledger.Goes held l (a.held ++ b.held) w.2

variable {a b : Opening (A × Nat) (T × Nat)}

theorem BothAccount.poll_first (net : Network A T W) (now : Nat) (h : BothAccount held l a b w) :
    BothAccount held l (a.poll net.numbered now w).1 b (a.poll net.numbered now w).2 := by
  obtain ⟨hwhole, hgoes⟩ := accounts_poll net now h.first w
  exact ⟨hwhole, h.second, h.goes.trans (hgoes.right b.held)⟩

theorem BothAccount.poll_second (net : Network A T W) (now : Nat) (h : BothAccount held l a b w) :
    BothAccount held l a (b.poll net.numbered now w).1 (b.poll net.numbered now w).2 := by
  obtain ⟨hwhole, hgoes⟩ := accounts_poll net now h.second w
  exact ⟨h.first, hwhole, h.goes.trans (hgoes.left a.held)⟩

theorem BothAccount.rounds (net : Network A T W) (strict : Bool) (now n : Nat)
    (h : BothAccount held l a b w) :
    let r := Opening.rounds net.numbered strict now n a b w
    BothAccount held l r.1 r.2.1 r.2.2 := by
  induction n generalizing a b w with
  | zero => exact h
  | succ n ih =>
    rw [Opening.rounds]
    split
    · exact h
    · have hfirst := h.poll_first net now
      simp only
      split
      · exact hfirst
      · exact ih (hfirst.poll_second net now)

theorem BothAccount.awaitBothFrom (net : Network A T W) (strict : Bool) (limit jumps now : Nat)
    (h : BothAccount held l a b w) :
    let r := Opening.awaitBothFrom net.numbered strict limit jumps now a b w
    BothAccount held l r.1 r.2.1 r.2.2.1 := by
  induction jumps generalizing now a b w with
  | zero => exact h
  | succ jumps ih =>
    have hrounds := h.rounds net strict now (roundsFor a b)
    rw [Opening.awaitBothFrom]
    simp only
    split
    · exact hrounds
    · split
      · exact hrounds
      · split
        · exact ih _ hrounds
        · exact hrounds

theorem BothAccount.awaitBoth (net : Network A T W) (strict : Bool) (limit now : Nat)
    (h : BothAccount held l a b w) :
    let r := Opening.awaitBoth net.numbered strict limit now a b w
    BothAccount held l r.1 r.2.1 r.2.2.1 :=
  h.awaitBothFrom net strict limit _ now

end Opening

namespace Network

open Opening (Accounts)

variable {net : Network A T W} {w : W × Ledger}

theorem accounts_openConnection (now : Nat) (d : Descriptor) (config : EndpointConfig)
    (greeting : List UInt8) (w : W × Ledger) :
    Accounts [] w.2 (net.numbered.openConnection now d config greeting w) := by
  rw [openConnection]
  split
  · exact ⟨rfl, .refl _ _⟩
  · simp only [numbered]
    cases net.connect d.bottom config w.1 with
    | mk r v =>
      cases r with
      | ok t => exact Opening.accounts_connected now greeting _ t v w.2
      | error => exact ⟨rfl, .refl _ _⟩

theorem accounts_connectFromAcceptor (now : Nat) (a : Acceptor (A × Nat)) (target : Descriptor)
    (w : W × Ledger) : Accounts [] w.2 (net.numbered.connectFromAcceptor now a target w) := by
  rw [connectFromAcceptor]
  cases a.dial target with
  | error => exact ⟨rfl, .refl _ _⟩
  | ok route =>
    obtain ⟨listener, lower, todo⟩ := route
    simp only [numbered]
    cases net.connectFrom listener.1 lower w.1 with
    | mk r v =>
      cases r with
      | ok t => exact Opening.accounts_connected now [] todo t v w.2
      | error => exact ⟨rfl, .refl _ _⟩

theorem held_acceptFrom (a : Acceptor (A × Nat)) :
    (acceptFrom a : Opening (A × Nat) (T × Nat)).isWhole = true ∧
      (acceptFrom a : Opening (A × Nat) (T × Nat)).held = [] := by
  rw [acceptFrom]
  cases a.route with
  | error => exact ⟨rfl, rfl⟩
  | ok route => exact ⟨rfl, rfl⟩

end Network

theorem Bench.Context.accounts_openConnection {net : Network A T W} (c : Context) (now : Nat)
    (d : Descriptor) (greeting : List UInt8) (w : W × Ledger) :
    Opening.Accounts [] w.2 (c.openConnection net.numbered now d greeting w) := by
  rw [openConnection]
  cases c.ensureActive with
  | error => exact ⟨rfl, .refl _ _⟩
  | ok => exact Network.accounts_openConnection now d c.config.endpoint greeting w

end Wirebench

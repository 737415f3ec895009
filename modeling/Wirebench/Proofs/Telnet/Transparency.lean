import Wirebench.Proofs.Scripted.Pipe
import Wirebench.Proofs.Telnet.Setup

namespace Wirebench

open Scripted (Side)
open Telnet

variable {T W : Type} {lines : Lines W} {side : Side} {sideOf : T → Side} {io : Wire T W} {m : Nat}

def Outcome.taken : Outcome Nat → Nat
  | ok n => n
  | error _ | waiting | stalled => 0

/-- One side of a connection: its stack on the way, and what its user has done with it. -/
structure Party (T : Type) where
  /-- The layers to put on a transport, or what has come of that. -/
  stage : (List EndpointConfig × T) ⊕ Setup T
  /-- What has been read. -/
  handed : List UInt8 := []
  /-- What has been written. -/
  written : List UInt8 := []
  /-- The breaks that have been sent. -/
  breaks : Nat := 0

inductive Action
  /-- Go on with the setup at a given time. -/
  | proceed (now : Nat)
  | read (n : Nat)
  | write (data : List UInt8)
  | control (request : ControlRequest)
  deriving DecidableEq, Repr

namespace Endpoint

theorem read_addLayer (k : Nat) (x : Layer × StackState T m) (w : W) :
    (wire io).read k (addLayer m x) w =
      let r := (layerWire (stackWire io m)).read k x w
      (r.1, addLayer m r.2.1, r.2.2) := rfl

theorem write_addLayer (data : List UInt8) (x : Layer × StackState T m) (w : W) :
    (wire io).write data (addLayer m x) w =
      let r := (layerWire (stackWire io m)).write data x w
      (r.1, addLayer m r.2.1, r.2.2) := rfl

theorem control_addLayer (request : ControlRequest) (x : Layer × StackState T m) (w : W) :
    (wire io).control request (addLayer m x) w =
      let r := (layerWire (stackWire io m)).control request x w
      (r.1, addLayer m r.2.1, r.2.2) := rfl

end Endpoint

namespace Telnet.Negotiations

variable {ms : List Message}

theorem written_eq (h : Negotiations ms) (written : List UInt8) :
    written = written ++ Telnet.payload ms := by
  rw [h.payload, List.append_nil]

theorem breaks_eq (h : Negotiations ms) (breaks : Nat) :
    breaks = breaks + Telnet.breakCount ms := by
  rw [h.breakCount, Nat.add_zero]

end Telnet.Negotiations

namespace Party

def endpoint? (p : Party T) : Option (Endpoint T) :=
  match p.stage with
  | .inr (.ended (.ok e)) => some e
  | .inr (.ended (.error _)) | .inr (.negotiating _) | .inl _ => none

/-- The setup has failed or has taken too long. -/
def isGone (p : Party T) : Bool :=
  match p.stage with
  | .inr s => s.isGivenUp
  | .inl _ => false

/-- The side and the layers of a party, outermost first, as long as all of it is open. -/
def view (sideOf : T → Side) (p : Party T) : Option (Side × List Layer) :=
  match p.stage with
  | .inl (_, t) => some (sideOf t, [])
  | .inr s => s.view sideOf

def missing (p : Party T) : Nat :=
  match p.stage with
  | .inl (configs, _) => configs.length
  | .inr s => s.missing

def withEndpoint (p : Party T) (e : Endpoint T) : Party T :=
  { p with stage := .inr (.ended (.ok e)) }

def proceed (io : Wire T W) (now : Nat) (p : Party T) (w : W) : Setup T × W :=
  match p.stage with
  | .inl (configs, t) => Setup.start io now configs (.ofTransport t) w
  | .inr s => s.poll io now w

/-- Do something. Only the setup can be gone on with as long as there is no endpoint. -/
def act (io : Wire T W) (a : Action) (p : Party T) (w : W) : Party T × W :=
  match a, p.endpoint? with
  | .proceed now, _ =>
    let (s, w) := p.proceed io now w
    ({ p with stage := .inr s }, w)
  | .read n, some e =>
    let (r, e, w) := (Endpoint.wire io).read n e w
    ({ p.withEndpoint e with handed := p.handed ++ r.gained }, w)
  | .write data, some e =>
    let (r, e, w) := (Endpoint.wire io).write data e w
    ({ p.withEndpoint e with written := p.written ++ data.take r.taken }, w)
  | .control request, some e =>
    let (r, e, w) := (Endpoint.wire io).control request e w
    ({ p.withEndpoint e with
      breaks := p.breaks + if request.isBreak ∧ r = .ok "" then 1 else 0 }, w)
  | .read _, none | .write _, none | .control _, none => (p, w)

/-- A party with its layers, of which there are `m + 1` in the end. -/
structure Stands (sideOf : T → Side) (m : Nat) (side : Side) (ls : List Layer) (p : Party T) :
    Prop where
  view : p.view sideOf = some (side, ls)
  size : p.missing + ls.length = m + 1
  silent : p.endpoint? = none → p.handed = []

/-- A party gets on: its outermost layer sends what its user wrote and negotiations, and its layers
follow what they take in. -/
def Advances (lines : Lines W) (sideOf : T → Side) (m : Nat) (side : Side) (ls : List Layer)
    (x y : Party T × W) : Prop :=
  ∃ ls' took put ms, y.1.Stands sideOf m side ls' ∧ lines.Moved side took put x.2 y.2 ∧
    Says m put ms ∧ y.1.written = x.1.written ++ payload ms ∧
      y.1.breaks = x.1.breaks + breakCount ms ∧
        ∀ taken, Follows ls taken x.1.handed → Follows ls' (taken ++ took) y.1.handed

theorem Advances.refl {p : Party T} {w : W} {ls : List Layer} (h : p.Stands sideOf m side ls)
    (hw : lines.intact w) : Advances lines sideOf m side ls (p, w) (p, w) := by
  have hfollows (taken : List UInt8) (hf : Follows ls taken p.handed) :
      Follows ls (taken ++ []) p.handed := by
    rwa [List.append_nil]
  exact ⟨ls, [], [], [], h, .refl side hw, .nil m, (List.append_nil _).symm, rfl, hfollows⟩

theorem endpoint?_eq_some {p : Party T} {e : Endpoint T} (h : p.endpoint? = some e) :
    p.stage = .inr (.ended (.ok e)) := by
  obtain ⟨stage, handed, written, breaks⟩ := p
  cases stage with
  | inl => cases h
  | inr s =>
    cases s with
    | negotiating => cases h
    | ended r =>
      cases r with
      | error => cases h
      | ok => cases h; rfl

theorem Stands.endpoint {p : Party T} {e : Endpoint T} {ls : List Layer}
    (h : p.Stands sideOf m side ls) (he : p.endpoint? = some e) :
    ∃ l s ls', e = Endpoint.addLayer m (l, s) ∧ stackView sideOf m s = some (side, ls') ∧
      ls = l :: ls' := by
  have hst := endpoint?_eq_some he
  obtain ⟨layers, state⟩ := e
  have hv := h.view
  rw [Party.view, hst] at hv
  have hsize := h.size
  rw [Party.missing, hst] at hsize
  have hlen : ls.length = layers := stackView_length hv
  have hlayers : layers = m + 1 := by
    simp only [Setup.missing] at hsize
    omega
  subst hlayers
  obtain ⟨l, s, ls', rfl, hs, rfl⟩ := layerView_eq_some hv
  exact ⟨l, s, ls', rfl, hs, rfl⟩

theorem stands_addLayer {p : Party T} {l : Layer} {s : StackState T m} {ls : List Layer}
    (hv : stackView sideOf m s = some (side, ls)) :
    (p.withEndpoint (.addLayer m (l, s))).Stands sideOf m side (l :: ls) where
  view := layerView_open hv
  size := by
    rw [List.length_cons, stackView_length hv]
    exact Nat.zero_add _
  silent := by
    intro he
    cases he

theorem Stands.proceed (hio : Lossless lines sideOf io) {p : Party T} {ls : List Layer} {w : W}
    (h : p.Stands sideOf m side ls) (hw : lines.intact w) (now : Nat) :
    Setup.Reaches lines sideOf m side ls w (p.proceed io now w) := by
  obtain ⟨stage, handed, written, breaks⟩ := p
  have hv := h.view
  have hsize := h.size
  cases stage with
  | inl x =>
    obtain ⟨configs, t⟩ := x
    cases hv
    exact .start hio now configs (by rwa [Nat.add_comm]) rfl hw
  | inr s => exact .poll hio now hsize hv hw

theorem act_proceed_of_endpoint {p : Party T} {e : Endpoint T} (he : p.endpoint? = some e)
    (now : Nat) (w : W) : p.act io (.proceed now) w = (p, w) := by
  have hst := endpoint?_eq_some he
  obtain ⟨stage, handed, written, breaks⟩ := p
  subst hst
  rfl

theorem Stands.act_proceed (hio : Lossless lines sideOf io) {p : Party T} {ls : List Layer} {w : W}
    (h : p.Stands sideOf m side ls) (hw : lines.intact w) (now : Nat)
    (hgone : (p.act io (.proceed now) w).1.isGone = false) :
    Advances lines sideOf m side ls (p, w) (p.act io (.proceed now) w) := by
  cases he : p.endpoint? with
  | some e =>
    rw [act_proceed_of_endpoint he]
    exact .refl h hw
  | none =>
    obtain ⟨ls', took, put, ms, hv, hsize, hm, hs, hn, hf⟩ := h.proceed hio hw now hgone
    have hhanded := h.silent he
    have hfollows (taken : List UInt8) (ht : Follows ls taken p.handed) :
        Follows ls' (taken ++ took) p.handed := by
      rw [hhanded] at ht ⊢
      exact hf taken ht
    exact ⟨ls', took, put, ms, ⟨hv, hsize, fun _ => hhanded⟩, hm, hs, hn.written_eq p.written,
      hn.breaks_eq p.breaks, hfollows⟩

theorem Stands.act_read (hio : Lossless lines sideOf io) {p : Party T} {e : Endpoint T}
    {ls : List Layer} {w : W} (h : p.Stands sideOf m side ls) (he : p.endpoint? = some e)
    (hw : lines.intact w) (k : Nat) :
    Advances lines sideOf m side ls (p, w) (p.act io (.read k) w) := by
  obtain ⟨l, s, ls, rfl, hv, rfl⟩ := h.endpoint he
  cases hr : (layerWire (stackWire io m)).read k (l, s) w with
  | mk r rest =>
    obtain ⟨⟨l', s'⟩, w'⟩ := rest
    obtain ⟨ls', took, put, ms, hv', hm, hs, hn, hp⟩ := (hio.stack m).layer_read hr side ls hv hw
    simp only [act, he, Endpoint.read_addLayer, hr]
    obtain ⟨hview, hsize, -⟩ := stands_addLayer (p := p) (l := l') hv'
    exact ⟨l' :: ls', took, put, ms, ⟨hview, hsize, nofun⟩, hm, hs, hn.written_eq p.written,
      hn.breaks_eq p.breaks, fun taken ht => hp taken p.handed ht⟩

theorem Stands.act_write (hio : Lossless lines sideOf io) {p : Party T} {e : Endpoint T}
    {ls : List Layer} {w : W} (h : p.Stands sideOf m side ls) (he : p.endpoint? = some e)
    (hw : lines.intact w) (data : List UInt8) :
    Advances lines sideOf m side ls (p, w) (p.act io (.write data) w) := by
  obtain ⟨l, s, ls, rfl, hv, rfl⟩ := h.endpoint he
  obtain ⟨s', w', hwrite, hv', hm⟩ := (hio.stack m).layer_write hv hw l data
  simp only [act, he, Endpoint.write_addLayer, hwrite, Outcome.taken, List.take_length]
  obtain ⟨hview, hsize, -⟩ := stands_addLayer (p := p) (l := l) hv'
  have hpayload : payload [.data data] = data := List.append_nil data
  have hwritten : p.written ++ data = p.written ++ payload [.data data] := by rw [hpayload]
  have hfollows (taken : List UInt8) (ht : Follows (l :: ls) taken p.handed) :
      Follows (l :: ls) (taken ++ []) p.handed := by
    rwa [List.append_nil]
  exact ⟨l :: ls, [], _, [.data data], ⟨hview, hsize, nofun⟩, hm, .single m (.data data), hwritten,
    rfl, hfollows⟩

theorem Stands.act_control (hio : Lossless lines sideOf io) {p : Party T} {e : Endpoint T}
    {ls : List Layer} {w : W} (h : p.Stands sideOf m side ls) (he : p.endpoint? = some e)
    (hw : lines.intact w) (request : ControlRequest) :
    Advances lines sideOf m side ls (p, w) (p.act io (.control request) w) := by
  obtain ⟨l, s, ls, rfl, hv, rfl⟩ := h.endpoint he
  cases hc : (layerWire (stackWire io m)).control request (l, s) w with
  | mk r rest =>
    obtain ⟨⟨l', s'⟩, w'⟩ := rest
    obtain ⟨put, rfl, hv', hm, hs, hr⟩ := (hio.stack m).layer_control hv hw hc
    have hpayload : payload (if request.isBreak then [.breakSignal] else []) = [] := by
      split <;> rfl
    have hcount : breakCount (if request.isBreak then [.breakSignal] else []) =
        if request.isBreak ∧ r = .ok "" then 1 else 0 := by
      cases hb : request.isBreak with
      | true => simp only [hr hb, and_self, ↓reduceIte]; rfl
      | false => simp only [Bool.false_eq_true, false_and, ↓reduceIte]; rfl
    simp only [act, he, Endpoint.control_addLayer, hc]
    obtain ⟨hview, hsize, -⟩ := stands_addLayer (p := p) (l := l') hv'
    have hwritten : p.written =
        p.written ++ payload (if request.isBreak then [.breakSignal] else []) := by
      rw [hpayload, List.append_nil]
    have hfollows (taken : List UInt8) (ht : Follows (l' :: ls) taken p.handed) :
        Follows (l' :: ls) (taken ++ []) p.handed := by
      rwa [List.append_nil]
    exact ⟨l' :: ls, [], put, _, ⟨hview, hsize, nofun⟩, hm, hs, hwritten, by rw [hcount], hfollows⟩

theorem Stands.act (hio : Lossless lines sideOf io) {p : Party T} {ls : List Layer} {w : W}
    (h : p.Stands sideOf m side ls) (hw : lines.intact w) (a : Action)
    (hgone : (p.act io a w).1.isGone = false) :
    Advances lines sideOf m side ls (p, w) (p.act io a w) := by
  cases a with
  | proceed now => exact h.act_proceed hio hw now hgone
  | read k =>
    cases he : p.endpoint? with
    | some e => exact h.act_read hio he hw k
    | none => simpa only [Party.act, he] using Advances.refl h hw
  | write data =>
    cases he : p.endpoint? with
    | some e => exact h.act_write hio he hw data
    | none => simpa only [Party.act, he] using Advances.refl h hw
  | control request =>
    cases he : p.endpoint? with
    | some e => exact h.act_control hio he hw request
    | none => simpa only [Party.act, he] using Advances.refl h hw

theorem isGone_act {p : Party T} (h : p.isGone = true) (a : Action) (w : W) :
    (p.act io a w).1.isGone = true := by
  obtain ⟨stage, handed, written, breaks⟩ := p
  cases stage with
  | inl => cases h
  | inr s =>
    cases s with
    | negotiating => cases h
    | ended r =>
      cases r with
      | ok => cases h
      | error e => cases a <;> rfl

end Party

/-- Two parties and the world between them. -/
structure Link (T W : Type) where
  party : Side → Party T
  world : W

namespace Link

def start (configs : Side → List EndpointConfig) (transport : Side → T) (w : W) : Link T W :=
  ⟨fun side => { stage := .inl (configs side, transport side) }, w⟩

def act (io : Wire T W) (l : Link T W) (x : Side × Action) : Link T W :=
  let (p, w) := (l.party x.1).act io x.2 l.world
  ⟨fun side => if side = x.1 then p else l.party side, w⟩

def run (io : Wire T W) (l : Link T W) (schedule : List (Side × Action)) : Link T W :=
  schedule.foldl (act io) l

/-- The layers of one side follow what they have taken in; that and what is on its way is what the
outermost layer of the other side has sent. -/
structure Hears (lines : Lines W) (sideOf : T → Side) (m : Nat) (l : Link T W) (side : Side)
    (ls : List Layer) (taken : List UInt8) (ms : List Message) : Prop where
  stands : (l.party side).Stands sideOf m side ls
  follows : Follows ls taken (l.party side).handed
  sent : Says m (taken ++ lines.coming side l.world) ms
  payload : payload ms = (l.party side.other).written
  breaks : breakCount ms = (l.party side.other).breaks

/-- Both sides hear all that the other one has sent. -/
structure Sound (lines : Lines W) (sideOf : T → Side) (m : Nat) (l : Link T W) : Prop where
  intact : lines.intact l.world
  hears : ∀ side, ∃ ls taken ms, Hears lines sideOf m l side ls taken ms

theorem sound_start {configs : Side → List EndpointConfig} {transport : Side → T} {w : W}
    (hw : lines.intact w) (hempty : ∀ side, lines.coming side w = [])
    (hside : ∀ side, sideOf (transport side) = side)
    (hlen : ∀ side, (configs side).length = m + 1) :
    Sound lines sideOf m (start configs transport w) where
  intact := hw
  hears side := by
    have hview : some (sideOf (transport side), ([] : List Layer)) = some (side, []) := by
      rw [hside]
    have hsent : Says m ([] ++ lines.coming side w) [] := by
      rw [hempty, List.append_nil]
      exact .nil m
    exact ⟨[], [], [], ⟨hview, hlen side, fun _ => rfl⟩, rfl, hsent, rfl, rfl⟩

theorem act_world (l : Link T W) (x : Side × Action) :
    (l.act io x).world = ((l.party x.1).act io x.2 l.world).2 := rfl

theorem act_party_self (l : Link T W) (x : Side × Action) :
    (l.act io x).party x.1 = ((l.party x.1).act io x.2 l.world).1 := if_pos rfl

theorem act_party_other (l : Link T W) (x : Side × Action) :
    (l.act io x).party x.1.other = l.party x.1.other := if_neg (Side.other_ne x.1)

theorem Hears.act_self {l : Link T W} {x : Side × Action} {ls ls' : List Layer}
    {taken took put : List UInt8} {ms : List Message} (h : Hears lines sideOf m l x.1 ls taken ms)
    (hstands : ((l.party x.1).act io x.2 l.world).1.Stands sideOf m x.1 ls')
    (hmoved : lines.Moved x.1 took put l.world ((l.party x.1).act io x.2 l.world).2)
    (hfollows : ∀ taken, Follows ls taken (l.party x.1).handed →
      Follows ls' (taken ++ took) ((l.party x.1).act io x.2 l.world).1.handed) :
    Hears lines sideOf m (l.act io x) x.1 ls' (taken ++ took) ms where
  stands := by rwa [act_party_self]
  follows := by
    rw [act_party_self]
    exact hfollows taken h.follows
  sent := by
    have htook := hmoved.took
    rw [act_world, List.append_assoc, ← htook]
    exact h.sent
  payload := by
    rw [act_party_other]
    exact h.payload
  breaks := by
    rw [act_party_other]
    exact h.breaks

theorem Hears.act_other {l : Link T W} {x : Side × Action} {ls : List Layer}
    {taken took put : List UInt8} {ms ns : List Message}
    (h : Hears lines sideOf m l x.1.other ls taken ms)
    (hmoved : lines.Moved x.1 took put l.world ((l.party x.1).act io x.2 l.world).2)
    (hsaid : Says m put ns)
    (hwritten : ((l.party x.1).act io x.2 l.world).1.written =
      (l.party x.1).written ++ Telnet.payload ns)
    (hbreaks : ((l.party x.1).act io x.2 l.world).1.breaks = (l.party x.1).breaks + breakCount ns) :
    Hears lines sideOf m (l.act io x) x.1.other ls taken (ms ++ ns) where
  stands := by
    rw [act_party_other]
    exact h.stands
  follows := by
    rw [act_party_other]
    exact h.follows
  sent := by
    have hput := hmoved.put
    rw [act_world, hput, ← List.append_assoc]
    exact h.sent.append hsaid
  payload := by
    have hpayload := h.payload
    rw [Side.other_other] at hpayload ⊢
    rw [act_party_self, payload_append, hpayload, hwritten]
  breaks := by
    have hcount := h.breaks
    rw [Side.other_other] at hcount ⊢
    rw [act_party_self, breakCount_append, hcount, hbreaks]

theorem Sound.act (hio : Lossless lines sideOf io) {l : Link T W} (h : Sound lines sideOf m l)
    (x : Side × Action) (hgone : ((l.act io x).party x.1).isGone = false) :
    Sound lines sideOf m (l.act io x) := by
  rw [act_party_self] at hgone
  obtain ⟨ls, taken, ms, hears⟩ := h.hears x.1
  obtain ⟨ls', took, put, ns, hstands, hmoved, hsaid, hwritten, hbreaks, hfollows⟩ :=
    hears.stands.act hio h.intact x.2 hgone
  apply Sound.mk hmoved.intact
  intro side
  by_cases hside : side = x.1
  · subst hside
    exact ⟨ls', taken ++ took, ms, hears.act_self hstands hmoved hfollows⟩
  · obtain rfl := Side.eq_other_of_ne hside
    obtain ⟨ls₂, taken₂, ms₂, hears₂⟩ := h.hears x.1.other
    exact ⟨ls₂, taken₂, ms₂ ++ ns, hears₂.act_other hmoved hsaid hwritten hbreaks⟩

theorem isGone_act {l : Link T W} {side : Side} (h : (l.party side).isGone = true)
    (x : Side × Action) : ((l.act io x).party side).isGone = true := by
  by_cases hside : side = x.1
  · subst hside
    rw [act_party_self]
    exact Party.isGone_act h x.2 l.world
  · obtain rfl := Side.eq_other_of_ne hside
    rwa [act_party_other]

theorem isGone_run {l : Link T W} {side : Side} (h : (l.party side).isGone = true)
    (schedule : List (Side × Action)) : ((l.run io schedule).party side).isGone = true := by
  induction schedule generalizing l with
  | nil => exact h
  | cons x schedule ih => exact ih (isGone_act h x)

theorem Sound.run (hio : Lossless lines sideOf io) {l : Link T W} (h : Sound lines sideOf m l)
    (schedule : List (Side × Action))
    (hgone : ∀ side, ((l.run io schedule).party side).isGone = false) :
    Sound lines sideOf m (l.run io schedule) := by
  induction schedule generalizing l with
  | nil => exact h
  | cons x schedule ih =>
    have hnot : ((l.act io x).party x.1).isGone = false := by
      cases hx : ((l.act io x).party x.1).isGone with
      | false => rfl
      | true =>
        have hlater := (hgone x.1).symm.trans (isGone_run hx schedule)
        cases hlater
    exact ih (h.act hio x hnot) hgone

/-- What a side makes of the bytes on its way to it: its layers go on from where they are, and
those that are still to be put on start afresh. -/
structure Transparent (lines : Lines W) (sideOf : T → Side) (l : Link T W) (side : Side)
    (ls : List Layer) : Prop where
  view : (l.party side).view sideOf = some (side, ls)
  /-- Nothing is lost, added or out of order. -/
  data : (l.party side).handed ++
      decode (l.party side).missing (ahead ls (lines.coming side l.world)) =
    (l.party side.other).written
  /-- The outermost layer has counted the breaks of the other user that it has taken in. -/
  breaks : ∀ top below, (l.party side).missing = 0 → ls = top :: below → ∃ ms consumed,
    encode ms = consumed ++ ahead below (lines.coming side l.world) ∧
      payload ms = (l.party side.other).written ∧ breakCount ms = (l.party side.other).breaks ∧
        top.breaks = breaksWithin ms consumed.length

theorem Hears.transparent {l : Link T W} {ls : List Layer} {taken : List UInt8} {ms : List Message}
    (h : Hears lines sideOf m l side ls taken ms) : Transparent lines sideOf l side ls where
  view := h.stands.view
  data := by
    rw [← h.payload, ← h.sent.decode_succ, ← h.stands.size, decode_add, h.follows.decode]
    cases he : (l.party side).endpoint? with
    | none => rw [h.stands.silent he, List.nil_append, List.nil_append]
    | some e =>
      have hmissing : (l.party side).missing = 0 := by
        rw [Party.missing, Party.endpoint?_eq_some he]
        rfl
      rw [hmissing]
      rfl
  breaks := by
    intro top below hmissing hls
    subst hls
    obtain ⟨consumed, hf, hr⟩ := h.follows
    have hsize := h.stands.size
    rw [hmissing, Nat.zero_add, List.length_cons, Nat.add_right_cancel_iff] at hsize
    have hencode : encode ms = consumed ++ ahead below (lines.coming side l.world) := by
      rw [← h.sent.decode, ← hsize, hf.decode]
    exact ⟨ms, consumed, hencode, h.payload, h.breaks, by
      rw [hr.breaks, breaksIn_feed_of_encode hencode]⟩

end Link

/-- Stacks of `m + 1` layers are transparent, for every way in which a lossless pipe cuts its bytes
and every order in which the two sides do something, as long as neither of them has given up. -/
theorem stacks_transparent (hio : Lossless lines sideOf io) {w : W} (hw : lines.intact w)
    (hempty : ∀ side, lines.coming side w = []) {transport : Side → T}
    (hside : ∀ side, sideOf (transport side) = side) {configs : Side → List EndpointConfig}
    (hlen : ∀ side, (configs side).length = m + 1) (schedule : List (Side × Action))
    (hgone : ∀ side,
      (((Link.start configs transport w).run io schedule).party side).isGone = false)
    (side : Side) :
    ∃ ls, Link.Transparent lines sideOf ((Link.start configs transport w).run io schedule) side
      ls := by
  have hsound := (Link.sound_start hw hempty hside hlen).run hio schedule hgone
  obtain ⟨ls, taken, ms, hears⟩ := hsound.hears side
  exact ⟨ls, hears.transparent⟩

namespace Scripted.Pipe

/-- A pipe between two devices that take everything. -/
def calm : Pipe := ⟨{ device := {} }, { device := {} }⟩

/-- Both sides offer to leave out going ahead; one writes two bytes and sends a break, and the other
one reads in two pieces. -/
def exchange : List (Side × Action) :=
  [(.one, .proceed 0), (.two, .proceed 0), (.one, .proceed 0), (.two, .proceed 0),
    (.one, .write [255, 65]), (.one, .control ⟨.first, false, .sendBreak, none⟩), (.two, .read 1),
    (.two, .read 4)]

theorem calm_intact : Pipe.lines.intact calm := by
  intro side
  cases side <;> exact ⟨rfl, rfl, rfl, nofun⟩

theorem stacks_transparent_exchange :
    (∃ ls, Link.Transparent Pipe.lines PipeHandle.side
      ((Link.start (fun _ => [{}, {}]) calm.handle calm).run Pipe.wire exchange) .two ls) ∧
    (((Link.start (fun _ => [{}, {}]) calm.handle calm).run Pipe.wire exchange).party .two).handed =
      [255, 65] := by
  have hempty : ∀ side, Pipe.lines.coming side calm = [] := by
    intro side
    cases side <;> rfl
  have hgone : ∀ side, (((Link.start (fun _ => [{}, {}]) calm.handle calm).run Pipe.wire
      exchange).party side).isGone = false := by
    intro side
    cases side <;> decide +kernel
  have htransparent := stacks_transparent lossless calm_intact hempty (fun _ => rfl) (fun _ => rfl)
    exchange hgone .two
  exact ⟨htransparent, by decide +kernel⟩

end Scripted.Pipe

end Wirebench

import Wirebench.Loopback.Network
import Wirebench.Proofs.Wire.Calls

namespace Wirebench

variable {T W α : Type}

/-- The same request for another layer. -/
def ControlRequest.to (r : ControlRequest) (depth : ControlDepth) : ControlRequest :=
  { r with depth }

/-- Layers understand the request. -/
def ControlRequest.isForLayers (r : ControlRequest) : Bool :=
  r.option = .sendBreak ∨ (r.option = .breaksReceived ∧ r.get)

/-- A layer hands the request on in this form, without answering it by itself. -/
structure ControlRequest.PassesAs (r lower : ControlRequest) : Prop where
  descend : r.descend = some lower
  passes : r.depth.targetsHere = true → r.isForLayers = false

namespace ControlRequest.PassesAs

variable {r lower : ControlRequest}

theorem not_sendBreak (h : r.PassesAs lower) :
    ¬(r.option = .sendBreak ∧ r.depth.targetsHere = true) := by
  rintro ⟨ho, hd⟩
  have hr := h.passes hd
  simp [isForLayers, ho] at hr

theorem not_breaksReceived (h : r.PassesAs lower) :
    ¬(r.option = .breaksReceived ∧ r.depth.targetsHere = true ∧ r.get = true) := by
  rintro ⟨ho, hd, hg⟩
  have hr := h.passes hd
  simp [isForLayers, ho, hg] at hr

theorem of_layer (r : ControlRequest) (j : Nat) :
    (r.to (.layer (j + 1))).PassesAs (r.to (.layer j)) where
  descend := rfl
  passes := nofun

theorem of_first (hr : r.isForLayers = false) : (r.to .first).PassesAs (r.to .first) where
  descend := rfl
  passes _ := hr

end ControlRequest.PassesAs

namespace Endpoint

def put (l : Telnet.Layer) (e : Endpoint T) : Endpoint T := addLayer e.layers (l, e.state)

/-- An endpoint with layers put on it, all of them open. The first one comes to lie outermost. -/
def under (ls : List Telnet.Layer) (e : Endpoint T) : Endpoint T := ls.foldr put e

/-- An endpoint made of layers, the outermost first, and a transport. -/
def ofLayers (ls : List Telnet.Layer) (t : T) : Endpoint T := (ofTransport t).under ls

theorem exists_ofLayers {e : Endpoint T}
    (he : ∀ o ∈ StackState.handles e.layers e.state, o = true) : ∃ ls t, e = ofLayers ls t := by
  obtain ⟨n, s⟩ := e
  induction n with
  | zero =>
    obtain ⟨_, t⟩ : Handle T := s
    obtain rfl : _ = true := he _ (List.mem_singleton_self _)
    exact ⟨[], t, rfl⟩
  | succ n ih =>
    obtain ⟨_, l, s⟩ : Handle (Telnet.Layer × StackState T n) := s
    obtain ⟨rfl : _ = true, hs⟩ := List.forall_mem_cons.1 he
    obtain ⟨ls, t, hls⟩ := ih s hs
    exact ⟨l :: ls, t, congrArg (put l) hls⟩

/-- What an operation on an endpoint comes to when the endpoint has layers on it. -/
def carried (ls : List Telnet.Layer) (x : α × Endpoint T × W) : α × Endpoint T × W :=
  (x.1, x.2.1.under ls, x.2.2)

theorem under_cons (l : Telnet.Layer) (ls : List Telnet.Layer) (e : Endpoint T) :
    e.under (l :: ls) = (e.under ls).put l := rfl

theorem under_append (us ds : List Telnet.Layer) (e : Endpoint T) :
    e.under (us ++ ds) = (e.under ds).under us :=
  List.foldr_append

theorem layers_under (ls : List Telnet.Layer) (e : Endpoint T) :
    (e.under ls).layers = ls.length + e.layers := by
  induction ls with
  | nil => exact (Nat.zero_add _).symm
  | cons l ls ih =>
    rw [List.length_cons, Nat.add_right_comm]
    exact congrArg (· + 1) ih

theorem mirrors_stackWire (io : Wire T W) (n : Nat) :
    (wire io).Mirrors (stackWire io n) fun x y => x = (⟨n, y.1⟩, y.2) where
  read := by rintro _ w s _ k ⟨⟩; exact ⟨rfl, rfl⟩
  write := by rintro _ w s _ data ⟨⟩; exact ⟨rfl, rfl⟩
  backlog := by rintro _ w s _ ⟨⟩; rfl
  writeUrgent := by rintro _ w s _ data ⟨⟩; exact ⟨rfl, rfl⟩
  readUrgent := by rintro _ w s _ k ⟨⟩; exact ⟨rfl, rfl⟩
  control := by rintro _ w s _ request ⟨⟩; exact ⟨rfl, rfl⟩
  close := by rintro _ w s _ ⟨⟩; exact ⟨rfl, rfl⟩
  discard := by rintro _ w s _ ⟨⟩; rfl

/-- An endpoint sends a break for a layer on it: two bytes, which are payload to the endpoint. -/
def sendBreakUnder (io : Wire T W) (ls : List Telnet.Layer) (e : Endpoint T) (w : W) :
    Outcome String × Endpoint T × W :=
  let x := (wire io).writeAll [0xFF, 0xF3] e w
  (x.1.map fun _ => "", x.2.1.under ls, x.2.2)

theorem carried_sendBreakUnder (io : Wire T W) (us ls : List Telnet.Layer) (e : Endpoint T)
    (w : W) : carried us (sendBreakUnder io ls e w) = sendBreakUnder io (us ++ ls) e w := by
  rw [carried, sendBreakUnder, sendBreakUnder, under_append]

/-- What the outermost layer makes of a request. -/
theorem control_put (io : Wire T W) (l : Telnet.Layer) (e : Endpoint T) (r : ControlRequest)
    (w : W) :
    (wire io).control r (e.put l) w =
      if r.option = .sendBreak ∧ r.depth.targetsHere then sendBreakUnder io [l] e w
      else if r.option = .breaksReceived ∧ r.depth.targetsHere ∧ r.get then
        (.ok (String.ofList (Text.decimal l.breaks)), e.put l, w)
      else
        match r.descend with
        | none => (.error r.option.unsupported, e.put l, w)
        | some lower => carried [l] ((wire io).control lower e w) := by
  obtain ⟨n, s⟩ := e
  have hlayer : (wire io).control r (addLayer n (l, s)) w =
      let x := (Telnet.layerWire (stackWire io n)).control r (l, s) w
      (x.1, addLayer n x.2.1, x.2.2) := rfl
  rw [put, hlayer, Telnet.layerWire_control]
  split
  · obtain ⟨hr, hx⟩ :=
      (mirrors_stackWire io n).writeAll Telnet.breakBytes (s := ⟨n, s⟩) (w := w) rfl
    have hbytes : [0xFF, 0xF3] = Telnet.breakBytes := rfl
    rw [sendBreakUnder, hbytes, hr, hx]
    rfl
  · split
    · rfl
    · cases r.descend <;> rfl

section

variable {io : Wire T W} {l : Telnet.Layer} {e : Endpoint T} {r lower : ControlRequest} {w : W}

theorem control_put_sendBreak (ho : r.option = .sendBreak) (hd : r.depth.targetsHere = true) :
    (wire io).control r (e.put l) w = sendBreakUnder io [l] e w := by
  rw [control_put, if_pos ⟨ho, hd⟩]

theorem not_sendBreak {p : Prop} (ho : r.option = .breaksReceived) :
    ¬(r.option = .sendBreak ∧ p) := by
  rw [ho]
  exact fun h => nomatch h.1

theorem control_put_breaksReceived (ho : r.option = .breaksReceived)
    (hd : r.depth.targetsHere = true) (hg : r.get = true) :
    (wire io).control r (e.put l) w =
      (.ok (String.ofList (Text.decimal l.breaks)), e.put l, w) := by
  rw [control_put, if_neg (not_sendBreak ho), if_pos ⟨ho, hd, hg⟩]

theorem control_put_refused (hr : r.isForLayers = false) (hd : r.depth = .layer 0) :
    (wire io).control r (e.put l) w =
      (.error (.notSupported ("control " ++ r.option.name)), e.put l, w) := by
  obtain ⟨hbreak, hbreaks⟩ := not_or.1 (of_decide_eq_false hr)
  rw [control_put, if_neg fun h => hbreak h.1, if_neg fun h => hbreaks ⟨h.1, h.2.2⟩,
    ControlRequest.descend, hd]
  rfl

theorem control_put_first (hr : r.isForLayers = true) :
    (wire io).control (r.to .first) (e.put l) w =
      (wire io).control (r.to (.layer 0)) (e.put l) w := by
  obtain ho | ⟨ho, hg⟩ := of_decide_eq_true hr
  · rw [control_put_sendBreak (r := r.to .first) ho rfl,
      control_put_sendBreak (r := r.to (.layer 0)) ho rfl]
  · rw [control_put_breaksReceived (r := r.to .first) ho rfl hg,
      control_put_breaksReceived (r := r.to (.layer 0)) ho rfl hg]

theorem control_put_of_passesAs (h : r.PassesAs lower) :
    (wire io).control r (e.put l) w = carried [l] ((wire io).control lower e w) := by
  rw [control_put, if_neg h.not_sendBreak, if_neg h.not_breaksReceived, h.descend]

end

/-- A request comes through layers that hand it on, in one form after the other. -/
theorem control_under (io : Wire T W) (us : List Telnet.Layer) (e : Endpoint T)
    (r : Nat → ControlRequest) (h : ∀ i, (r (i + 1)).PassesAs (r i)) (w : W) :
    (wire io).control (r us.length) (e.under us) w = carried us ((wire io).control (r 0) e w) := by
  induction us with
  | nil => rfl
  | cons u us ih =>
    rw [List.length_cons, under_cons, control_put_of_passesAs (h us.length), ih]
    rfl

theorem keptBy_requests (asked : List (Nat × ControlRequest)) (k : Nat) (c : Call)
    (hc : c.isTransfer = true) : KeptBy (fun calls => requests calls = asked) (k, c) := by
  rintro calls rfl
  cases c with
  | read | write => exact (requests_append _ _).trans (List.append_nil _)
  | writeUrgent | readUrgent | control | close => cases hc

/-- The requests that come to the layers and to the transport of an endpoint from one request to the
endpoint. -/
def heard (io : Wire T W) (r : ControlRequest) (e : Endpoint T) (w : W) :
    List (Nat × ControlRequest) :=
  requests ((watchedStack io e.layers).control r e.state ([], w)).2.2.1

theorem heard_ofTransport (io : Wire T W) (r : ControlRequest) (t : T) (w : W) :
    heard io r (ofTransport t) w = [(0, r)] := rfl

theorem heard_put (io : Wire T W) (l : Telnet.Layer) (e : Endpoint T) (r : ControlRequest) (w : W) :
    heard io r (e.put l) w =
      (if r.option = .sendBreak ∧ r.depth.targetsHere then []
      else if r.option = .breaksReceived ∧ r.depth.targetsHere ∧ r.get then []
      else
        match r.descend with
        | none => []
        | some lower => heard io lower e w) ++ [(e.layers + 1, r)] := by
  obtain ⟨n, s⟩ := e
  have hlayer : heard io r (put l ⟨n, s⟩) w = requests
      (((Telnet.layerWire (watchedStack io n)).control r (l, s) ([], w)).2.2.1 ++
        [(n + 1, Call.control r
          ((Telnet.layerWire (watchedStack io n)).control r (l, s) ([], w)).1)]) := rfl
  rw [hlayer, requests_append, Telnet.layerWire_control]
  congr 1
  split
  · obtain ⟨-, -, -, hquiet⟩ := (alike_watchedStack io (keptBy_requests []) n).writeAll
      Telnet.breakBytes (s := s) (w := ([], w)) ⟨rfl, rfl, rfl⟩
    exact hquiet
  · split
    · rfl
    · cases r.descend <;> rfl

theorem heard_put_of_answered (io : Wire T W) (l : Telnet.Layer) (e : Endpoint T)
    {r : ControlRequest} (w : W)
    (h : r.descend = none ∨ (r.isForLayers = true ∧ r.depth.targetsHere = true)) :
    heard io r (e.put l) w = [(e.layers + 1, r)] := by
  rw [heard_put]
  obtain hd | ⟨hr, hd⟩ := h
  · simp only [hd, ite_self, List.nil_append]
  · obtain ho | ⟨ho, hg⟩ := of_decide_eq_true hr
    · rw [if_pos ⟨ho, hd⟩, List.nil_append]
    · rw [if_neg (not_sendBreak ho), if_pos ⟨ho, hd, hg⟩, List.nil_append]

theorem heard_under (io : Wire T W) (us : List Telnet.Layer) (e : Endpoint T)
    (r : Nat → ControlRequest) (h : ∀ i, (r (i + 1)).PassesAs (r i)) (w : W) :
    heard io (r us.length) (e.under us) w =
      heard io (r 0) e w ++ (List.range us.length).map fun i => (e.layers + i + 1, r (i + 1)) := by
  induction us with
  | nil => exact (List.append_nil _).symm
  | cons u us ih =>
    have hu := h us.length
    rw [List.length_cons, under_cons, heard_put, if_neg hu.not_sendBreak,
      if_neg hu.not_breaksReceived, hu.descend]
    simp only
    rw [ih, layers_under, List.range_succ, List.map_append, List.append_assoc,
      Nat.add_comm us.length]
    rfl

end Endpoint

open Endpoint (ofLayers sendBreakUnder heard)

/-- What becomes of a request, with all depths that it may have, in an endpoint with the layers `ls`
on the transport `t`. -/
structure Routes (io : Wire T W) (ls : List Telnet.Layer) (t : T) (r : ControlRequest) (w : W) :
    Prop where
  /-- The layer that is named sends a break as payload of what is below it. -/
  sendBreak : ∀ us l ds, ls = us ++ l :: ds → r.option = .sendBreak →
    (Endpoint.wire io).control (r.to (.layer us.length)) (ofLayers ls t) w =
      sendBreakUnder io (us ++ [l]) (ofLayers ds t) w
  /-- The layer that is named tells its own count. -/
  breaksReceived : ∀ us l ds, ls = us ++ l :: ds → r.option = .breaksReceived → r.get = true →
    (Endpoint.wire io).control (r.to (.layer us.length)) (ofLayers ls t) w =
      (.ok (String.ofList (Text.decimal l.breaks)), ofLayers ls t, w)
  /-- The layer that is named refuses everything else. -/
  refused : ∀ us l ds, ls = us ++ l :: ds → r.isForLayers = false →
    (Endpoint.wire io).control (r.to (.layer us.length)) (ofLayers ls t) w =
      (.error (.notSupported ("control " ++ r.option.name)), ofLayers ls t, w)
  /-- A request goes down to the layer that it names, and no further. -/
  heard_layer : ∀ us l ds, ls = us ++ l :: ds →
    heard io (r.to (.layer us.length)) (ofLayers ls t) w =
      (List.range (us.length + 1)).map fun i => (ds.length + 1 + i, r.to (.layer i))
  /-- Below the layers the transport answers as if there were no layers. -/
  transport : ∀ j,
    ((Endpoint.wire io).control (r.to (.layer (ls.length + j))) (ofLayers ls t) w =
        let x := io.control (r.to (.layer j)) t w
        (x.1, ofLayers ls x.2.1, x.2.2)) ∧
      heard io (r.to (.layer (ls.length + j))) (ofLayers ls t) w =
        (List.range (ls.length + 1)).map fun i => (i, r.to (.layer (j + i)))
  /-- The first layer that understands a request is the outermost one. -/
  first : ls ≠ [] → r.isForLayers = true →
    (Endpoint.wire io).control (r.to .first) (ofLayers ls t) w =
        (Endpoint.wire io).control (r.to (.layer 0)) (ofLayers ls t) w ∧
      heard io (r.to .first) (ofLayers ls t) w = [(ls.length, r.to .first)]
  /-- What no layer understands comes to the transport in the form that it had. -/
  first_transport : ls = [] ∨ r.isForLayers = false →
    ((Endpoint.wire io).control (r.to .first) (ofLayers ls t) w =
        let x := io.control (r.to .first) t w
        (x.1, ofLayers ls x.2.1, x.2.2)) ∧
      heard io (r.to .first) (ofLayers ls t) w =
        (List.range (ls.length + 1)).map fun i => (i, r.to .first)

section

variable (io : Wire T W) (t : T) (r : ControlRequest) (w : W)

namespace Endpoint

theorem ofLayers_append (us : List Telnet.Layer) (l : Telnet.Layer) (ds : List Telnet.Layer) :
    ofLayers (us ++ l :: ds) t = ((ofLayers ds t).put l).under us :=
  under_append us (l :: ds) _

theorem layers_ofLayers (ls : List Telnet.Layer) : (ofLayers ls t).layers = ls.length :=
  layers_under ls _

/-- A request that names a layer is answered as if that layer were the outermost. -/
theorem control_layer (us : List Telnet.Layer) (l : Telnet.Layer) (ds : List Telnet.Layer) :
    (wire io).control (r.to (.layer us.length)) (ofLayers (us ++ l :: ds) t) w =
      carried us ((wire io).control (r.to (.layer 0)) ((ofLayers ds t).put l) w) := by
  rw [ofLayers_append]
  exact control_under io us _ (fun i => r.to (.layer i)) (.of_layer r) w

/-- A request that every layer hands on comes to all of them and to the transport. -/
theorem control_ofLayers (ls : List Telnet.Layer) (r : Nat → ControlRequest)
    (h : ∀ i, (r (i + 1)).PassesAs (r i)) :
    ((wire io).control (r ls.length) (ofLayers ls t) w =
        let x := io.control (r 0) t w
        (x.1, ofLayers ls x.2.1, x.2.2)) ∧
      heard io (r ls.length) (ofLayers ls t) w =
        (List.range (ls.length + 1)).map fun i => (i, r i) := by
  refine ⟨control_under io ls _ r h w, ?_⟩
  have hlayers : (ofTransport t).layers = 0 := rfl
  rw [ofLayers, heard_under io ls _ r h w, heard_ofTransport, List.range_succ_eq_map, List.map_cons,
    List.map_map, hlayers]
  simp only [Nat.zero_add]
  rfl

end Endpoint

theorem routes (ls : List Telnet.Layer) : Routes io ls t r w where
  sendBreak := by
    rintro us l ds rfl ho
    rw [Endpoint.control_layer, Endpoint.control_put_sendBreak (r := r.to (.layer 0)) ho rfl,
      Endpoint.carried_sendBreakUnder]
  breaksReceived := by
    rintro us l ds rfl ho hg
    rw [Endpoint.control_layer,
      Endpoint.control_put_breaksReceived (r := r.to (.layer 0)) ho rfl hg,
      Endpoint.ofLayers_append]
    rfl
  refused := by
    rintro us l ds rfl hr
    rw [Endpoint.control_layer, Endpoint.control_put_refused (r := r.to (.layer 0)) hr rfl,
      Endpoint.ofLayers_append]
    rfl
  heard_layer := by
    rintro us l ds rfl
    have hheard := Endpoint.heard_under io us ((ofLayers ds t).put l) (fun i => r.to (.layer i))
      (.of_layer r) w
    have hlayers : ((ofLayers ds t).put l).layers = ds.length + 1 :=
      congrArg (· + 1) (Endpoint.layers_ofLayers t ds)
    rw [Endpoint.ofLayers_append, hheard, Endpoint.heard_put_of_answered io l _ w (.inl rfl),
      Endpoint.layers_ofLayers, hlayers, List.range_succ_eq_map, List.map_cons, List.map_map]
    rfl
  transport j := by
    rw [Nat.add_comm]
    exact Endpoint.control_ofLayers io t w ls (fun i => r.to (.layer (j + i)))
      fun i => .of_layer r (j + i)
  first := by
    intro hls hr
    obtain ⟨l, ds, rfl⟩ := List.exists_cons_of_ne_nil hls
    have hheard := Endpoint.heard_put_of_answered io l (ofLayers ds t) (r := r.to .first) w
      (.inr ⟨hr, rfl⟩)
    rw [Endpoint.layers_ofLayers] at hheard
    exact ⟨Endpoint.control_put_first hr, hheard⟩
  first_transport := by
    rintro (rfl | hr)
    · exact ⟨rfl, rfl⟩
    · exact Endpoint.control_ofLayers io t w ls (fun _ => r.to .first) fun _ => .of_first hr

end

namespace Loopback

/-- The host has what the link runs on. -/
def Link.IsThere (link : Link) (h : Host) : Prop :=
  match link with
  | stream i => i < h.ends.length
  | datagram _ | shared .. => (link.addresses? h).isSome

/-- Nothing is below a transport, so requests for something there are refused. -/
theorem control_below {c : Connection} {h : Host} (hc : c.link.IsThere h) (r : ControlRequest)
    (j : Nat) : wire.control (r.to (.layer (j + 1))) c h = (.error r.option.unsupported, c, h) := by
  obtain ⟨name, link⟩ := c
  cases link with
  | stream i =>
    have hi : i < h.ends.length := hc
    have hend : (h.ends[i].control (r.to (.layer (j + 1)))) =
        (.error r.option.unsupported, h.ends[i]) := rfl
    simp only [wire, onLink, Link.control, Host.onEnd, List.getElem?_eq_getElem hi, hend,
      Prod.map_apply, id_eq, List.set_getElem_self]
    rfl
  | datagram s =>
    obtain ⟨a, ha⟩ := Option.isSome_iff_exists.1 hc
    simp only [wire, onLink, Link.control, ha]
    rfl
  | shared hub peer =>
    obtain ⟨a, ha⟩ := Option.isSome_iff_exists.1 hc
    simp only [wire, onLink, Link.control, ha]
    rfl

end Loopback

/-- Requests for an endpoint with any number of layers go where `Routes` says, over every transport.
The record in which they are found makes no difference to what is done. The transports of a host
refuse what is meant for something below them. -/
theorem requests_reach_their_layer (io : Wire T W) (ls : List Telnet.Layer) (t : T)
    (r : ControlRequest) (w : W) :
    Routes io ls t r w ∧
      (∀ n s calls v,
        let x := (watchedStack io n).control r s (calls, v)
        (x.1, x.2.1, x.2.2.2) = (stackWire io n).control r s v) ∧
      ∀ (c : Loopback.Connection) (h : Loopback.Host) (j : Nat), c.link.IsThere h →
        (Endpoint.wire Loopback.wire).control (r.to (.layer (ls.length + (j + 1))))
            (ofLayers ls c) h =
          (.error (.notSupported ("control " ++ r.option.name)), ofLayers ls c, h) := by
  refine ⟨routes io t r w ls, ?_, ?_⟩
  · intro n s calls v
    obtain ⟨hr, hs, hv, -⟩ := (mirrors_watchedStack (P := fun _ => True) io (fun _ _ _ h => h)
      n).control (s := s) (w := (calls, v)) r ⟨rfl, rfl, trivial⟩
    exact Prod.ext hr (Prod.ext hs hv)
  · intro c h j hc
    rw [((routes Loopback.wire c r h ls).transport (j + 1)).1, Loopback.control_below hc]
    rfl

theorem requests_reach_their_layer_stream :
    let e : Loopback.StreamEnd :=
      { localAddress := .loopback 4000, remoteAddress := .loopback 4001, maxWrite := 16 }
    let h : Loopback.Host := { isUp := true, ends := [e] }
    let c : Loopback.Connection := ⟨"tcp", .stream 0⟩
    let ls : List Telnet.Layer := [.new {}, .new {}]
    c.link.IsThere h ∧
      (Endpoint.wire Loopback.wire).control ⟨.layer 3, true, .localAddr, none⟩ (ofLayers ls c) h =
        (.error (.notSupported ("control " ++ "laddr")), ofLayers ls c, h) := by
  intro e h c ls
  have hc : c.link.IsThere h := Nat.zero_lt_one
  have hrequests := requests_reach_their_layer Loopback.wire ls c ⟨.first, true, .localAddr, none⟩ h
  exact ⟨hc, hrequests.2.2 c h 0 hc⟩

end Wirebench

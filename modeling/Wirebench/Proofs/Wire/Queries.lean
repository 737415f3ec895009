import Wirebench.Proofs.Wire.Requests

namespace Wirebench

variable {S T W : Type} {r lower : ControlRequest} {n : Nat}

namespace ControlRequest

/-- The request is about sending a break, and comes to one of the layers, of which there are so
many. -/
def asksForBreak (r : ControlRequest) (layers : Nat) : Bool :=
  r.option = .sendBreak &&
    match r.depth with
    | .layer k => k < layers
    | .first => 0 < layers

theorem asksForBreak_zero (r : ControlRequest) : r.asksForBreak 0 = false := by
  obtain ⟨depth, get, option, value⟩ := r
  cases depth <;> simp [asksForBreak]

theorem asksForBreak_here (ho : r.option = .sendBreak) (hd : r.depth.targetsHere) (n : Nat) :
    r.asksForBreak (n + 1) := by
  obtain ⟨depth, get, option, value⟩ := r
  obtain rfl : option = .sendBreak := ho
  cases depth with
  | first => simp [asksForBreak]
  | layer k =>
    cases k with
    | zero => simp [asksForBreak]
    | succ k => cases hd

theorem asksForBreak_descend (h : r.descend = some lower)
    (hr : ¬(r.option = .sendBreak ∧ r.depth.targetsHere = true)) :
    r.asksForBreak (n + 1) = lower.asksForBreak n := by
  obtain ⟨depth, get, option, value⟩ := r
  cases depth with
  | first =>
    cases h
    have ho : option ≠ .sendBreak := fun ho => hr ⟨ho, rfl⟩
    simp [asksForBreak, ho]
  | layer k =>
    cases k with
    | zero => cases h
    | succ k =>
      cases h
      simp [asksForBreak]

theorem option_of_asksForBreak (h : r.asksForBreak n) : r.option = .sendBreak :=
  of_decide_eq_true (Bool.and_eq_true_iff.1 h).1

theorem targetsHere_of_descend (h : r.descend = none) : r.depth.targetsHere := by
  obtain ⟨depth, get, option, value⟩ := r
  cases depth with
  | first => cases h
  | layer k =>
    cases k with
    | zero => rfl
    | succ k => cases h

theorem get_descend (h : r.descend = some lower) : lower.get = r.get := by
  obtain ⟨depth, get, option, value⟩ := r
  cases depth with
  | first =>
    cases h
    rfl
  | layer k =>
    cases k with
    | zero => cases h
    | succ k =>
      cases h
      rfl

end ControlRequest

/-- A wire answers queries without doing anything. -/
def Wire.OnlyAnswers (io : Wire S W) : Prop :=
  ∀ r s w, r.get = true → (io.control r s w).2 = (s, w)

/-- A request leaves a wire and its world as they are, and nothing but requests is written down. -/
def Wire.UnmovedBy (io : Wire S (List (Nat × Call) × W)) (r : ControlRequest) : Prop :=
  ∀ s calls w, ∃ more, (io.control r s (calls, w)).2 = (s, (calls ++ more, w)) ∧
    ∀ c ∈ more, c.2.request?.isSome

namespace Wire.UnmovedBy

variable {io : Wire S (List (Nat × Call) × W)}

theorem guarded (h : io.UnmovedBy r) : io.guarded.UnmovedBy r := by
  rintro ⟨o, s⟩ calls w
  cases o with
  | false =>
    exact ⟨[], Prod.ext rfl (Prod.ext (List.append_nil calls).symm rfl), List.forall_mem_nil _⟩
  | true =>
    obtain ⟨more, hmore, hasked⟩ := h s calls w
    obtain ⟨hs, hw⟩ := Prod.ext_iff.1 hmore
    exact ⟨more, Prod.ext (congrArg (Handle.mk true) hs) hw, hasked⟩

theorem noted (h : io.UnmovedBy r) (k : Nat) : (io.noted fun _ c => (k, c)).UnmovedBy r := by
  intro s calls w
  obtain ⟨more, hmore, hasked⟩ := h s calls w
  obtain ⟨hs, hw⟩ := Prod.ext_iff.1 hmore
  obtain ⟨hcalls, hw⟩ := Prod.ext_iff.1 hw
  refine ⟨more ++ [(k, .control r (io.control r s (calls, w)).1)],
    Prod.ext hs (Prod.ext ?_ hw), ?_⟩
  · rw [← List.append_assoc]
    exact congrArg (· ++ [(k, Call.control r (io.control r s (calls, w)).1)]) hcalls
  · exact List.forall_mem_append.2 ⟨hasked, List.forall_mem_singleton.2 rfl⟩

theorem layer (hbreak : ¬(r.option = .sendBreak ∧ r.depth.targetsHere = true))
    (h : ∀ lower, r.descend = some lower → io.UnmovedBy lower) :
    (Telnet.layerWire io).UnmovedBy r := by
  rintro ⟨l, s⟩ calls w
  rw [Telnet.layerWire_control, if_neg hbreak]
  split
  · exact ⟨[], Prod.ext rfl (Prod.ext (List.append_nil calls).symm rfl), List.forall_mem_nil _⟩
  · cases hlower : r.descend with
    | none =>
      exact ⟨[], Prod.ext rfl (Prod.ext (List.append_nil calls).symm rfl), List.forall_mem_nil _⟩
    | some lower =>
      obtain ⟨more, hmore, hasked⟩ := h lower hlower s calls w
      obtain ⟨hs, hw⟩ := Prod.ext_iff.1 hmore
      exact ⟨more, Prod.ext (congrArg (Prod.mk l) hs) hw, hasked⟩

end Wire.UnmovedBy

/-- A query that asks no layer for a break leaves the layers and the world as they are. -/
theorem unmovedBy_query {io : Wire T W} (hio : io.OnlyAnswers) (n : Nat) (hget : r.get = true)
    (hbreak : r.asksForBreak n = false) : (watchedStack io n).UnmovedBy r := by
  induction n generalizing r with
  | zero =>
    have hbeside : (io.beside (List (Nat × Call))).UnmovedBy r := by
      intro t calls w
      obtain ⟨ht, hw⟩ := Prod.ext_iff.1 (hio r t w hget)
      exact ⟨[], Prod.ext ht (Prod.ext (List.append_nil calls).symm hw), List.forall_mem_nil _⟩
    exact (hbeside.noted 0).guarded
  | succ n ih =>
    have hhere : ¬(r.option = .sendBreak ∧ r.depth.targetsHere = true) := by
      intro ⟨ho, hd⟩
      rw [ControlRequest.asksForBreak_here ho hd] at hbreak
      cases hbreak
    have hlower : (Telnet.layerWire (watchedStack io n)).UnmovedBy r := by
      refine .layer hhere fun lower h => ih ?_ ?_
      · rw [ControlRequest.get_descend h, hget]
      · rw [← ControlRequest.asksForBreak_descend h hhere, hbreak]
    exact (hlower.noted (n + 1)).guarded

/-- The transport has been asked to write. -/
def Written (calls : List (Nat × Call)) : Prop := ∃ data r, (0, Call.write data r) ∈ calls

theorem keptBy_written (k : Nat) (c : Call) : KeptBy Written (k, c) := by
  rintro calls ⟨data, r, h⟩
  exact ⟨data, r, List.mem_append_left _ h⟩

theorem Written.writeAll {io : Wire T W} {s : StackState T n} {calls : List (Nat × Call)} {w : W}
    (h : Written calls) (data : List UInt8) :
    Written ((watchedStack io n).writeAll data s (calls, w)).2.2.1 := by
  have halike := alike_watchedStack io (fun k c _ => keptBy_written k c) n
  have hstart : SameState (Beside Written) (s, (calls, w)) (s, w) := ⟨rfl, rfl, h⟩
  exact (halike.writeAll data hstart).2.2.2

theorem written_writeAll {io : Wire T W} {s : StackState T n} {calls : List (Nat × Call)} {w : W}
    {data : List UInt8} (hdata : data ≠ [])
    (h : Written ((watchedStack io n).write data s (calls, w)).2.2.1) :
    Written ((watchedStack io n).writeAll data s (calls, w)).2.2.1 := by
  obtain ⟨b, bs, rfl⟩ := List.exists_cons_of_ne_nil hdata
  rw [Wire.writeAll]
  revert h
  obtain ⟨r, s', calls', w'⟩ := (watchedStack io n).write (b :: bs) s (calls, w)
  intro h
  cases r with
  | ok k =>
    cases k with
    | zero => exact h
    | succ k => exact Written.writeAll h (bs.drop k)
  | error | waiting | stalled => exact h

/-- What is written to a stack comes to its transport, as long as every handle is open. -/
theorem written_write (io : Wire T W) (n : Nat) (s : StackState T n)
    (hs : ∀ o ∈ StackState.handles n s, o = true) {data : List UInt8} (hdata : data ≠ [])
    (calls : List (Nat × Call)) (w : W) :
    Written ((watchedStack io n).write data s (calls, w)).2.2.1 := by
  induction n generalizing data calls w with
  | zero =>
    obtain ⟨o, t⟩ : Handle T := s
    obtain rfl : o = true := hs o (List.mem_singleton_self o)
    exact ⟨data, _, List.mem_append_right _ (List.mem_singleton_self _)⟩
  | succ n ih =>
    obtain ⟨o, l, s⟩ : Handle (Telnet.Layer × StackState T n) := s
    obtain ⟨rfl : o = true, hs⟩ := List.forall_mem_cons.1 hs
    have hescape : Telnet.escape data ≠ [] := by
      have hlength := Telnet.length_le_length_escape data
      have hpos := List.length_pos_iff.2 hdata
      exact List.length_pos_iff.1 (Nat.lt_of_lt_of_le hpos hlength)
    exact keptBy_written _ _ _ (written_writeAll hescape (ih s hs hescape calls w))

theorem written_control (io : Wire T W) (n : Nat) (s : StackState T n)
    (hs : ∀ o ∈ StackState.handles n s, o = true) (hbreak : r.asksForBreak n = true)
    (calls : List (Nat × Call)) (w : W) :
    Written ((watchedStack io n).control r s (calls, w)).2.2.1 := by
  induction n generalizing r with
  | zero =>
    rw [ControlRequest.asksForBreak_zero] at hbreak
    cases hbreak
  | succ n ih =>
    obtain ⟨o, l, s⟩ : Handle (Telnet.Layer × StackState T n) := s
    obtain ⟨rfl : o = true, hs⟩ := List.forall_mem_cons.1 hs
    have hlayer : Written
        ((Telnet.layerWire (watchedStack io n)).control r (l, s) (calls, w)).2.2.1 := by
      have ho : r.option = .sendBreak := ControlRequest.option_of_asksForBreak hbreak
      rw [Telnet.layerWire_control]
      by_cases hhere : r.option = .sendBreak ∧ r.depth.targetsHere = true
      · rw [if_pos hhere]
        exact written_writeAll (by decide) (written_write io n s hs (by decide) calls w)
      · rw [if_neg hhere, if_neg fun h => absurd (ho.symm.trans h.1) (by decide)]
        cases hlower : r.descend with
        | none => exact (hhere ⟨ho, ControlRequest.targetsHere_of_descend hlower⟩).elim
        | some lower =>
          rw [ControlRequest.asksForBreak_descend hlower hhere] at hbreak
          exact ih s hs hbreak
    exact keptBy_written _ _ _ hlayer

namespace Loopback

theorem StreamEnd.control_query (hget : r.get = true) (e : StreamEnd) : (e.control r).2 = e := by
  obtain ⟨depth, get, option, value⟩ := r
  obtain rfl : get = true := hget
  unfold StreamEnd.control
  split
  · cases option <;> rfl
  · rfl

theorem onlyAnswers : wire.OnlyAnswers := by
  intro r c h hget
  obtain ⟨name, link⟩ := c
  have hanswered (link : Link) (hlink : ∃ answer, link.control r h = (answer, h)) :
      (wire.control r ⟨name, link⟩ h).2 = (⟨name, link⟩, h) := by
    obtain ⟨answer, hanswer⟩ := hlink
    simp only [wire, onLink, hanswer]
  cases link with
  | datagram s =>
    apply hanswered
    simp only [Link.control]
    split <;> exact ⟨_, rfl⟩
  | shared hub peer =>
    apply hanswered
    simp only [Link.control]
    split <;> exact ⟨_, rfl⟩
  | stream i =>
    simp only [wire, onLink, Link.control, Host.onEnd]
    cases hi : h.ends[i]? with
    | none => rfl
    | some e =>
      obtain ⟨hlt, rfl⟩ := List.getElem?_eq_some_iff.1 hi
      have hsame := List.set_getElem_self hlt
      simp only [Prod.map_snd, id_eq, StreamEnd.control_query hget, hsame]

/-- A query changes nothing in an endpoint and its host, and writes nothing, if it does not ask a
layer for a break. If it does, and the handles are open, it writes like any other request for one:
layers do not look at whether it is a query. -/
theorem query_changes_nothing_iff (hget : r.get = true) (e : Endpoint Connection) (h : Host) :
    let record := ((watchedStack wire e.layers).control r e.state ([], h)).2.2.1
    (r.asksForBreak e.layers = false →
      ((Endpoint.wire wire).control r e h).2 = (e, h) ∧ ∀ c ∈ record, c.2.request?.isSome) ∧
      ((∀ o ∈ StackState.handles e.layers e.state, o = true) →
        (Written record ↔ r.asksForBreak e.layers = true)) := by
  intro record
  have hunmoved (hbreak : r.asksForBreak e.layers = false) :
      ((Endpoint.wire wire).control r e h).2 = (e, h) ∧ ∀ c ∈ record, c.2.request?.isSome := by
    obtain ⟨more, hmore, hasked⟩ :=
      unmovedBy_query onlyAnswers e.layers hget hbreak e.state [] h
    obtain ⟨hs, hw⟩ := Prod.ext_iff.1 hmore
    have hrecord : record = more := congrArg Prod.fst hw
    have hstart : SameState (Beside fun _ => True) (e.state, (([] : List (Nat × Call)), h))
      (e.state, h) := ⟨rfl, rfl, trivial⟩
    obtain ⟨-, hs', hw', -⟩ :=
      (mirrors_watchedStack wire (fun _ _ _ h => h) e.layers).control r hstart
    refine ⟨Prod.ext ?_ ?_, by rwa [hrecord]⟩
    · exact congrArg (Endpoint.mk e.layers) (hs'.symm.trans hs)
    · exact hw'.symm.trans (congrArg Prod.snd hw)
  refine ⟨hunmoved, fun hopen => ⟨?_, fun hbreak => ?_⟩⟩
  · rintro ⟨data, a, hwritten⟩
    cases hbreak : r.asksForBreak e.layers with
    | true => rfl
    | false => cases (hunmoved hbreak).2 _ hwritten
  · exact written_control wire e.layers e.state hopen hbreak [] h

/-- Two ends of a stream. -/
def streamPair : Host where
  isUp := true
  ends := [{ localAddress := .loopback 4000, remoteAddress := .loopback 4001, maxWrite := 16 },
    { localAddress := .loopback 4001, remoteAddress := .loopback 4000, maxWrite := 16 }]
  opposite := [1, 0]

/-- A layer on the first end. -/
def layeredStream : Endpoint Connection := Endpoint.ofLayers [.new {}] ⟨"tcp", .stream 0⟩

theorem query_changes_nothing_iff_layeredStream :
    ((Endpoint.wire wire).control ⟨.first, true, .noDelay, none⟩ layeredStream streamPair).2 =
        (layeredStream, streamPair) ∧
      Written ((watchedStack wire layeredStream.layers).control
        ⟨.layer 0, true, .sendBreak, none⟩ layeredStream.state ([], streamPair)).2.2.1 := by
  have hopen : ∀ o ∈ StackState.handles layeredStream.layers layeredStream.state, o = true := by
    decide
  exact ⟨((query_changes_nothing_iff rfl layeredStream streamPair).1 rfl).1,
    ((query_changes_nothing_iff rfl layeredStream streamPair).2 hopen).2 rfl⟩

/-- The other end of the stream gets a break for a query. -/
theorem query_sends_break :
    ((Endpoint.wire wire).control ⟨.layer 0, true, .sendBreak, none⟩ layeredStream streamPair).2 ≠
      (layeredStream, streamPair) := by
  intro h
  have hinbox := congrArg (fun x => x.2.ends.map StreamEnd.inbox) h
  revert hinbox
  decide +kernel

end Loopback

end Wirebench

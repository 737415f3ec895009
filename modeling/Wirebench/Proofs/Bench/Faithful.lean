import Wirebench.Proofs.Bench.Comparison
import Wirebench.Proofs.Bench.Slices
import Wirebench.Proofs.Loopback.Progress

namespace Wirebench

variable {S T W : Type}

/-- Two ends are in a world with some bytes on their way from the first end to the second one, and
some back. -/
abbrev Flight (S W : Type) : Type := S → S → W → List UInt8 → List UInt8 → Prop

/-- A write takes at least a byte, or waits as long as there is something to be read. A read gives
some of what is on its way, or waits when there is nothing. Being asked for its limit does not
matter to a sender, whatever it answers. -/
structure Wire.Faithful (io : Wire S W) (F : Flight S W) : Prop where
  swap : ∀ {a b w xs ys}, F a b w xs ys → F b a w ys xs
  query : ∀ {a b w xs ys}, F a b w xs ys → F (io.control Bench.packetQuery a w).2.1 b
    (io.control Bench.packetQuery a w).2.2 xs ys
  write : ∀ {a b w xs ys data}, F a b w xs ys → data ≠ [] → ∃ r a' w',
    io.write data a w = (r, a', w') ∧
      ((∃ k, 0 < k ∧ k ≤ data.length ∧ r = .ok k ∧ F a' b w' (xs ++ data.take k) ys) ∨
        r = .waiting ∧ xs ≠ [] ∧ F a' b w' xs ys)
  read : ∀ {a b w xs ys n}, F a b w xs ys → xs ≠ [] → 0 < n → ∃ bytes rest b' w',
    bytes ≠ [] ∧ bytes.length ≤ n ∧ bytes ++ rest = xs ∧
      io.read n b w = (.ok bytes, b', w') ∧ F a b' w' rest ys
  idle : ∀ {a b w ys n}, F a b w [] ys → 0 < n → ∃ b' w',
    io.read n b w = (.waiting, b', w') ∧ F a b' w' [] ys
  backlog : ∀ {a b w xs ys}, F a b w xs ys → xs.length ≤ io.backlog b w

namespace Wire.Faithful

variable {io : Wire S W} {F : Flight S W}

theorem wrote (h : io.Faithful F) {a b a' : S} {w w' : W} {xs ys data : List UInt8}
    {r : Outcome Nat} (hF : F a b w xs ys) (hdata : data ≠ [])
    (hw : io.write data a w = (r, a', w')) :
    (∃ k, 0 < k ∧ k ≤ data.length ∧ r = .ok k ∧ F a' b w' (xs ++ data.take k) ys) ∨
      r = .waiting ∧ xs ≠ [] ∧ F a' b w' xs ys := by
  obtain ⟨r', a'', w'', hw', hF'⟩ := h.write hF hdata
  cases hw.symm.trans hw'
  exact hF'

/-- What is written to the first end of such a pair is what comes to the second one. -/
theorem carries (h : io.Faithful F) (e : StreamError) :
    io.Carries (fun us a b w xs later => later = us ∧ ∃ ys, F a b w xs ys) e where
  write := by
    rintro data more a b w xs later ⟨rfl, ys, hF⟩ hdata
    obtain ⟨r, a', w', hw, ⟨k, hpos, hle, rfl, hF'⟩ | ⟨rfl, -, hF'⟩⟩ := h.write hF hdata
    · refine ⟨.ok k, data.drop k, data.take k, data.drop k ++ more, a', w', hw, ⟨rfl, ys, hF'⟩, ?_,
        .inl ⟨k, hpos, hle, rfl, rfl⟩⟩
      rw [← List.append_assoc, List.take_append_drop]
    · rw [← List.append_nil xs] at hF'
      exact ⟨.waiting, data, [], data ++ more, a', w', hw, ⟨rfl, ys, hF'⟩, rfl, .inr ⟨rfl, rfl⟩⟩
  piece := by
    rintro us a b w x xs later n ⟨rfl, ys, hF⟩ hn
    obtain ⟨bytes, rest, b', w', hbytes, hle, hsplit, hr, hF'⟩ :=
      h.read hF (List.cons_ne_nil x xs) hn
    obtain ⟨c, cs, rfl⟩ := List.exists_cons_of_ne_nil hbytes
    rw [List.cons_append] at hsplit
    obtain ⟨rfl, rfl⟩ := List.cons.inj hsplit
    refine ⟨cs.length, b', w', hle, ?_, ?_, rfl, ys, ?_⟩
    · rw [List.length_append]
      exact Nat.le_add_right _ _
    · rw [List.take_succ_cons, List.take_left, hr]
    · rwa [List.drop_left]
  idle := by
    rintro us a b w later n ⟨rfl, ys, hF⟩ hn
    obtain ⟨b', w', hr, hF'⟩ := h.idle hF hn
    exact ⟨.waiting, b', w', hr, ⟨rfl, ys, hF'⟩, .inl rfl⟩
  backlog := by
    rintro us a b w xs later ⟨-, ys, hF⟩
    exact h.backlog hF

theorem endpoints {io : Wire T W} {F : Flight T W} (h : io.Faithful F) :
    (Endpoint.wire io).Faithful fun a b w xs ys =>
      ∃ s t, a = .ofTransport s ∧ b = .ofTransport t ∧ F s t w xs ys where
  swap := by
    rintro a b w xs ys ⟨s, t, rfl, rfl, hF⟩
    exact ⟨t, s, rfl, rfl, h.swap hF⟩
  query := by
    rintro a b w xs ys ⟨s, t, rfl, rfl, hF⟩
    exact ⟨_, t, rfl, rfl, h.query hF⟩
  write := by
    rintro a b w xs ys data ⟨s, t, rfl, rfl, hF⟩ hdata
    obtain ⟨r, s', w', hw, hF'⟩ := h.write hF hdata
    have hw' : (Endpoint.wire io).write data (.ofTransport s) w =
        (r, .ofTransport s', w') := congrArg (fun x => (x.1, Endpoint.ofTransport x.2.1, x.2.2)) hw
    refine ⟨r, .ofTransport s', w', hw', ?_⟩
    rcases hF' with ⟨k, hpos, hle, hr, hF'⟩ | ⟨hr, hxs, hF'⟩
    · exact .inl ⟨k, hpos, hle, hr, s', t, rfl, rfl, hF'⟩
    · exact .inr ⟨hr, hxs, s', t, rfl, rfl, hF'⟩
  read := by
    rintro a b w xs ys n ⟨s, t, rfl, rfl, hF⟩ hxs hn
    obtain ⟨bytes, rest, t', w', hbytes, hle, hsplit, hr, hF'⟩ := h.read hF hxs hn
    exact ⟨bytes, rest, .ofTransport t', w', hbytes, hle, hsplit,
      congrArg (fun x => (x.1, Endpoint.ofTransport x.2.1, x.2.2)) hr, s, t', rfl, rfl, hF'⟩
  idle := by
    rintro a b w ys n ⟨s, t, rfl, rfl, hF⟩ hn
    obtain ⟨t', w', hr, hF'⟩ := h.idle hF hn
    exact ⟨.ofTransport t', w', congrArg (fun x => (x.1, Endpoint.ofTransport x.2.1, x.2.2)) hr,
      s, t', rfl, rfl, hF'⟩
  backlog := by
    rintro a b w xs ys ⟨s, t, rfl, rfl, hF⟩
    exact h.backlog hF

end Wire.Faithful

namespace Bench

variable {io : Wire S W} {F : Flight S W}

theorem faithful_writeOn (h : io.Faithful F) {a b : S} {w : W} {xs ys : List UInt8}
    (hF : F a b w xs ys) (todo : List (List UInt8)) : ∃ taken r rest a' w',
      writeOn io todo a w = (r, rest, a', w') ∧ F a' b w' (xs ++ taken) ys ∧
      taken ++ rest.flatten = todo.flatten ∧
      (r = .ok () ∧ rest = [] ∨ r = .waiting ∧ rest ≠ [] ∧ xs ++ taken ≠ []) := by
  fun_induction writeOn io todo a w generalizing xs with
  | case1 a w =>
    rw [← List.append_nil xs] at hF
    exact ⟨[], .ok (), [], a, w, rfl, hF, rfl, .inl ⟨rfl, rfl⟩⟩
  | case2 a w ps ih => exact ih hF
  | case3 a w c cs ps a' w' hw =>
    obtain ⟨_, hpos, _, ⟨⟩, _⟩ | ⟨⟨⟩, _⟩ := h.wrote hF (List.cons_ne_nil c cs) hw
    exact (Nat.lt_irrefl 0 hpos).elim
  | case4 a w c cs ps n a' w' hw ih =>
    obtain ⟨_, _, _, ⟨⟩, hF'⟩ | ⟨⟨⟩, _⟩ := h.wrote hF (List.cons_ne_nil c cs) hw
    obtain ⟨taken, r, rest, a'', w'', hlater, hF'', htaken, hr⟩ := ih hF'
    rw [List.append_assoc] at hF'' hr
    refine ⟨_, r, rest, a'', w'', hlater, hF'', ?_, hr⟩
    rw [List.append_assoc, htaken, List.flatten_cons, List.flatten_cons, ← List.append_assoc]
    exact congrArg (· ++ ps.flatten) (List.take_append_drop (n + 1) (c :: cs))
  | case5 a w c cs ps e a' w' hw =>
    obtain ⟨_, _, _, ⟨⟩, _⟩ | ⟨⟨⟩, _⟩ := h.wrote hF (List.cons_ne_nil c cs) hw
  | case6 a w c cs ps a' w' hw =>
    obtain ⟨_, _, _, ⟨⟩, _⟩ | ⟨-, hxs, hF'⟩ := h.wrote hF (List.cons_ne_nil c cs) hw
    rw [← List.append_nil xs] at hF' hxs
    exact ⟨[], .waiting, _, a', w', rfl, hF', rfl, .inr ⟨rfl, List.cons_ne_nil _ ps, hxs⟩⟩
  | case7 a w c cs ps a' w' hw =>
    obtain ⟨_, _, _, ⟨⟩, _⟩ | ⟨⟨⟩, _⟩ := h.wrote hF (List.cons_ne_nil c cs) hw

theorem faithful_readOn (h : io.Faithful F) {a b : S} {w : W} {xs ys : List UInt8}
    (hF : F a b w xs ys) (size : Nat) {fuel : Nat} (hfuel : xs.length < fuel) (received : Nat)
    (more : List UInt8) : ∃ received' b' w',
      readOn io size fuel received (xs ++ more) b w = (.ok (), (received', more), b', w') ∧
      F a b' w' [] ys := by
  induction fuel generalizing xs received b w with
  | zero => exact (Nat.not_lt_zero _ hfuel).elim
  | succ fuel ih =>
    rw [readOn]
    by_cases hempty : xs ++ more = []
    · obtain ⟨rfl, rfl⟩ := List.append_eq_nil_iff.1 hempty
      exact ⟨received, b, w, rfl, hF⟩
    · rw [if_neg hempty]
      have hsize := readSize_pos size (List.length_pos_iff.2 hempty)
      cases xs with
      | nil =>
        obtain ⟨b', w', hr, hF'⟩ := h.idle hF hsize
        refine ⟨received, b', w', ?_, hF'⟩
        rw [hr]
        rfl
      | cons x xs =>
        obtain ⟨bytes, rest, b', w', hbytes, -, hsplit, hr, hF'⟩ :=
          h.read hF (List.cons_ne_nil x xs) hsize
        have hfuel' : rest.length < fuel := by
          have hpos := List.length_pos_iff.2 hbytes
          rw [← hsplit, List.length_append] at hfuel
          omega
        obtain ⟨received', b'', w'', hread, hF''⟩ := ih hF' hfuel' (received + bytes.length)
        refine ⟨received', b'', w'', ?_, hF''⟩
        rw [hr, ← hsplit, List.append_assoc]
        simp only [List.take_left, List.drop_left, expectBytes_eq_ok_iff.2, hread]

/-- In every turn the reader reads all that is on its way. Either that was all, or it has been
something, since the writer waits for it. -/
theorem faithful_takeTurns (h : io.Faithful F) (p : Params) (size : Nat) {a b : S} {w : W}
    {xs ys expected : List UInt8} {todo : List (List UInt8)} (received : Nat)
    (hF : F a b w xs ys) (hexpected : xs ++ todo.flatten = expected) : ∃ a' b' w',
      takeTurns io p size todo received expected a b w = (.ok (), a', b', w') ∧
      F a' b' w' [] ys := by
  induction hlen : expected.length using Nat.strongRecOn
    generalizing a b w xs expected todo received with
  | _ len ih =>
    subst hlen hexpected
    obtain ⟨taken, r, rest, a', w', hw, hF', htaken, hr⟩ := faithful_writeOn h hF todo
    have hfuel := Nat.lt_succ_of_le (h.backlog hF')
    obtain ⟨received', b', w'', hread, hF''⟩ :=
      faithful_readOn h hF' size hfuel received rest.flatten
    rw [List.append_assoc, htaken] at hread
    rw [takeTurns]
    rcases hr with ⟨rfl, rfl⟩ | ⟨rfl, hrest, hsome⟩
    · refine ⟨a', b', w'', ?_, hF''⟩
      simp only [hw, writeFailure?, hread, List.flatten_nil, and_self, if_true]
    · have hless : rest.flatten.length < (xs ++ todo.flatten).length := by
        rw [← htaken, ← List.append_assoc, List.length_append]
        exact Nat.lt_add_of_pos_left (List.length_pos_iff.2 hsome)
      obtain ⟨a'', b'', w₃, hturns, hF₃⟩ := ih _ hless received' hF'' (List.nil_append _) rfl
      refine ⟨a'', b'', w₃, ?_, hF₃⟩
      simp only [hw, writeFailure?, hread, hrest, false_and, if_false, ne_eq, not_false_eq_true,
        hless, and_self, if_true, hturns]

/-- It has succeeded and left these bytes on their way. -/
def Leaves (F : Flight S W) (xs ys : List UInt8) (x : Except BenchError Unit × Link S W) : Prop :=
  x.1 = .ok () ∧ F x.2.source x.2.sink x.2.world xs ys

variable {l : Link S W} {ys : List UInt8}

theorem faithful_transfer (h : io.Faithful F) (p : Params) (data : List UInt8)
    (hF : F l.source l.sink l.world [] ys) : Leaves F [] ys (transfer io p data l) := by
  have hquery := h.query hF
  rw [transfer_eq p data rfl]
  obtain ⟨a, b, w, hturns, hF'⟩ := faithful_takeTurns h p data.length 0 hquery
    ((List.nil_append _).trans (flatten_pieces _ data))
  rw [hturns]
  exact ⟨rfl, hF'⟩

theorem faithful_bothWays (h : io.Faithful F) (p : Params) (data : List UInt8)
    (hF : F l.source l.sink l.world [] []) : Leaves F [] [] (bothWays (transfer io p data) l) := by
  have hfirst : Leaves F [] [] (transfer io p data (l.report .firstToSecond)) :=
    faithful_transfer h p data hF
  rw [bothWays]
  revert hfirst
  obtain ⟨r, l₁⟩ := transfer io p data (l.report .firstToSecond)
  rintro ⟨⟨⟩, hF₁⟩
  have hsecond : Leaves F [] [] (transfer io p data (l₁.report .secondToFirst).swap) :=
    faithful_transfer h p data (h.swap hF₁)
  revert hsecond
  simp only
  obtain ⟨r, l₂⟩ := transfer io p data (l₁.report .secondToFirst).swap
  rintro ⟨⟨⟩, hF₂⟩
  exact ⟨rfl, h.swap hF₂⟩

theorem faithful_run (h : io.Faithful F) (p : Params) {e : Exchange} (he : e.isOrdinary = true)
    (hF : F l.source l.sink l.world [] []) : Leaves F [] [] (e.run io p l) := by
  cases e with
  | data payload => exact faithful_bothWays h p payload hF
  | small => exact faithful_bothWays h _ smallPayload hF
  | random size => exact faithful_bothWays h p _ hF
  | urgent | fail => cases he

theorem faithful_runAll (h : io.Faithful F) {es : List (Params × Exchange)}
    (hes : ∀ e ∈ es, e.2.isOrdinary = true) (hF : F l.source l.sink l.world [] []) :
    Leaves F [] [] (runAll io es l) := by
  induction es generalizing l with
  | nil => exact ⟨rfl, hF⟩
  | cons e es ih =>
    obtain ⟨he, hes⟩ := List.forall_mem_cons.1 hes
    have hfirst := faithful_run h e.1 he hF
    rw [runAll]
    revert hfirst
    obtain ⟨r, l₁⟩ := e.2.run io e.1 l
    rintro ⟨⟨⟩, hF₁⟩
    exact ih hes hF₁

end Bench

namespace Loopback

/-- What is written at one end of a stream comes to the other one, where `xs` are to be read, more
may come, and a write takes something. -/
structure Host.Leads (h : Host) (i j : Nat) (xs : List UInt8) : Prop where
  opposite : h.opposite[i]? = some j
  reaches : ∃ e, h.ends[j]? = some e ∧ e.inbox = xs ∧ e.isEnded = false ∧ 0 < e.maxWrite

/-- The two ends of a stream. -/
def Joined : Flight Connection Host := fun a b h xs ys =>
  ∃ i j, i ≠ j ∧ a.link = .stream i ∧ b.link = .stream j ∧ h.Leads i j xs ∧ h.Leads j i ys

variable {h h' : Host} {i j : Nat} {xs ys : List UInt8}

theorem Host.Leads.frame (hlead : h.Leads i j xs) (hends : h'.ends[j]? = h.ends[j]?)
    (hopposite : h'.opposite = h.opposite) : h'.Leads i j xs where
  opposite := hopposite ▸ hlead.opposite
  reaches := by
    rw [hends]
    exact hlead.reaches

theorem Host.leads_set {e : StreamEnd} (hne : i ≠ j) (hthere : h.Leads i j xs)
    (hback : h.Leads j i ys) (hends : h'.ends = h.ends.set j e)
    (hopposite : h'.opposite = h.opposite) (hended : e.isEnded = false) (hmax : 0 < e.maxWrite) :
    h'.Leads i j e.inbox ∧ h'.Leads j i ys := by
  obtain ⟨e', hj, -⟩ := hthere.reaches
  constructor
  · refine ⟨hopposite ▸ hthere.opposite, e, ?_, rfl, hended, hmax⟩
    rw [hends]
    exact List.getElem?_set_self (List.getElem?_eq_some_iff.1 hj).1
  · refine hback.frame ?_ hopposite
    rw [hends]
    exact List.getElem?_set_ne hne.symm

theorem control_packetQuery {e : StreamEnd} (hi : h.ends[i]? = some e) (name : String) :
    (wire.control Bench.packetQuery ⟨name, .stream i⟩ h).2 = (⟨name, .stream i⟩, h) := by
  obtain ⟨hlt, rfl⟩ := List.getElem?_eq_some_iff.1 hi
  have hsame : { h with ends := h.ends.set i h.ends[i] } = h := by
    rw [List.set_getElem_self hlt]
  have hcontrol : (h.ends[i].control Bench.packetQuery).2 = h.ends[i] := rfl
  simp only [wire, onLink, Link.control, Host.onEnd, hi, Prod.map, hcontrol, id, hsame]

theorem faithful : wire.Faithful Joined where
  swap := by
    rintro a b h xs ys ⟨i, j, hne, ha, hb, hthere, hback⟩
    exact ⟨j, i, hne.symm, hb, ha, hback, hthere⟩
  query := by
    rintro ⟨name, _⟩ b h xs ys ⟨i, j, hne, rfl, hb, hthere, hback⟩
    obtain ⟨e, hi, -⟩ := hback.reaches
    rw [control_packetQuery hi]
    exact ⟨i, j, hne, rfl, hb, hthere, hback⟩
  write := by
    rintro ⟨name, _⟩ b h xs ys data ⟨i, j, hne, rfl, hb, hthere, hback⟩ hdata
    obtain ⟨e, hi, -, -, hmax⟩ := hback.reaches
    obtain ⟨e', hj, rfl, hended, hmax'⟩ := hthere.reaches
    have hpos : 0 < (e.take data).length := List.length_pos_iff.2 (take_ne_nil hmax hdata)
    have hle : (e.take data).length ≤ data.length := List.length_take_le' _ _
    have htaken : data.take (e.take data).length = e.take data :=
      (List.prefix_iff_eq_take.1 (List.take_prefix _ data)).symm
    have hother : h.opposite[i]? ≠ some i := by
      rw [hthere.opposite]
      exact fun hsame => hne (Option.some.inj hsame).symm
    have harrives : (h.atOpposite i (.receive (e.take data))).ends[j]? =
        some (e'.receive (e.take data)) := by
      rw [Host.atOpposite, hthere.opposite]
      exact (List.getElem?_modify_eq _ _ _).trans (congrArg _ hj)
    have hopposite := h.opposite_atOpposite i (.receive (e.take data))
    refine ⟨_, _, _, write_stream hi name data, .inl ⟨_, hpos, hle, rfl, ?_⟩⟩
    rw [htaken]
    have hthere' : (h.atOpposite i (.receive (e.take data))).Leads i j
        (e'.inbox ++ e.take data) :=
      ⟨hopposite ▸ hthere.opposite, e'.receive (e.take data), harrives, rfl, hended, hmax'⟩
    exact ⟨i, j, hne, rfl, hb, hthere', hback.frame (Host.ends_atOpposite hother _) hopposite⟩
  read := by
    rintro a ⟨name, _⟩ h xs ys n ⟨i, j, hne, ha, rfl, hthere, hback⟩ hxs hn
    obtain ⟨e, hj, rfl, hended, hmax⟩ := hthere.reaches
    obtain ⟨h', hread, hends, hopposite⟩ := read_stream_set hj name n
    have hgives : e.read n = (.ok (e.inbox.take n), { e with inbox := e.inbox.drop n }) :=
      if_neg fun hempty => hxs (List.isEmpty_iff.1 hempty)
    rw [hgives] at hread hends
    have hleads := Host.leads_set hne hthere hback hends hopposite hended hmax
    exact ⟨e.inbox.take n, e.inbox.drop n, _, h', take_ne_nil hn hxs, List.length_take_le _ _,
      List.take_append_drop n _, hread, i, j, hne, ha, rfl, hleads⟩
  idle := by
    rintro a ⟨name, _⟩ h ys n ⟨i, j, hne, ha, rfl, hthere, hback⟩ hn
    obtain ⟨e, hj, hempty, hended, hmax⟩ := hthere.reaches
    obtain ⟨h', hread, hends, hopposite⟩ := read_stream_set hj name n
    have hwaits : e.read n = (.waiting, e) := by
      rw [StreamEnd.read, hempty, hended]
      rfl
    rw [hwaits] at hread hends
    have hleads := Host.leads_set hne hthere hback hends hopposite hended hmax
    rw [hempty] at hleads
    exact ⟨_, h', hread, i, j, hne, ha, rfl, hleads⟩
  backlog := by
    rintro a ⟨name, _⟩ h xs ys ⟨i, j, -, -, rfl, hthere, -⟩
    obtain ⟨e, hj, rfl, -⟩ := hthere.reaches
    rw [backlog_stream hj]
    exact Nat.le_add_right _ _

end Loopback

namespace Bench

/-- What comes of exchanges between two ends when nothing is on its way to the second one, and
`ys` are on their way back. -/
structure ExchangesSucceed (io : Wire S W) (F : Flight S W) (p : Params) (data : List UInt8)
    (l : Link S W) (ys : List UInt8) : Prop where
  once : Leaves F [] ys (transfer io p data l)
  /-- What is offered to each write is within the limits, and the payload is taken and handed out
  byte by byte in its order. -/
  calls : ∀ calls, ∃ made, transfer io.watched p data (l.recorded calls) =
      (.ok (), (transfer io p data l).2.recorded (calls ++ made)) ∧
    (∀ c ∈ made,
      WithinLimits p (io.control packetQuery l.source l.world).1 data c.offered.length) ∧
    made.flatMap Call.taken = data ∧ made.flatMap Call.handed = data
  /-- Both ways the payload is carried, first there and then back. -/
  back : ys = [] → Leaves F [] [] (bothWays (transfer io p data) l) ∧
    Accounts io (fun _ io => bothWays (transfer io p data)) (data ++ data) l
  /-- Each of any exchanges carries its payload there and back before the next one begins. -/
  onward : ys = [] → ∀ es : List (Params × Exchange), (∀ e ∈ es, e.2.isOrdinary = true) →
    Leaves F [] [] (runAll io es l) ∧ Accounts io (fun _ io => runAll io es)
      (es.flatMap fun e => e.2.payload e.1 ++ e.2.payload e.1) l

/-- Over a faithful pair a transfer succeeds, whatever the payload, the limits and the answer of the
sender are, and leaves nothing on its way, so that exchanges both ways and any number of them
succeed. -/
theorem faithful_exchanges_succeed {io : Wire S W} {F : Flight S W} (h : io.Faithful F)
    (p : Params) (data : List UInt8) {l : Link S W} {ys : List UInt8}
    (hF : F l.source l.sink l.world [] ys) : ExchangesSucceed io F p data l ys where
  once := faithful_transfer h p data hF
  calls calls := by
    have hok := (faithful_transfer h p data hF).1
    obtain ⟨made, hrecord, hlimits, hcarried⟩ := transfer_watched io p data l calls
    rw [hok] at hrecord
    exact ⟨made, hrecord, hlimits, hcarried hok⟩
  back := by
    rintro rfl
    exact ⟨faithful_bothWays h p data hF, accounts_bothWays io p data l⟩
  onward := by
    rintro rfl es hes
    exact ⟨faithful_runAll h hes hF, accounts_runAll io hes l⟩

end Bench

namespace Loopback

/-- A stream whose ends take three and five bytes at a time. -/
def joinedHost : Host where
  isUp := true
  ends := [⟨.loopback 32768, .loopback 7, 3, false, [], none, false⟩,
    ⟨.loopback 7, .loopback 32768, 5, false, [], none, false⟩]
  opposite := [1, 0]

def joinedLink : Bench.Link (Endpoint Connection) Host :=
  ⟨.ofTransport ⟨"a", .stream 0⟩, .ofTransport ⟨"b", .stream 1⟩, joinedHost, []⟩

/-- The limit is no bytes at all, and one byte at a time is written all the same. -/
def stingy : Bench.Params := ⟨some 0, .ofMilliseconds 1000, 0, fun _ => []⟩

def unlimited : Bench.Params := ⟨none, .ofMilliseconds 1000, 4, (List.replicate · 7)⟩

theorem faithful_exchanges_succeed_stream :
    (Bench.transfer (Endpoint.wire wire) stingy [1, 2, 3, 4, 5] joinedLink).1 = .ok () ∧
      (Bench.runAll (Endpoint.wire wire)
        [(stingy, .data [1, 2, 3]), (unlimited, .random none), (stingy, .small)] joinedLink).1 =
          .ok () := by
  have hjoined : Joined ⟨"a", .stream 0⟩ ⟨"b", .stream 1⟩ joinedHost [] [] :=
    ⟨0, 1, by decide, rfl, rfl, ⟨rfl, _, rfl, rfl, rfl, by decide⟩,
      ⟨rfl, _, rfl, rfl, rfl, by decide⟩⟩
  have hall := Bench.faithful_exchanges_succeed faithful.endpoints stingy [1, 2, 3, 4, 5]
    (l := joinedLink) ⟨_, _, rfl, rfl, hjoined⟩
  exact ⟨hall.once.1, (hall.onward rfl _ (by decide)).1.1⟩

end Loopback

end Wirebench

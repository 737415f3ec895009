import Wirebench.Loopback.Network
import Wirebench.Proofs.Wire.Progress

namespace Wirebench

namespace Loopback

/-- What was there is read, of which at least a byte if a byte is asked for. -/
theorem StreamEnd.read_gives {e e' : StreamEnd} {n : Nat} {bytes : List UInt8}
    (h : e.read n = (.ok bytes, e')) :
    (0 < n → bytes ≠ []) ∧ bytes.length + e'.backlog ≤ e.backlog := by
  rw [read] at h
  split at h
  · split at h
    · split at h
      · next hzero =>
        cases h
        exact ⟨fun hn => (Nat.ne_of_gt hn hzero).elim, Nat.le_of_eq (Nat.zero_add _)⟩
      · cases h
    · cases h
  · next hinbox =>
    cases h
    have hsplit := congrArg List.length (List.take_append_drop n e.inbox)
    constructor
    · exact fun hn => take_ne_nil hn fun hnil => hinbox (List.isEmpty_iff.2 hnil)
    · simp only [backlog, List.length_append] at hsplit ⊢
      omega

theorem StreamEnd.read_moves (n : Nat) (e : StreamEnd) : (e.read n).1 ≠ .stalled := by
  rw [read]
  split
  · split
    · split
      · exact Outcome.ok_ne_stalled _
      · exact Outcome.error_ne_stalled _
    · exact Outcome.waiting_ne_stalled
  · exact Outcome.ok_ne_stalled _

theorem StreamEnd.read_maxWrite (n : Nat) (e : StreamEnd) : (e.read n).2.maxWrite = e.maxWrite := by
  rw [read]
  split <;> rfl

theorem StreamEnd.read_waiting {e : StreamEnd} {n : Nat} (h : (e.read n).1 = .waiting) :
    (e.read n).2 = e := by
  revert h
  rw [read]
  split
  · exact fun _ => rfl
  · exact fun hwaiting => by cases hwaiting

variable {h h' : Host} {i m : Nat} {e : StreamEnd}

theorem Link.read_stream (hi : h.ends[i]? = some e) (n : Nat) :
    ∃ h', Link.read n (.stream i) h = ((e.read n).1, h') ∧
      h'.ends = h.ends.set i (e.read n).2 ∧ h'.opposite = h.opposite := by
  have honEnd {h : Host} (hi : h.ends[i]? = some e) :
      h.onEnd i (.error .closed) (·.read n) =
        ((e.read n).1, { h with ends := h.ends.set i (e.read n).2 }) := by
    rw [Host.onEnd, hi]
  simp only [Link.read, Host.patiently, honEnd hi]
  split
  · next h₁ hwaits =>
    obtain ⟨hwaiting, rfl⟩ := Prod.mk.inj hwaits
    have hsame : h.ends.set i (e.read n).2 = h.ends := by
      rw [StreamEnd.read_waiting hwaiting]
      obtain ⟨hlt, rfl⟩ := List.getElem?_eq_some_iff.1 hi
      exact List.set_getElem_self hlt
    rw [hsame, honEnd (h := Host.settle _) hi]
    exact ⟨_, rfl, hsame, rfl⟩
  · exact ⟨_, rfl, rfl, rfl⟩

theorem Host.ends_atOpposite (hi : h.opposite[i]? ≠ some i) (f : StreamEnd → StreamEnd) :
    (h.atOpposite i f).ends[i]? = h.ends[i]? := by
  rw [atOpposite]
  cases hj : h.opposite[i]? with
  | none => rfl
  | some j =>
    have hne : j ≠ i := fun heq => hi (heq ▸ hj)
    exact List.getElem?_modify_ne f _ hne

theorem Host.opposite_atOpposite (h : Host) (i : Nat) (f : StreamEnd → StreamEnd) :
    (h.atOpposite i f).opposite = h.opposite := by
  rw [atOpposite]
  split <;> rfl

/-- A stream whose writes take so many bytes at most. What is written comes to another end. -/
def StreamOf (m : Nat) (x : Connection) (h : Host) : Prop :=
  ∃ i e, x.link = .stream i ∧ h.ends[i]? = some e ∧ e.maxWrite = m ∧ h.opposite[i]? ≠ some i

theorem write_stream (hi : h.ends[i]? = some e) (name : String) (data : List UInt8) :
    wire.write data ⟨name, .stream i⟩ h =
      (.ok (e.take data).length, ⟨name, .stream i⟩, h.atOpposite i (.receive (e.take data))) := by
  simp only [wire, onLink, Link.write, Host.writeStream, hi]

theorem read_stream_set (hi : h.ends[i]? = some e) (name : String) (n : Nat) :
    ∃ h', wire.read n ⟨name, .stream i⟩ h = ((e.read n).1, ⟨name, .stream i⟩, h') ∧
      h'.ends = h.ends.set i (e.read n).2 ∧ h'.opposite = h.opposite := by
  obtain ⟨h', hread, hrest⟩ := Link.read_stream hi n
  refine ⟨h', ?_, hrest⟩
  simp only [wire, onLink, hread]

theorem read_stream (hi : h.ends[i]? = some e) (name : String) (n : Nat) :
    ∃ h', wire.read n ⟨name, .stream i⟩ h = ((e.read n).1, ⟨name, .stream i⟩, h') ∧
      h'.ends[i]? = some (e.read n).2 ∧ h'.opposite = h.opposite := by
  obtain ⟨h', hread, hends, hopposite⟩ := read_stream_set hi name n
  refine ⟨h', hread, ?_, hopposite⟩
  rw [hends]
  exact List.getElem?_set_self (List.getElem?_eq_some_iff.1 hi).1

/-- A read of nothing finds out that there is something, and leaves it there. -/
theorem read_nothing (hi : h.ends[i]? = some e) (hinbox : e.inbox ≠ []) (name : String) :
    wire.read 0 ⟨name, .stream i⟩ h = (.ok [], ⟨name, .stream i⟩, h) := by
  obtain ⟨hlt, rfl⟩ := List.getElem?_eq_some_iff.1 hi
  have hsame := List.set_getElem_self hlt
  have hread : h.ends[i].read 0 = (.ok [], h.ends[i]) := by
    rw [StreamEnd.read, if_neg fun hempty => hinbox (List.isEmpty_iff.1 hempty)]
    rfl
  simp only [wire, onLink, Link.read, Host.patiently, Host.onEnd, hi, hread, hsame]

theorem backlog_stream (hi : h.ends[i]? = some e) (name : String) :
    wire.backlog ⟨name, .stream i⟩ h = e.backlog := by
  simp only [wire, Link.backlog, hi, Option.map_some, Option.getD_some]

theorem getsOn_stream (hm : 0 < m) : wire.GetsOn (StreamOf m) where
  write := by
    rintro ⟨name, _⟩ h data ⟨i, e, rfl, hi, rfl, hother⟩
    rw [write_stream hi]
    refine ⟨⟨i, e, rfl, ?_, rfl, ?_⟩, Outcome.ok_ne_stalled _⟩
    · exact (Host.ends_atOpposite hother _).trans hi
    · rwa [Host.opposite_atOpposite]
  takes := by
    rintro ⟨name, _⟩ h data ⟨i, e, rfl, hi, rfl, hother⟩ hdata
    rw [write_stream hi]
    intro hzero
    have hlength : (data.take e.maxWrite).length = 0 := Outcome.ok.inj hzero
    exact take_ne_nil hm hdata (List.length_eq_zero_iff.1 hlength)
  quiet := by
    rintro ⟨name, _⟩ h data ⟨i, e, rfl, hi, rfl, hother⟩
    have hi' := (Host.ends_atOpposite hother (.receive (e.take data))).trans hi
    rw [write_stream hi]
    exact Nat.le_of_eq ((backlog_stream hi' name).trans (backlog_stream hi name).symm)
  read := by
    rintro ⟨name, _⟩ h n ⟨i, e, rfl, hi, rfl, hother⟩
    obtain ⟨h', hread, hend, hopposite⟩ := read_stream hi name n
    rw [hread]
    exact ⟨⟨i, _, rfl, hend, e.read_maxWrite n, hopposite ▸ hother⟩, e.read_moves n⟩
  gives := by
    rintro ⟨name, _⟩ h n bytes x' h' ⟨i, e, rfl, hi, rfl, hother⟩ hgives
    obtain ⟨h₁, hread, hend, -⟩ := read_stream hi name n
    rw [hread] at hgives
    obtain ⟨hbytes, hrest⟩ := Prod.mk.inj hgives
    obtain ⟨rfl, rfl⟩ := Prod.mk.inj hrest
    rw [backlog_stream hi, backlog_stream hend]
    exact StreamEnd.read_gives (Prod.ext hbytes rfl)

theorem Host.ends_connectStream {target : SocketAddress}
    (hpaired : h.opposite.length = h.ends.length)
    (hi : h.connectStream m target = (.ok i, h')) :
    ∃ e, h'.ends[i]? = some e ∧ e.maxWrite = m ∧ h'.opposite[i]? ≠ some i := by
  have hlast {α : Type} (xs ys : List α) (k : Nat) (hk : k = xs.length) :
      (xs ++ ys)[k]? = ys[0]? := by
    rw [hk, List.getElem?_append_right (Nat.le_refl _), Nat.sub_self]
  rw [connectStream] at hi
  split at hi
  · cases hi
  · dsimp only at hi
    split at hi
    · cases hi
    · cases hi
      refine ⟨_, hlast _ _ _ rfl, rfl, ?_⟩
      intro hsame
      have hnext := (hlast h.opposite _ h.ends.length hpaired.symm).symm.trans hsame
      exact Nat.succ_ne_self _ (Option.some.inj hnext)

theorem streamOf_connect {d : Descriptor} {config : EndpointConfig} {x : Connection}
    (hd : d.protocol = .tcp) (hpaired : h.opposite.length = h.ends.length)
    (hx : connect d config h = (.ok x, h')) : StreamOf config.readBufferSize.toNat x h' := by
  have hlocated :
      (h.locate d.transport).2.opposite.length = (h.locate d.transport).2.ends.length := by
    rw [Host.locate]
    split <;> exact hpaired
  rw [connect] at hx
  split at hx
  · cases hx
  · cases hx
  · next port _ target h₁ hport hlocate =>
    rw [hlocate] at hlocated
    rw [hd] at hx
    dsimp only at hx
    cases hc : h₁.connectStream config.readBufferSize.toNat target with
    | mk r h₂ =>
      rw [hc] at hx
      cases r with
      | error f => cases hx
      | ok i =>
        cases hx
        obtain ⟨e, hend, hmax, hother⟩ := Host.ends_connectStream hlocated hc
        exact ⟨i, e, rfl, hend, hmax, hother⟩

end Loopback

end Wirebench

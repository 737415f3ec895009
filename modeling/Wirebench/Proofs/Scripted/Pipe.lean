import Wirebench.Proofs.Telnet.Carrier

namespace Wirebench.Scripted

open Telnet (Lines Lossless)

/-- The side takes all that is written to it and hands it on as it is. -/
structure PipeEnd.IsFaithful (p : PipeEnd) : Prop where
  fault : p.fault = {}
  gone : p.gone = false
  writeFail : p.device.writeFail = none
  maxWrite : p.device.maxWrite ≠ some 0

namespace PipeEnd

def portion (p : PipeEnd) (data : List UInt8) : List UInt8 :=
  data.take (p.device.maxWrite.getD data.length)

def afterWrite (p : PipeEnd) (bytes : List UInt8) : PipeEnd :=
  { p.note (.wrote bytes) with
    device := { p.device with written := p.device.written + bytes.length } }

def afterArrival (p : PipeEnd) (bytes : List UInt8) : PipeEnd :=
  { p with inbox := p.inbox ++ [bytes] }

theorem IsFaithful.afterWrite {p : PipeEnd} (h : p.IsFaithful) (bytes : List UInt8) :
    (p.afterWrite bytes).IsFaithful := ⟨h.fault, h.gone, h.writeFail, h.maxWrite⟩

theorem IsFaithful.afterArrival {p : PipeEnd} (h : p.IsFaithful) (bytes : List UInt8) :
    (p.afterArrival bytes).IsFaithful := ⟨h.fault, h.gone, h.writeFail, h.maxWrite⟩

theorem IsFaithful.portion_eq {p : PipeEnd} (h : p.IsFaithful) {data : List UInt8}
    (hdata : data ≠ []) : ∃ k, (p.portion data).length = k + 1 ∧
      p.portion data = data.take (k + 1) := by
  have hlen := List.length_pos_iff.2 hdata
  have hmax := h.maxWrite
  cases hw : p.device.maxWrite with
  | none =>
    apply Exists.intro (data.length - 1)
    constructor
    · rw [portion, hw, Option.getD_none, List.take_length]
      omega
    · rw [portion, hw, Option.getD_none, Nat.sub_add_cancel hlen]
  | some n =>
    have hn : n ≠ 0 := by
      rintro rfl
      exact hmax hw
    apply Exists.intro (min n data.length - 1)
    constructor
    · rw [portion, hw, Option.getD_some, List.length_take]
      omega
    · rw [portion, hw, Option.getD_some, Nat.sub_add_cancel (by omega), List.take_eq_take_min]

end PipeEnd

namespace Pipe

/-- The messages that have arrived at a side are the bytes on the way to it. -/
def lines : Lines Pipe where
  coming side w := (w.get side).inbox.flatten
  intact w := ∀ side, (w.get side).IsFaithful

@[simp] theorem get_set (w : Pipe) (side : Side) (p : PipeEnd) : (w.set side p).get side = p := by
  cases side <;> rfl

@[simp] theorem get_set_other (w : Pipe) (side : Side) (p : PipeEnd) :
    (w.set side p).get side.other = w.get side.other := by
  cases side <;> rfl

@[simp] theorem get_set_of_other (w : Pipe) (side : Side) (p : PipeEnd) :
    (w.set side.other p).get side = w.get side := by
  cases side <;> rfl

theorem moved_set {w : Pipe} (hw : lines.intact w) (side : Side) {p : PipeEnd}
    (hp : p.IsFaithful) {bytes : List UInt8}
    (hinbox : (w.get side).inbox.flatten = bytes ++ p.inbox.flatten) :
    lines.Moved side bytes [] w (w.set side p) where
  intact := by
    refine Side.forall_of_other side ?_ ?_
    · rwa [get_set]
    · rw [get_set_other]
      exact hw side.other
  took := by
    simp only [lines, get_set]
    exact hinbox
  put := by simp only [lines, get_set_other, List.append_nil]

theorem receive_flatten (n : Nat) (done : Bool) (messages : List (List UInt8)) :
    messages.flatten =
      (receive n done messages).1.gained ++ (receive n done messages).2.flatten := by
  cases messages with
  | nil => cases done <;> rfl
  | cons message rest =>
    simp only [receive, takeMessage, Outcome.gained]
    split
    · next hle => rw [List.take_of_length_le hle, List.flatten_cons]
    · rw [List.flatten_cons, List.flatten_cons, ← List.append_assoc, List.take_append_drop]

theorem write_eq {side : Side} {w : Pipe} (hw : lines.intact w) (data : List UInt8) :
    write data side w =
      (.ok ((w.get side).portion data).length,
        (w.set side ((w.get side).afterWrite ((w.get side).portion data))).set side.other
          ((w.get side.other).afterArrival ((w.get side).portion data))) := by
  have htake : (w.get side).device.take data = .ok ((w.get side).portion data) := by
    rw [Device.take, (hw side).writeFail]
    rfl
  have hgone : ¬(w.get side.other).gone = true := by
    rw [(hw side.other).gone]
    exact Bool.false_ne_true
  simp only [write, htake]
  rw [get_set_other, if_neg hgone, (hw side).fault]
  rfl

theorem moved_write {w : Pipe} (hw : lines.intact w) (side : Side) (data : List UInt8) :
    lines.Moved side [] ((w.get side).portion data) w
      ((w.set side ((w.get side).afterWrite ((w.get side).portion data))).set side.other
        ((w.get side.other).afterArrival ((w.get side).portion data))) where
  intact := by
    refine Side.forall_of_other side ?_ ?_
    · rw [get_set_of_other, get_set]
      exact (hw side).afterWrite _
    · rw [get_set]
      exact (hw side.other).afterArrival _
  took := by
    simp only [lines, get_set_of_other, get_set]
    rfl
  put := by
    simp only [lines, get_set, PipeEnd.afterArrival, List.flatten_append, List.flatten_cons,
      List.flatten_nil, List.append_nil]

theorem lossless : Lossless lines PipeHandle.side wire where
  read := by
    intro n h w r h' w' hw hr
    simp only [wire, onSide, read, Prod.mk.injEq] at hr
    obtain ⟨rfl, rfl, rfl⟩ := hr
    obtain ⟨hfault, hgone, hfail, hmax⟩ := hw h.side
    apply And.intro rfl
    apply moved_set hw h.side
    · exact ⟨hfault, hgone, hfail, hmax⟩
    · exact receive_flatten n _ _
  write := by
    intro data h w hw hdata
    obtain ⟨k, hk, hportion⟩ := (hw h.side).portion_eq hdata
    have hm := moved_write hw h.side data
    rw [hportion] at hm
    refine ⟨k, h, _, ?_, rfl, hm⟩
    rw [← hportion]
    simp only [wire, onSide, write_eq hw, hk]
  control := by
    intro request h w r h' w' hw hr
    simp only [wire, onSide, Prod.mk.injEq] at hr
    obtain ⟨rfl, rfl, rfl⟩ := hr
    obtain ⟨hfault, hgone, hfail, hmax⟩ := hw h.side
    apply And.intro rfl
    apply moved_set hw h.side
    · exact ⟨hfault, hgone, hfail, hmax⟩
    · rfl

end Pipe

end Wirebench.Scripted

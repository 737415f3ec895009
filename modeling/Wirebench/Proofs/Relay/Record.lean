import Mathlib.Data.List.Basic
import Wirebench.Proofs.Relay.Trace
import Wirebench.Proofs.Wire.Calls

namespace Wirebench

variable {S W N α β : Type}

/-- What is left of an outcome without a value. -/
def Outcome.failing : Outcome α → Option (Outcome β)
  | ok _ => none
  | error e => some (.error e)
  | waiting => some .waiting
  | stalled => some .stalled

@[simp] theorem Outcome.failing_map (f : α → β) {γ : Type} (r : Outcome α) :
    (r.map f).failing (β := γ) = r.failing := by
  cases r <;> rfl

namespace Wire

/-- An operation on a state that has a name. -/
def underName (op : S → W → α × S × W) (s : N × S) (w : W) : α × (N × S) × W :=
  let (r, t, w) := op s.2 w
  (r, (s.1, t), w)

/-- The same wire on states that have names. -/
def named (io : Wire S W) (N : Type) : Wire (N × S) W where
  name s := io.name s.2
  read n := underName (io.read n)
  write data := underName (io.write data)
  writeUrgent data := underName (io.writeUrgent data)
  readUrgent n := underName (io.readUrgent n)
  control request := underName (io.control request)
  close := underName io.close
  discard s w := io.discard s.2 w
  backlog s w := io.backlog s.2 w

end Wire

namespace Relay

inductive Side
  | near
  | far
  deriving DecidableEq, Repr

/-- Something that a relay does, with what comes of it: a call on one of its sides, or a call of the
handler. -/
inductive Act
  | call (side : Side) (c : Call)
  | command (c : UInt8) (answer : Outcome Bool)
  | sequence (bytes : List UInt8) (answer : Outcome Unit)
  deriving DecidableEq, Repr

def breakRequest : ControlRequest := ⟨.first, false, .sendBreak, none⟩

/-- With what a relay stops at the end of a side. -/
def Side.exit : Side → Exit
  | near => .nearClosed
  | far => .farClosed

/-- With what a relay stops after a read from a side. When there is nothing to read, it goes on. -/
def Side.stopAfterRead (side : Side) : Outcome (List UInt8) → Option (Outcome Exit)
  | .ok _ | .waiting => none
  | .error .remoteClosed => some (.ok side.exit)
  | .error e => some (.error e)
  | .stalled => some .stalled

/-- With what a relay stops after a write. One that takes nothing is repeated forever. -/
def stopAfterWrite : Outcome Nat → Option (Outcome Exit)
  | .ok (_ + 1) => none
  | .ok 0 | .stalled => some .stalled
  | .error e => some (.error e)
  | .waiting => some .waiting

end Relay

namespace Call

open Relay (Effect)

/-- The effects of a call on the far side. -/
def effects : Call → List Effect
  | control _ r => [.breakSignal (Relay.breakAnswer r)]
  | c => c.taken.map .byte

/-- A write that takes nothing counts as one that fails. -/
def isFailedWrite : Call → Bool
  | write _ r => (Relay.stopAfterWrite r).isSome
  | read .. | writeUrgent .. | readUrgent .. | control .. | close _ => false

end Call

namespace Relay

namespace Act

def handed (side : Side) : Act → List UInt8
  | call s c => if s = side then c.handed else []
  | command .. | sequence .. => []

def taken (side : Side) : Act → List UInt8
  | call s c => if s = side then c.taken else []
  | command .. | sequence .. => []

def effects : Act → List Effect
  | call .near _ => []
  | call .far c => c.effects
  | command c r => [.command c r]
  | sequence bytes r => [.sequence bytes r]

/-- With what the relay stops after the act: it has met the end of a side, or it cannot go on. -/
def stop : Act → Option (Outcome Exit)
  | call side (.read _ r) => side.stopAfterRead r
  | call _ (.write _ r) => stopAfterWrite r
  | call _ (.control _ r) => (breakAnswer r).failing
  | call _ (.writeUrgent ..) | call _ (.readUrgent ..) | call _ (.close _) => none
  | command _ r => r.failing
  | sequence _ r => r.failing

def isFailedWrite : Act → Bool
  | call _ c => c.isFailedWrite
  | command .. | sequence .. => false

/-- What the escape processing has to do. -/
inductive Outward : Act → Prop
  | write (data r) : Outward (.call .far (.write data r))
  | breakSignal (r) : Outward (.call .far (.control breakRequest r))
  | command (c r) : Outward (.command c r)
  | sequence (bytes r) : Outward (.sequence bytes r)

theorem Outward.handed {a : Act} (h : a.Outward) (side : Side) : a.handed side = [] := by
  cases h with
  | write | breakSignal => exact ite_self []
  | command | sequence => rfl

theorem Outward.taken {a : Act} (h : a.Outward) : a.taken .near = [] := by
  cases h <;> rfl

end Act

def handed (side : Side) (acts : List Act) : List UInt8 := acts.flatMap (Act.handed side)

def taken (side : Side) (acts : List Act) : List UInt8 := acts.flatMap (Act.taken side)

def effectsOf (acts : List Act) : List Effect := acts.flatMap Act.effects

/-- Every write has taken something. -/
def WritesSucceed (acts : List Act) : Prop := ∀ a ∈ acts, a.isFailedWrite = false

instance (acts : List Act) : Decidable (WritesSucceed acts) :=
  inferInstanceAs (Decidable (∀ a ∈ acts, a.isFailedWrite = false))

/-- No act stops the relay, or the last one does and no other. -/
inductive EndsIn : List Act → Option (Outcome Exit) → Prop
  | going {acts} (h : ∀ a ∈ acts, a.stop = none) : EndsIn acts none
  | stopped {acts a x} (h : ∀ b ∈ acts, b.stop = none) (ha : a.stop = some x) :
    EndsIn (acts ++ [a]) (some x)

variable {acts acts' log : List Act} {x : Option (Outcome Exit)}

theorem handed_append (side : Side) (acts acts' : List Act) :
    handed side (acts ++ acts') = handed side acts ++ handed side acts' :=
  List.flatMap_append

theorem taken_append (side : Side) (acts acts' : List Act) :
    taken side (acts ++ acts') = taken side acts ++ taken side acts' :=
  List.flatMap_append

theorem effectsOf_append (acts acts' : List Act) :
    effectsOf (acts ++ acts') = effectsOf acts ++ effectsOf acts' :=
  List.flatMap_append

theorem WritesSucceed.append :
    WritesSucceed (acts ++ acts') ↔ WritesSucceed acts ∧ WritesSucceed acts' :=
  List.forall_mem_append

theorem handed_of_outward (h : ∀ a ∈ acts, a.Outward) (side : Side) : handed side acts = [] :=
  List.flatMap_eq_nil_iff.2 fun a ha => (h a ha).handed side

theorem taken_of_outward (h : ∀ a ∈ acts, a.Outward) : taken .near acts = [] :=
  List.flatMap_eq_nil_iff.2 fun a ha => (h a ha).taken

theorem EndsIn.single (a : Act) : EndsIn [a] a.stop := by
  cases ha : a.stop with
  | none =>
    apply EndsIn.going
    intro b hb
    rw [List.mem_singleton.1 hb, ha]
  | some x => exact .stopped (List.forall_mem_nil _) ha

theorem EndsIn.append (h : EndsIn acts none) (h' : EndsIn acts' x) : EndsIn (acts ++ acts') x := by
  cases h with
  | going h =>
    cases h' with
    | going h' =>
      apply EndsIn.going
      exact List.forall_mem_append.2 ⟨h, h'⟩
    | stopped h' ha =>
      rw [← List.append_assoc]
      exact .stopped (List.forall_mem_append.2 ⟨h, h'⟩) ha

end Relay

/-- The same wire at both sides of a relay, with a record of the calls. -/
def Wire.recorded (io : Wire S W) : Wire (Relay.Side × S) (List Relay.Act × W) :=
  ((io.named Relay.Side).beside (List Relay.Act)).noted fun s c => .call s.1 c

namespace Relay

theorem recorded_read (io : Wire S W) (n : Nat) (side : Side) (s : S) (log : List Act) (w : W) :
    io.recorded.read n (side, s) (log, w) =
      ((io.read n s w).1, (side, (io.read n s w).2.1),
        (log ++ [.call side (.read n (io.read n s w).1)], (io.read n s w).2.2)) := rfl

theorem recorded_write (io : Wire S W) (data : List UInt8) (side : Side) (s : S) (log : List Act)
    (w : W) : io.recorded.write data (side, s) (log, w) =
      ((io.write data s w).1, (side, (io.write data s w).2.1),
        (log ++ [.call side (.write data (io.write data s w).1)], (io.write data s w).2.2)) := rfl

variable {H : Type} {acts acts' log : List Act} {x : Option (Outcome Exit)}

/-- The same handler, with its calls in the record. -/
def Handler.recorded (hd : Handler H S W) : Handler H (Side × S) (List Act × W) where
  command c h far v :=
    let (r, h, s, w) := hd.command c h far.2 v.2
    (r, h, (far.1, s), (v.1 ++ [.command c r], w))
  sequence bytes h far v :=
    let (r, h, s, w) := hd.sequence bytes h far.2 v.2
    (r, h, (far.1, s), (v.1 ++ [.sequence bytes r], w))

def Progress.recorded (log : List Act) (p : Progress H S W) :
    Progress H (Side × S) (List Act × W) :=
  ⟨p.escape, p.pending, p.handler, (.far, p.far), (log, p.world)⟩

/-- The acts by which data is written to a side. -/
structure Writing (side : Side) (data : List UInt8) (acts : List Act) (r : Outcome Unit) :
    Prop where
  writes : ∀ a ∈ acts, ∃ bytes n, a = .call side (.write bytes n)
  ends : EndsIn acts r.failing
  all : r = .ok () → taken side acts = data

theorem Writing.nil (side : Side) : Writing side [] [] (.ok ()) :=
  ⟨List.forall_mem_nil _, .going (List.forall_mem_nil _), fun _ => rfl⟩

theorem Writing.failed (side : Side) (data : List UInt8) {n : Outcome Nat} {r : Outcome Unit}
    {failure : Outcome Exit} (hr : r.failing = some failure)
    (hstop : (Act.call side (.write data n)).stop = some failure) :
    Writing side data [.call side (.write data n)] r where
  writes := by
    intro a ha
    exact ⟨data, n, List.mem_singleton.1 ha⟩
  ends := by
    rw [hr, ← hstop]
    exact .single _
  all h := by
    rw [h] at hr
    cases hr

theorem Writing.cons {side : Side} {b : UInt8} {bs : List UInt8} {n : Nat} {r : Outcome Unit}
    (h : Writing side (bs.drop n) acts r) :
    Writing side (b :: bs) (.call side (.write (b :: bs) (.ok (n + 1))) :: acts) r where
  writes := by
    rintro a (_ | ⟨_, ha⟩)
    · exact ⟨b :: bs, .ok (n + 1), rfl⟩
    · exact h.writes a ha
  ends := EndsIn.append (.single (.call side (.write (b :: bs) (.ok (n + 1))))) h.ends
  all hr := by
    have htaken : (Act.call side (.write (b :: bs) (.ok (n + 1)))).taken side = b :: bs.take n :=
      if_pos rfl
    have hrest : taken side acts = bs.drop n := h.all hr
    calc
      taken side (.call side (.write (b :: bs) (.ok (n + 1))) :: acts)
        = (b :: bs.take n) ++ taken side acts := by rw [taken, List.flatMap_cons, htaken]; rfl
      _ = b :: bs := by rw [hrest, List.cons_append, List.take_append_drop]

theorem writeAll_recorded (io : Wire S W) (side : Side) (data : List UInt8) (s : S)
    (log : List Act) (w : W) : ∃ acts,
      io.recorded.writeAll data (side, s) (log, w) =
        ((io.writeAll data s w).1, (side, (io.writeAll data s w).2.1),
          (log ++ acts, (io.writeAll data s w).2.2)) ∧
      Writing side data acts (io.writeAll data s w).1 := by
  -- A write can take more than one byte, so the induction is on the length of what is left.
  induction hlen : data.length using Nat.strongRecOn generalizing data s log w with
  | _ len ih =>
    subst hlen
    cases data with
    | nil =>
      rw [Wire.writeAll, Wire.writeAll]
      refine ⟨[], ?_, .nil side⟩
      rw [List.append_nil]
    | cons b bs =>
      rw [Wire.writeAll, Wire.writeAll, recorded_write]
      obtain ⟨r, s₁, w₁⟩ := io.write (b :: bs) s w
      dsimp only
      cases r with
      | ok n =>
        cases n with
        | zero => exact ⟨_, rfl, .failed side _ rfl rfl⟩
        | succ n =>
          have hlt : (bs.drop n).length < (b :: bs).length := by
            simp only [List.length_drop, List.length_cons]
            omega
          obtain ⟨acts, heq, hwriting⟩ := ih _ hlt (bs.drop n) s₁
            (log ++ [.call side (.write (b :: bs) (.ok (n + 1)))]) w₁ rfl
          rw [List.append_assoc] at heq
          exact ⟨_, heq, hwriting.cons⟩
      | error e => exact ⟨_, rfl, .failed side _ rfl rfl⟩
      | waiting => exact ⟨_, rfl, .failed side _ rfl rfl⟩
      | stalled => exact ⟨_, rfl, .failed side _ rfl rfl⟩

theorem Writing.ok {side : Side} {data : List UInt8} {r : Outcome Unit}
    (h : Writing side data acts r) (hwrites : WritesSucceed acts) : r = .ok () := by
  obtain ⟨hall, hends, -⟩ := h
  cases r with
  | ok => rfl
  | error | waiting | stalled =>
    cases hends with
    | @stopped earlier a _ _ ha =>
      have hlast : a ∈ earlier ++ [a] := List.mem_append_right _ (List.mem_singleton_self a)
      obtain ⟨bytes, n, rfl⟩ := hall a hlast
      have hfailed : (stopAfterWrite n).isSome = false := hwrites _ hlast
      have hstop : stopAfterWrite n = some _ := ha
      rw [hstop] at hfailed
      cases hfailed

theorem Writing.outward {data : List UInt8} {r : Outcome Unit} (h : Writing .far data acts r) :
    ∀ a ∈ acts, a.Outward := by
  intro a ha
  obtain ⟨bytes, n, rfl⟩ := h.writes a ha
  exact .write bytes n

theorem Writing.effectsOf_far {data : List UInt8} (h : Writing .far data acts (.ok ())) :
    effectsOf acts = data.map .byte := by
  rw [← h.all rfl, taken, List.map_flatMap]
  apply List.flatMap_congr
  intro a ha
  obtain ⟨bytes, n, rfl⟩ := h.writes a ha
  rfl

theorem Writing.effectsOf_near {data : List UInt8} {r : Outcome Unit}
    (h : Writing .near data acts r) : effectsOf acts = [] := by
  apply List.flatMap_eq_nil_iff.2
  intro a ha
  obtain ⟨bytes, n, rfl⟩ := h.writes a ha
  rfl

theorem Writing.handed {side : Side} {data : List UInt8} {r : Outcome Unit}
    (h : Writing side data acts r) (other : Side) : handed other acts = [] := by
  apply List.flatMap_eq_nil_iff.2
  intro a ha
  obtain ⟨bytes, n, rfl⟩ := h.writes a ha
  exact ite_self []

theorem writing_of_writeAll {io : Wire S W} {side : Side} {data : List UInt8} {s t : Side × S}
    {v v' : List Act × W} {r : Outcome Unit} (hs : s.1 = side)
    (h : io.recorded.writeAll data s v = (r, t, v')) :
    ∃ acts, t.1 = side ∧ v'.1 = v.1 ++ acts ∧ Writing side data acts r := by
  obtain ⟨name, s⟩ := s
  obtain rfl : name = side := hs
  obtain ⟨acts, heq, hwriting⟩ := writeAll_recorded io name data s v.1 v.2
  rw [show (v.1, v.2) = v from rfl, h] at heq
  simp only [Prod.mk.injEq] at heq
  obtain ⟨rfl, rfl, rfl⟩ := heq
  exact ⟨acts, rfl, rfl, hwriting⟩

/-- A piece of the escape processing acts in the same way when a record is kept. What it does is to
be found there. -/
structure KeepsRecord (q : Outcome α × Progress H S W) (log : List Act)
    (q' : Outcome α × Progress H (Side × S) (List Act × W)) (acts : List Act) : Prop where
  same : q' = (q.1, q.2.recorded (log ++ acts))
  outward : ∀ a ∈ acts, a.Outward
  ends : EndsIn acts q.1.failing

variable {io : Wire S W} {handler : Option (Handler H S W)} {p : Progress H S W}

namespace KeepsRecord

variable {q : Outcome α × Progress H S W} {q' : Outcome α × Progress H (Side × S) (List Act × W)}

theorem nothing (a : α) (p : Progress H S W) (log : List Act) :
    KeepsRecord (.ok a, p) log (.ok a, p.recorded log) [] :=
  ⟨by rw [List.append_nil], List.forall_mem_nil _, .going (List.forall_mem_nil _)⟩

theorem single {a : Act} (h : a.Outward) (hstop : a.stop = q.1.failing)
    (hsame : q' = (q.1, q.2.recorded (log ++ [a]))) : KeepsRecord q log q' [a] where
  same := hsame
  outward := by
    intro b hb
    exact List.mem_singleton.1 hb ▸ h
  ends := hstop ▸ .single a

theorem map (h : KeepsRecord q log q' acts) (f : α → β) :
    KeepsRecord (q.1.map f, q.2) log (q'.1.map f, q'.2) acts where
  same := by rw [h.same]
  outward := h.outward
  ends := by
    rw [Outcome.failing_map]
    exact h.ends

theorem andThen {b : β} {p₁ : Progress H S W}
    {q₁ : Outcome β × Progress H (Side × S) (List Act × W)}
    (h : KeepsRecord (.ok b, p₁) log q₁ acts) (h' : KeepsRecord q (log ++ acts) q' acts') :
    KeepsRecord q log q' (acts ++ acts') where
  same := by rw [h'.same, List.append_assoc]
  outward := List.forall_mem_append.2 ⟨h.outward, h'.outward⟩
  ends := h.ends.append h'.ends

end KeepsRecord

theorem flush_recorded (io : Wire S W) (p : Progress H S W) (log : List Act) :
    ∃ acts, KeepsRecord (flush io p) log (flush io.recorded (p.recorded log)) acts := by
  obtain ⟨acts, heq, hwriting⟩ := writeAll_recorded io .far p.pending p.far log p.world
  refine ⟨acts, ?_, hwriting.outward, hwriting.ends⟩
  exact congrArg (fun q => (q.1, Progress.mk p.escape [] p.handler q.2.1 q.2.2)) heq

theorem sendBreak_recorded (io : Wire S W) (p : Progress H S W) (log : List Act) :
    ∃ acts, KeepsRecord (sendBreak io p) log (sendBreak io.recorded (p.recorded log)) acts := by
  rw [sendBreak_eq, sendBreak_eq]
  exact ⟨_, .single (.breakSignal (io.control breakRequest p.far p.world).1) rfl rfl⟩

theorem dispatch_recorded (handler : Option (Handler H S W)) (c : UInt8) (p : Progress H S W)
    (log : List Act) : ∃ acts, KeepsRecord (dispatch handler c p) log
      (dispatch (handler.map .recorded) c (p.recorded log)) acts := by
  cases handler with
  | none => exact ⟨[], .nothing () p log⟩
  | some hd =>
    rw [Option.map_some, dispatch, dispatch]
    cases hc : hd.command c p.handler p.far p.world with
    | mk r rest =>
      obtain ⟨h, far, world⟩ := rest
      have hcall : hd.recorded.command c (p.recorded log).handler (p.recorded log).far
          (p.recorded log).world = (r, h, (.far, far), (log ++ [.command c r], world)) := by
        simp only [Handler.recorded, Progress.recorded, hc]
      rw [hcall]
      cases r with
      | ok collects => cases collects <;> exact ⟨_, .single (.command c _) rfl rfl⟩
      | error => exact ⟨_, .single (.command c _) rfl rfl⟩
      | waiting => exact ⟨_, .single (.command c _) rfl rfl⟩
      | stalled => exact ⟨_, .single (.command c _) rfl rfl⟩

theorem deliver_recorded (handler : Option (Handler H S W)) (sequence : List UInt8)
    (p : Progress H S W) (log : List Act) : ∃ acts, KeepsRecord (deliver handler sequence p) log
      (deliver (handler.map .recorded) sequence (p.recorded log)) acts := by
  cases handler with
  | none => exact ⟨[], .nothing () p log⟩
  | some hd => exact ⟨_, .single (.sequence sequence _) rfl rfl⟩

theorem perform_recorded (io : Wire S W) (handler : Option (Handler H S W)) (c : UInt8)
    (p : Progress H S W) (log : List Act) : ∃ acts, KeepsRecord (perform io handler c p) log
      (perform io.recorded (handler.map .recorded) c (p.recorded log)) acts := by
  rw [perform, perform]
  by_cases hq : c = quitCommand
  · rw [if_pos hq, if_pos hq]
    exact ⟨[], .nothing _ p log⟩
  · rw [if_neg hq, if_neg hq]
    by_cases hb : c = breakCommand
    · rw [if_pos hb, if_pos hb]
      obtain ⟨acts, hbreak⟩ := sendBreak_recorded io p log
      exact ⟨acts, hbreak.map _⟩
    · rw [if_neg hb, if_neg hb]
      obtain ⟨acts, hdispatch⟩ := dispatch_recorded handler c p log
      exact ⟨acts, hdispatch.map _⟩

theorem afterFlush_recorded {next : Progress H S W → Outcome (Option Exit) × Progress H S W}
    {next' : Progress H (Side × S) (List Act × W) →
      Outcome (Option Exit) × Progress H (Side × S) (List Act × W)}
    (hnext : ∀ p log, ∃ acts, KeepsRecord (next p) log (next' (p.recorded log)) acts)
    (p : Progress H S W) (log : List Act) :
    ∃ acts, KeepsRecord (afterFlush io next p) log
      (afterFlush io.recorded next' (p.recorded log)) acts := by
  obtain ⟨acts, hflush⟩ := flush_recorded io p log
  rw [afterFlush, afterFlush, hflush.same]
  revert hflush
  obtain ⟨r, p₁⟩ := flush io p
  intro hflush
  cases r with
  | ok =>
    obtain ⟨acts', hafter⟩ := hnext p₁ (log ++ acts)
    exact ⟨acts ++ acts', hflush.andThen hafter⟩
  | error => exact ⟨acts, rfl, hflush.outward, hflush.ends⟩
  | waiting => exact ⟨acts, rfl, hflush.outward, hflush.ends⟩
  | stalled => exact ⟨acts, rfl, hflush.outward, hflush.ends⟩

theorem stepByte_recorded (io : Wire S W) (handler : Option (Handler H S W)) (escape c : UInt8)
    (p : Progress H S W) (log : List Act) :
    ∃ acts, KeepsRecord (stepByte io handler escape c p) log
      (stepByte io.recorded (handler.map .recorded) escape c (p.recorded log)) acts := by
  obtain ⟨state, pending, h, far, world⟩ := p
  cases state with
  | normal =>
    simp only [stepByte, Progress.recorded]
    split <;> exact ⟨[], .nothing none _ log⟩
  | escaped =>
    simp only [stepByte, Progress.recorded]
    split
    · exact ⟨[], .nothing none _ log⟩
    · exact afterFlush_recorded (perform_recorded io handler c)
        ⟨.normal, pending, h, far, world⟩ log
  | collecting sequence =>
    simp only [stepByte, Progress.recorded]
    split
    · apply afterFlush_recorded _ ⟨.normal, pending, h, far, world⟩ log
      intro p log
      obtain ⟨acts, hdeliver⟩ := deliver_recorded handler sequence p log
      exact ⟨acts, hdeliver.map _⟩
    · exact ⟨[], .nothing none _ log⟩

theorem stepBytes_recorded (io : Wire S W) (handler : Option (Handler H S W)) (escape : UInt8)
    (bytes : List UInt8) (p : Progress H S W) (log : List Act) :
    ∃ acts, KeepsRecord (stepBytes io handler escape bytes p) log
      (stepBytes io.recorded (handler.map .recorded) escape bytes (p.recorded log)) acts := by
  induction bytes generalizing p log with
  | nil => exact ⟨[], .nothing none p log⟩
  | cons c cs ih =>
    obtain ⟨acts, hbyte⟩ := stepByte_recorded io handler escape c p log
    rw [stepBytes, stepBytes, hbyte.same]
    revert hbyte
    obtain ⟨y, p₁⟩ := stepByte io handler escape c p
    intro hbyte
    cases y with
    | ok stop =>
      cases stop with
      | none =>
        obtain ⟨acts', hrest⟩ := ih p₁ (log ++ acts)
        exact ⟨acts ++ acts', hbyte.andThen hrest⟩
      | some => exact ⟨acts, rfl, hbyte.outward, hbyte.ends⟩
    | error => exact ⟨acts, rfl, hbyte.outward, hbyte.ends⟩
    | waiting => exact ⟨acts, rfl, hbyte.outward, hbyte.ends⟩
    | stalled => exact ⟨acts, rfl, hbyte.outward, hbyte.ends⟩

theorem forward_recorded (io : Wire S W) (handler : Option (Handler H S W))
    (escape : Option UInt8) (bytes : List UInt8) (p : Progress H S W) (log : List Act) :
    ∃ acts, KeepsRecord (forward io handler escape bytes p) log
      (forward io.recorded (handler.map .recorded) escape bytes (p.recorded log)) acts := by
  cases escape with
  | none =>
    obtain ⟨acts, hflush⟩ := flush_recorded io { p with pending := bytes } log
    exact ⟨acts, hflush.map _⟩
  | some escape =>
    obtain ⟨acts, hbytes⟩ := stepBytes_recorded io handler escape bytes { p with pending := [] } log
    rw [forward, forward]
    have hsame : stepBytes io.recorded (handler.map .recorded) escape bytes
        { p.recorded log with pending := [] } = _ := hbytes.same
    rw [hsame]
    revert hbytes
    obtain ⟨y, p₁⟩ := stepBytes io handler escape bytes { p with pending := [] }
    intro hbytes
    cases y with
    | ok stop =>
      cases stop with
      | none =>
        obtain ⟨acts', hflush⟩ := flush_recorded io p₁ (log ++ acts)
        exact ⟨acts ++ acts', hbytes.andThen (hflush.map _)⟩
      | some => exact ⟨acts, rfl, hbytes.outward, hbytes.ends⟩
    | error => exact ⟨acts, rfl, hbytes.outward, hbytes.ends⟩
    | waiting => exact ⟨acts, rfl, hbytes.outward, hbytes.ends⟩
    | stalled => exact ⟨acts, rfl, hbytes.outward, hbytes.ends⟩

/-- The sides go by their names. -/
def Named (x : H × Ends (Side × S) (List Act × W)) : Prop :=
  x.2.near.1 = .near ∧ x.2.far.1 = .far

/-- The acts of a trace are in the record. Its effects are theirs, unless a write fails. -/
structure Noted (trace : List Event) (x y : H × Ends (Side × S) (List Act × W))
    (acts : List Act) : Prop where
  named : Named y
  world : y.2.world.1 = x.2.world.1 ++ acts
  effects : WritesSucceed acts → effects trace = effectsOf acts
  unlost : WritesSucceed acts → ∀ bytes r, .lost bytes r ∉ trace

variable {x y z : H × Ends (Side × S) (List Act × W)} {event : Event} {trace trace' : List Event}

theorem Noted.single (hnamed : Named y) (hworld : y.2.world.1 = x.2.world.1 ++ acts)
    (heffects : WritesSucceed acts → event.effects = effectsOf acts)
    (hunlost : WritesSucceed acts → ∀ bytes r, .lost bytes r ≠ event) :
    Noted [event] x y acts where
  named := hnamed
  world := hworld
  effects h := (List.flatMap_singleton ..).trans (heffects h)
  unlost h bytes r hmem := hunlost h bytes r (List.mem_singleton.1 hmem)

theorem Noted.append (h : Noted trace x y acts) (h' : Noted trace' y z acts') :
    Noted (trace ++ trace') x z (acts ++ acts') where
  named := h'.named
  world := by rw [h'.world, h.world, List.append_assoc]
  effects hwrites := by
    obtain ⟨hacts, hacts'⟩ := WritesSucceed.append.1 hwrites
    rw [effects_append, effectsOf_append, h.effects hacts, h'.effects hacts']
  unlost hwrites bytes r hmem := by
    obtain ⟨hacts, hacts'⟩ := WritesSucceed.append.1 hwrites
    rcases List.mem_append.1 hmem with hmem | hmem
    · exact h.unlost hacts bytes r hmem
    · exact h'.unlost hacts' bytes r hmem

theorem Happens.noted (h : Happens io.recorded (handler.map .recorded) event x y)
    (hx : Named x) : ∃ acts, Noted [event] x y acts := by
  obtain ⟨hnear, hfar⟩ := hx
  cases h with
  | @readNear _ _ _ near _ _ _ _ hr | @readNothing _ _ _ near _ _ _ _ hr =>
    have hworld := (congrArg (·.2.2.1) hr).symm
    have hname := (congrArg (·.2.1.1) hr).symm
    obtain ⟨side, near⟩ := near
    cases hnear
    exact ⟨_, .single ⟨hname, hfar⟩ hworld (fun _ => rfl) nofun⟩
  | @readFar _ _ _ _ far _ _ _ hr =>
    have hworld := (congrArg (·.2.2.1) hr).symm
    have hname := (congrArg (·.2.1.1) hr).symm
    obtain ⟨side, far⟩ := far
    cases hfar
    exact ⟨_, .single ⟨hnear, hname⟩ hworld (fun _ => rfl) nofun⟩
  | wroteNear hr =>
    obtain ⟨acts, hname, hworld, hwriting⟩ := writing_of_writeAll hnear hr
    exact ⟨acts, .single ⟨hname, hfar⟩ hworld (fun _ => hwriting.effectsOf_near.symm) nofun⟩
  | wroteFar hr =>
    obtain ⟨acts, hname, hworld, hwriting⟩ := writing_of_writeAll hfar hr
    exact ⟨acts, .single ⟨hnear, hname⟩ hworld (fun _ => hwriting.effectsOf_far.symm) nofun⟩
  | lost hr hno =>
    obtain ⟨acts, hname, hworld, hwriting⟩ := writing_of_writeAll hfar hr
    have hfailed (h : WritesSucceed acts) : False := hno (hwriting.ok h)
    exact ⟨acts, .single ⟨hnear, hname⟩ hworld (fun h => (hfailed h).elim)
      fun h => (hfailed h).elim⟩
  | @breakSignal r _ _ far _ _ _ hr =>
    have hanswer := congrArg (·.1) hr
    have hworld := (congrArg (·.2.2.1) hr).symm
    have hname := (congrArg (·.2.1.1) hr).symm
    obtain ⟨side, far⟩ := far
    cases hfar
    subst hanswer
    exact ⟨_, .single ⟨hnear, hname⟩ hworld (fun _ => rfl) nofun⟩
  | command hh hr =>
    obtain ⟨hd, rfl, rfl⟩ := Option.map_eq_some_iff.1 hh
    have hanswer := congrArg (·.1) hr
    have hworld := (congrArg (·.2.2.2.1) hr).symm
    have hname := (congrArg (·.2.2.1.1) hr).symm
    subst hanswer
    exact ⟨_, .single ⟨hnear, hname.trans hfar⟩ hworld (fun _ => rfl) nofun⟩
  | sequence hh hr =>
    obtain ⟨hd, rfl, rfl⟩ := Option.map_eq_some_iff.1 hh
    have hanswer := congrArg (·.1) hr
    have hworld := (congrArg (·.2.2.2.1) hr).symm
    have hname := (congrArg (·.2.2.1.1) hr).symm
    subst hanswer
    exact ⟨_, .single ⟨hnear, hname.trans hfar⟩ hworld (fun _ => rfl) nofun⟩

theorem Runs.noted (h : Runs io.recorded (handler.map .recorded) trace x y) (hx : Named x) :
    ∃ acts, Noted trace x y acts := by
  induction h with
  | nil x =>
    refine ⟨[], hx, (List.append_nil _).symm, fun _ => rfl, fun _ _ _ => List.not_mem_nil⟩
  | cons hevent _ ih =>
    obtain ⟨acts, hfirst⟩ := hevent.noted hx
    obtain ⟨acts', hrest⟩ := ih hfirst.named
    exact ⟨acts ++ acts', hfirst.append hrest⟩

/-- As long as writes succeed, what has been read from the near side has the effects of `transduce`,
whole, and these are in the record. -/
theorem transduce_recorded {escape : Option UInt8} {bytes : List UInt8}
    {y : Outcome (Option Exit)} {p' : Progress H S W} (hpending : p.pending = [])
    (hforward : forward io handler escape bytes p = (y, p'))
    (h : KeepsRecord (y, p') log
      (forward io.recorded (handler.map .recorded) escape bytes (p.recorded log)) acts)
    (hwrites : WritesSucceed acts) (answers : Answers) (before : List Effect)
    (hagree : answers.Agree (before ++ effectsOf acts)) :
    transduce answers escape handler.isSome bytes ⟨p.escape, before⟩ =
      (y, ⟨p'.escape, before ++ effectsOf acts⟩) := by
  have hpending' : p'.pending = [] := by
    rw [← pending_forward io handler escape bytes p, hforward]
  obtain ⟨trace, hruns, -, hcarried⟩ := segment_forward io.recorded (handler.map .recorded) escape
    bytes (p.recorded log) (.near, p.far) hpending
  rw [h.same] at hruns hcarried
  obtain ⟨acts', hnoted⟩ := hruns.noted ⟨rfl, rfl⟩
  -- Both ways the record has grown by the same acts.
  obtain rfl : acts = acts' := List.append_cancel_left hnoted.world
  rw [Option.isSome_map] at hcarried
  rcases hcarried with hwhole | ⟨-, earlier, lost, r, rfl, -⟩
  · have heq := hwhole answers before (by rw [hnoted.effects hwrites]; exact hagree)
    rw [hnoted.effects hwrites] at heq
    simpa only [Progress.transcript, Progress.recorded, hpending, hpending', List.map_nil,
      List.append_nil] using heq
  · exact (hnoted.unlost hwrites lost r (List.mem_append_right _ (List.mem_singleton_self _))).elim

end Relay

end Wirebench

import Wirebench.Proofs.Relay.Transducer
import Wirebench.Relay.Session

namespace Wirebench.Relay

/-- A call that a relay makes. -/
inductive Event
  | readNear (bytes : List UInt8)
  /-- A read from the near side that comes to something else. -/
  | readNothing (r : Outcome (List UInt8))
  | wroteFar (bytes : List UInt8)
  /-- A write to the far side that does not end well; some of the bytes may have been taken. -/
  | lost (bytes : List UInt8) (r : Outcome Unit)
  /-- A break, or a call of the handler. -/
  | affected (x : Effect)
  | readFar (r : Outcome (List UInt8))
  | wroteNear (r : Outcome Unit)

def Event.input : Event → List UInt8
  | readNear bytes => bytes
  | readNothing _ | wroteFar _ | lost .. | affected _ | readFar _ | wroteNear _ => []

def Event.effects : Event → List Effect
  | wroteFar bytes => bytes.map .byte
  | affected x => [x]
  | readNear _ | readNothing _ | lost .. | readFar _ | wroteNear _ => []

/-- The end of a side that a read has met. -/
def Event.closed? : Event → Option Exit
  | readNothing (.error .remoteClosed) => some .nearClosed
  | readFar (.error .remoteClosed) => some .farClosed
  | readNear _ | readNothing _ | wroteFar _ | lost .. | affected _ | readFar _ | wroteNear _ => none

def input (trace : List Event) : List UInt8 := trace.flatMap Event.input

def effects (trace : List Event) : List Effect := trace.flatMap Event.effects

theorem input_append (xs ys : List Event) : input (xs ++ ys) = input xs ++ input ys :=
  List.flatMap_append

theorem effects_append (xs ys : List Event) : effects (xs ++ ys) = effects xs ++ effects ys :=
  List.flatMap_append

variable {H S W : Type}

/-- What has come of a break: a far side that knows no breaks counts as having got it. -/
def breakAnswer : Outcome String → Outcome Unit
  | .ok _ | .error (.notSupported _) => .ok ()
  | .error e => .error e
  | .waiting => .waiting
  | .stalled => .stalled

/-- Each event is a call on one of the ends or of the handler, with its outcome. -/
inductive Happens (io : Wire S W) (handler : Option (Handler H S W)) :
    Event → H × Ends S W → H × Ends S W → Prop
  | readNear {n bytes h near far w near' w'} (hr : io.read n near w = (.ok bytes, near', w')) :
      Happens io handler (.readNear bytes) (h, ⟨near, far, w⟩) (h, ⟨near', far, w'⟩)
  | readNothing {n r h near far w near' w'} (hr : io.read n near w = (r, near', w'))
      (hno : ∀ bytes, r ≠ .ok bytes) :
      Happens io handler (.readNothing r) (h, ⟨near, far, w⟩) (h, ⟨near', far, w'⟩)
  | wroteFar {bytes h near far w far' w'} (hr : io.writeAll bytes far w = (.ok (), far', w')) :
      Happens io handler (.wroteFar bytes) (h, ⟨near, far, w⟩) (h, ⟨near, far', w'⟩)
  | lost {bytes r h near far w far' w'} (hr : io.writeAll bytes far w = (r, far', w'))
      (hno : r ≠ .ok ()) :
      Happens io handler (.lost bytes r) (h, ⟨near, far, w⟩) (h, ⟨near, far', w'⟩)
  | breakSignal {r h near far w far' w'}
      (hr : io.control ⟨.first, false, .sendBreak, none⟩ far w = (r, far', w')) :
      Happens io handler (.affected (.breakSignal (breakAnswer r))) (h, ⟨near, far, w⟩)
        (h, ⟨near, far', w'⟩)
  | command {hd c r h near far w h' far' w'} (hh : handler = some hd)
      (hr : hd.command c h far w = (r, h', far', w')) :
      Happens io handler (.affected (.command c r)) (h, ⟨near, far, w⟩) (h', ⟨near, far', w'⟩)
  | sequence {hd bytes r h near far w h' far' w'} (hh : handler = some hd)
      (hr : hd.sequence bytes h far w = (r, h', far', w')) :
      Happens io handler (.affected (.sequence bytes r)) (h, ⟨near, far, w⟩)
        (h', ⟨near, far', w'⟩)
  | readFar {n r h near far w far' w'} (hr : io.read n far w = (r, far', w')) :
      Happens io handler (.readFar r) (h, ⟨near, far, w⟩) (h, ⟨near, far', w'⟩)
  | wroteNear {bytes r h near far w near' w'} (hr : io.writeAll bytes near w = (r, near', w')) :
      Happens io handler (.wroteNear r) (h, ⟨near, far, w⟩) (h, ⟨near', far, w'⟩)

inductive Runs (io : Wire S W) (handler : Option (Handler H S W)) :
    List Event → H × Ends S W → H × Ends S W → Prop
  | nil (x) : Runs io handler [] x x
  | cons {event trace x y z} : Happens io handler event x y → Runs io handler trace y z →
      Runs io handler (event :: trace) x z

variable {io : Wire S W} {handler : Option (Handler H S W)} {trace trace' : List Event}

theorem Runs.append {x y z : H × Ends S W} (h : Runs io handler trace x y)
    (h' : Runs io handler trace' y z) : Runs io handler (trace ++ trace') x z := by
  induction h with
  | nil => exact h'
  | cons hx _ ih => exact .cons hx (ih h')

theorem Answers.Agree.of_append {answers : Answers} {xs ys : List Effect}
    (h : answers.Agree (xs ++ ys)) : answers.Agree xs := by
  rintro before x after rfl
  exact h before x (after ++ ys) (by rw [List.append_assoc, List.cons_append])

theorem Answers.Agree.last {answers : Answers} {xs : List Effect} {x : Effect}
    (h : answers.Agree (xs ++ [x])) : answers.Give xs x := h xs x [] rfl

/-- What a piece of the processing makes of a transcript. -/
abbrev Process := Answers → Transcript → Outcome (Option Exit) × Transcript

namespace Process

def done : Process := fun _ t => (.ok none, t)

/-- One piece after another one, unless that has stopped the relay. -/
def andThen (f g : Process) : Process := fun answers t =>
  match f answers t with
  | (.ok none, t) => g answers t
  | r => r

theorem done_andThen (f : Process) : done.andThen f = f := rfl

theorem andThen_done (f : Process) : f.andThen done = f := by
  funext answers t
  rw [andThen]
  split
  · next heq => exact heq.symm
  · rfl

def Grows (f : Process) : Prop := ∀ answers t, t.effects <+: (f answers t).2.effects

end Process

namespace Progress

def scene (p : Progress H S W) (near : S) : H × Ends S W := (p.handler, ⟨near, p.far, p.world⟩)

/-- Bytes that are not yet written count as effects. -/
def transcript (before : List Effect) (p : Progress H S W) : Transcript :=
  ⟨p.escape, before ++ p.pending.map .byte⟩

end Progress

variable {f g : Process} {p p₁ p' : Progress H S W} {near near₁ near' : S}
variable {y : Outcome (Option Exit)} {came came' : List UInt8}

/-- The events have the effects of the piece, after any earlier ones. -/
def Whole (f : Process) (p : Progress H S W) (trace : List Event) (y : Outcome (Option Exit))
    (p' : Progress H S W) : Prop :=
  ∀ answers before, answers.Agree (before ++ effects trace) →
    f answers (p.transcript before) = (y, p'.transcript (before ++ effects trace))

/-- The last write does not end well, and that ends the processing. Up to that write the effects are
those of the piece. -/
structure Lost (f : Process) (p : Progress H S W) (trace : List Event)
    (y : Outcome (Option Exit)) : Prop where
  fails : ∀ x, y ≠ .ok x
  last : ∃ earlier bytes r, trace = earlier ++ [.lost bytes r] ∧ (y = r.map fun _ => none) ∧
    ∀ answers before, answers.Agree (before ++ effects trace) →
      before ++ effects trace ++ bytes.map .byte <+: (f answers (p.transcript before)).2.effects

/-- A relay makes some calls, by which some bytes are read from the near side, and these carry a
piece of the processing out. -/
structure Segment (io : Wire S W) (handler : Option (Handler H S W)) (f : Process)
    (came : List UInt8) (p : Progress H S W) (near : S) (trace : List Event)
    (y : Outcome (Option Exit)) (p' : Progress H S W) (near' : S) : Prop where
  runs : Runs io handler trace (p.scene near) (p'.scene near')
  input : input trace = came
  carried : Whole f p trace y p' ∨ Lost f p trace y

namespace Segment

theorem andThen (h : Segment io handler f came p near trace (.ok none) p₁ near₁)
    (h' : Segment io handler g came' p₁ near₁ trace' y p' near') :
    Segment io handler (f.andThen g) (came ++ came') p near (trace ++ trace') y p' near' := by
  apply Segment.mk (h.runs.append h'.runs)
  · rw [input_append, h.input, h'.input]
  rcases h.carried with hf | hf
  · have hstep {answers : Answers} {before : List Effect}
        (hagree : answers.Agree (before ++ effects (trace ++ trace'))) :
        f.andThen g answers (p.transcript before) =
          g answers (p₁.transcript (before ++ effects trace)) := by
      rw [effects_append, ← List.append_assoc] at hagree
      rw [Process.andThen, hf answers before hagree.of_append]
    rcases h'.carried with hg | ⟨hfails, earlier, bytes, r, rfl, hr, hg⟩
    · left
      intro answers before hagree
      rw [hstep hagree, effects_append, ← List.append_assoc]
      rw [effects_append, ← List.append_assoc] at hagree
      exact hg answers _ hagree
    · right
      apply Lost.mk hfails
      refine ⟨trace ++ earlier, bytes, r, (List.append_assoc ..).symm, hr, ?_⟩
      intro answers before hagree
      rw [hstep hagree, effects_append, ← List.append_assoc]
      rw [effects_append, ← List.append_assoc] at hagree
      exact hg answers _ hagree
  · exact (hf.fails none rfl).elim

theorem stop (h : Segment io handler f came p near trace y p' near') (hy : y ≠ .ok none)
    (hgrows : g.Grows) : Segment io handler (f.andThen g) came p near trace y p' near' := by
  apply Segment.mk h.runs h.input
  rcases h.carried with hf | ⟨hfails, earlier, bytes, r, htrace, hr, hf⟩
  · left
    intro answers before hagree
    rw [Process.andThen, hf answers before hagree]
    split
    · next heq =>
      cases heq
      exact (hy rfl).elim
    · rfl
  · right
    have hlast (answers : Answers) (t : Transcript) :
        (f answers t).2.effects <+: (f.andThen g answers t).2.effects := by
      rw [Process.andThen]
      split
      · next t heq =>
        rw [heq]
        exact hgrows answers t
      · exact List.prefix_refl _
    exact ⟨hfails, earlier, bytes, r, htrace, hr, fun answers before hagree =>
      (hf answers before hagree).trans (hlast answers _)⟩

theorem cons {event : Event} (h : Segment io handler f came p₁ near₁ trace y p' near')
    (hevent : Happens io handler event (p.scene near) (p₁.scene near₁))
    (hnone : event.effects = [])
    (htranscript : ∀ before, p₁.transcript before = p.transcript before) :
    Segment io handler f (event.input ++ came) p near (event :: trace) y p' near' := by
  have heffects : effects (event :: trace) = effects trace := by
    rw [effects, List.flatMap_cons, hnone]
    rfl
  apply Segment.mk (.cons hevent h.runs) (congrArg (event.input ++ ·) h.input)
  rcases h.carried with hf | ⟨hfails, earlier, bytes, r, rfl, hr, hf⟩
  · left
    intro answers before hagree
    rw [heffects] at hagree ⊢
    rw [← htranscript]
    exact hf answers before hagree
  · right
    apply Lost.mk hfails
    refine ⟨event :: earlier, bytes, r, rfl, hr, ?_⟩
    intro answers before hagree
    rw [heffects] at hagree ⊢
    rw [← htranscript]
    exact hf answers before hagree

theorem still (p p' : Progress H S W) (near : S) (hscene : p'.scene near = p.scene near)
    (hf : ∀ answers before, f answers (p.transcript before) = (y, p'.transcript before)) :
    Segment io handler f [] p near [] y p' near := by
  refine ⟨hscene ▸ .nil _, rfl, .inl ?_⟩
  intro answers before _
  rw [hf, effects, List.flatMap_nil, List.append_nil]

theorem affected {x : Effect} (hpending : p.pending = []) (hpending' : p'.pending = [])
    (hevent : Happens io handler (.affected x) (p.scene near) (p'.scene near))
    (hf : ∀ answers before, answers.Give before x →
      f answers ⟨p.escape, before⟩ = (y, ⟨p'.escape, before ++ [x]⟩)) :
    Segment io handler f [] p near [.affected x] y p' near := by
  apply Segment.mk (.cons hevent (.nil _)) rfl
  left
  intro answers before hagree
  have heffects : effects [.affected x] = [x] := rfl
  rw [heffects] at hagree ⊢
  rw [Progress.transcript, Progress.transcript, hpending, hpending', List.map_nil, List.append_nil,
    List.append_nil]
  exact hf answers before hagree.last

theorem reset (h : Segment io handler g came p₁ near trace y p' near')
    (hscene : p.scene near = p₁.scene near)
    (hf : ∀ answers before, f answers (p.transcript before) = g answers (p₁.transcript before)) :
    Segment io handler f came p near trace y p' near' := by
  apply Segment.mk (hscene ▸ h.runs) h.input
  rcases h.carried with hg | ⟨hfails, earlier, bytes, r, htrace, hr, hg⟩
  · left
    intro answers before hagree
    rw [hf]
    exact hg answers before hagree
  · right
    apply Lost.mk hfails
    refine ⟨earlier, bytes, r, htrace, hr, ?_⟩
    intro answers before hagree
    rw [hf]
    exact hg answers before hagree

end Segment

theorem segment_flush (io : Wire S W) (handler : Option (Handler H S W)) (p : Progress H S W)
    (near : S) :
    ∃ trace, Segment io handler .done [] p near trace ((flush io p).1.map fun _ => none)
      (flush io p).2 near := by
  cases hw : io.writeAll p.pending p.far p.world with
  | mk r rest =>
    obtain ⟨far, world⟩ := rest
    have hflush : flush io p = (r, { p with pending := [], far, world }) := by
      rw [flush, hw]
    rw [hflush]
    by_cases hr : r = .ok ()
    · subst hr
      refine ⟨[.wroteFar p.pending], .cons (.wroteFar hw) (.nil _), rfl, .inl ?_⟩
      intro answers before _
      show (_, Transcript.mk _ _) = (_, Transcript.mk _ _)
      rw [effects, List.flatMap_singleton, Event.effects, List.map_nil, List.append_nil]
      rfl
    · have hfails (x : Option Exit) : (r.map fun _ => none) ≠ .ok x := by
        intro hx
        cases r with
        | ok => exact hr rfl
        | _ => cases hx
      have hlost : Lost Process.done p [.lost p.pending r] (r.map fun _ => none) := by
        apply Lost.mk hfails
        refine ⟨[], p.pending, r, rfl, rfl, ?_⟩
        intro answers before _
        have hnone : before ++ effects [.lost p.pending r] = before := List.append_nil before
        exact hnone.symm ▸ List.prefix_refl _
      exact ⟨[.lost p.pending r], .cons (.lost hw hr) (.nil _), rfl, .inr hlost⟩

theorem flush_pending (io : Wire S W) (p : Progress H S W) : (flush io p).2.pending = [] := rfl

/-- Write what is not yet written and go on, if that goes well. -/
def afterFlush (io : Wire S W)
    (next : Progress H S W → Outcome (Option Exit) × Progress H S W) (p : Progress H S W) :
    Outcome (Option Exit) × Progress H S W :=
  match flush io p with
  | (.ok (), p) => next p
  | (.error e, p) => (.error e, p)
  | (.waiting, p) => (.waiting, p)
  | (.stalled, p) => (.stalled, p)

/-- The call for a command, once everything before it has been written. -/
def perform (io : Wire S W) (handler : Option (Handler H S W)) (c : UInt8) (p : Progress H S W) :
    Outcome (Option Exit) × Progress H S W :=
  if c = quitCommand then (.ok (some .quit), p)
  else
    let (r, p) := if c = breakCommand then sendBreak io p else dispatch handler c p
    (r.map fun _ => none, p)

def handOver (handler : Option (Handler H S W)) (sequence : List UInt8) (p : Progress H S W) :
    Outcome (Option Exit) × Progress H S W :=
  let (r, p) := deliver handler sequence p
  (r.map fun _ => none, p)

theorem command_eq (c : UInt8) (p : Progress H S W) :
    command io handler c p =
      afterFlush io (perform io handler c) { p with escape := .normal } := rfl

theorem endSequence_eq (sequence : List UInt8) (p : Progress H S W) :
    endSequence io handler sequence p =
      afterFlush io (handOver handler sequence) { p with escape := .normal } := rfl

theorem segment_afterFlush {next : Progress H S W → Outcome (Option Exit) × Progress H S W}
    (hgrows : f.Grows) (near : S)
    (hnext : ∀ p : Progress H S W, p.pending = [] →
      ∃ trace, Segment io handler f [] p near trace (next p).1 (next p).2 near)
    (p : Progress H S W) :
    ∃ trace, Segment io handler f [] p near trace (afterFlush io next p).1
      (afterFlush io next p).2 near := by
  obtain ⟨trace, hflush⟩ := segment_flush io handler p near
  have hpending := flush_pending io p
  rw [← Process.done_andThen f, afterFlush]
  cases hf : flush io p with
  | mk r p₁ =>
    rw [hf] at hflush hpending
    cases r with
    | ok u =>
      obtain ⟨trace', hsegment⟩ := hnext p₁ hpending
      exact ⟨trace ++ trace', hflush.andThen hsegment⟩
    | error e => exact ⟨trace, hflush.stop nofun hgrows⟩
    | waiting => exact ⟨trace, hflush.stop nofun hgrows⟩
    | stalled => exact ⟨trace, hflush.stop nofun hgrows⟩

theorem sendBreak_eq (io : Wire S W) (p : Progress H S W) :
    sendBreak io p =
      let (r, far, world) := io.control ⟨.first, false, .sendBreak, none⟩ p.far p.world
      (breakAnswer r, { p with far, world }) := by
  rw [sendBreak]
  cases io.control ⟨.first, false, .sendBreak, none⟩ p.far p.world with
  | mk r rest =>
    cases r with
    | ok => rfl
    | error e =>
      cases e <;> rfl
    | waiting => rfl
    | stalled => rfl

theorem segment_sendBreak (io : Wire S W) (handler : Option (Handler H S W)) {c : UInt8}
    (hq : c ≠ quitCommand) (hb : c = breakCommand) (p : Progress H S W) (near : S)
    (hpending : p.pending = []) :
    ∃ trace, Segment io handler (fun answers => transduceCommand answers handler.isSome c) [] p
      near trace ((sendBreak io p).1.map fun _ => none) (sendBreak io p).2 near := by
  rw [sendBreak_eq]
  cases hc : io.control ⟨.first, false, .sendBreak, none⟩ p.far p.world with
  | mk r rest =>
    refine ⟨_, .affected hpending hpending (.breakSignal hc) ?_⟩
    intro answers before hgive
    simp only [transduceCommand, if_neg hq, if_pos hb]
    rw [show answers.breakSignal before = breakAnswer r from hgive]
    rfl

theorem segment_dispatch (io : Wire S W) (handler : Option (Handler H S W)) {c : UInt8}
    (hq : c ≠ quitCommand) (hb : c ≠ breakCommand) (p : Progress H S W) (near : S)
    (hpending : p.pending = []) :
    ∃ trace, Segment io handler (fun answers => transduceCommand answers handler.isSome c) [] p
      near trace ((dispatch handler c p).1.map fun _ => none) (dispatch handler c p).2 near := by
  cases handler with
  | none =>
    have hdropped (answers : Answers) (t : Transcript) :
        transduceCommand answers false c t = (.ok none, t) := by
      simp only [transduceCommand, if_neg hq, if_neg hb]
      rfl
    exact ⟨[], .still p p near rfl fun answers before => hdropped answers _⟩
  | some hd =>
    rw [dispatch]
    cases hc : hd.command c p.handler p.far p.world with
    | mk r rest =>
      obtain ⟨h', far', world'⟩ := rest
      have hf {answers : Answers} {before : List Effect}
          (hgive : answers.Give before (.command c r)) :
          transduceCommand answers true c ⟨p.escape, before⟩ =
            (r.map fun _ => none, if r = .ok true
              then ⟨.collecting [], before ++ [.command c r]⟩
              else ⟨p.escape, before ++ [.command c r]⟩) := by
        simp only [transduceCommand, if_neg hq, if_neg hb, ↓reduceIte]
        rw [show answers.command before c = r from hgive]
        rfl
      cases r with
      | ok collects =>
        cases collects with
        | true => exact ⟨_, .affected hpending hpending (.command rfl hc) fun _ _ h => hf h⟩
        | false => exact ⟨_, .affected hpending hpending (.command rfl hc) fun _ _ h => hf h⟩
      | error => exact ⟨_, .affected hpending hpending (.command rfl hc) fun _ _ h => hf h⟩
      | waiting => exact ⟨_, .affected hpending hpending (.command rfl hc) fun _ _ h => hf h⟩
      | stalled => exact ⟨_, .affected hpending hpending (.command rfl hc) fun _ _ h => hf h⟩

theorem segment_perform (io : Wire S W) (handler : Option (Handler H S W)) (c : UInt8)
    (p : Progress H S W) (near : S) (hpending : p.pending = []) :
    ∃ trace, Segment io handler (fun answers => transduceCommand answers handler.isSome c) [] p
      near trace (perform io handler c p).1 (perform io handler c p).2 near := by
  rw [perform]
  by_cases hq : c = quitCommand
  · have hquit (answers : Answers) (t : Transcript) :
        transduceCommand answers handler.isSome c t = (.ok (some .quit), t) := by
      rw [transduceCommand, if_pos hq]
    rw [if_pos hq]
    exact ⟨[], .still p p near rfl fun answers before => hquit answers _⟩
  · rw [if_neg hq]
    by_cases hb : c = breakCommand
    · rw [if_pos hb]
      exact segment_sendBreak io handler hq hb p near hpending
    · rw [if_neg hb]
      exact segment_dispatch io handler hq hb p near hpending

theorem segment_handOver (io : Wire S W) (handler : Option (Handler H S W))
    (sequence : List UInt8) (p : Progress H S W) (near : S) (hpending : p.pending = []) :
    ∃ trace, Segment io handler
      (fun answers => transduceSequence answers handler.isSome sequence) [] p near trace
      (handOver handler sequence p).1 (handOver handler sequence p).2 near := by
  cases handler with
  | none => exact ⟨[], .still p p near rfl fun _ _ => rfl⟩
  | some hd =>
    rw [handOver, deliver]
    cases hc : hd.sequence sequence p.handler p.far p.world with
    | mk r rest =>
      refine ⟨_, .affected hpending hpending (.sequence rfl hc) ?_⟩
      intro answers before hgive
      simp only [transduceSequence, Option.isSome_some, ↓reduceIte]
      rw [show answers.sequence before sequence = r from hgive]
      rfl

theorem transcript_append (before : List Effect) (p : Progress H S W) (b : UInt8)
    (state : EscapeState) :
    Progress.transcript before { p with escape := state, pending := p.pending ++ [b] } =
      ⟨state, before ++ p.pending.map .byte ++ [.byte b]⟩ := by
  rw [Progress.transcript, List.map_append, ← List.append_assoc]
  rfl

theorem transcript_of_state {state : EscapeState} (h : p.escape = state) (before : List Effect) :
    p.transcript before = ⟨state, before ++ p.pending.map .byte⟩ := by
  rw [Progress.transcript, h]

theorem segment_normal (handler : Option (Handler H S W)) (escape c : UInt8) (near : S)
    (hstate : p.escape = .normal) :
    ∃ trace, Segment io handler
      (fun answers => transduceByte answers (some escape) handler.isSome c) [] p near trace
      (stepByte io handler escape c p).1 (stepByte io handler escape c p).2 near := by
  rw [stepByte, hstate]
  by_cases hc : c = escape
  · have hbyte (answers : Answers) (before : List Effect) :
        transduceByte answers (some escape) handler.isSome c (p.transcript before) =
          (.ok none, Progress.transcript before { p with escape := .escaped }) := by
      rw [transcript_of_state hstate, hc]
      exact transduceByte_escape escape _
    simp only [if_pos hc]
    exact ⟨[], .still p _ near rfl hbyte⟩
  · have hbyte (answers : Answers) (before : List Effect) :
        transduceByte answers (some escape) handler.isSome c (p.transcript before) =
          (.ok none, Progress.transcript before
            { p with escape := .normal, pending := p.pending ++ [c] }) := by
      rw [transcript_of_state hstate, transcript_append]
      exact transduceByte_plain hc _
    simp only [if_neg hc]
    exact ⟨[], .still p _ near rfl hbyte⟩

theorem segment_escaped (handler : Option (Handler H S W)) (escape c : UInt8) (near : S)
    (hstate : p.escape = .escaped) :
    ∃ trace, Segment io handler
      (fun answers => transduceByte answers (some escape) handler.isSome c) [] p near trace
      (stepByte io handler escape c p).1 (stepByte io handler escape c p).2 near := by
  rw [stepByte, hstate]
  by_cases hc : c = escape
  · have hbyte (answers : Answers) (before : List Effect) :
        transduceByte answers (some escape) handler.isSome c (p.transcript before) =
          (.ok none, Progress.transcript before
            { p with escape := .normal, pending := p.pending ++ [escape] }) := by
      rw [transcript_of_state hstate, transcript_append, hc]
      exact transduceByte_escaped escape _
    simp only [if_pos hc]
    exact ⟨[], .still p _ near rfl hbyte⟩
  · have hbyte (answers : Answers) (before : List Effect) :
        transduceByte answers (some escape) handler.isSome c (p.transcript before) =
          transduceCommand answers handler.isSome c
            (Progress.transcript before { p with escape := .normal }) := by
      rw [transcript_of_state hstate]
      exact transduceByte_command hc _
    obtain ⟨trace, hsegment⟩ := segment_afterFlush (fun _ => effects_transduceCommand c) near
      (fun p => segment_perform io handler c p near) { p with escape := .normal }
    simp only [if_neg hc, command_eq]
    exact ⟨trace, hsegment.reset rfl hbyte⟩

theorem segment_collecting (handler : Option (Handler H S W)) (escape c : UInt8) (near : S)
    {sequence : List UInt8} (hstate : p.escape = .collecting sequence) :
    ∃ trace, Segment io handler
      (fun answers => transduceByte answers (some escape) handler.isSome c) [] p near trace
      (stepByte io handler escape c p).1 (stepByte io handler escape c p).2 near := by
  rw [stepByte, hstate]
  by_cases hc : isLineEnd c = true
  · have hbyte (answers : Answers) (before : List Effect) :
        transduceByte answers (some escape) handler.isSome c (p.transcript before) =
          transduceSequence answers handler.isSome sequence
            (Progress.transcript before { p with escape := .normal }) := by
      rw [transcript_of_state hstate]
      exact transduceByte_lineEnd hc sequence _
    have hover (p : Progress H S W) := segment_handOver io handler sequence p near
    obtain ⟨trace, hsegment⟩ := segment_afterFlush (fun _ => effects_transduceSequence sequence)
      near hover { p with escape := .normal }
    simp only [if_pos hc, endSequence_eq]
    exact ⟨trace, hsegment.reset rfl hbyte⟩
  · have hbyte (answers : Answers) (before : List Effect) :
        transduceByte answers (some escape) handler.isSome c (p.transcript before) =
          (.ok none, Progress.transcript before
            { p with escape := .collecting (sequence ++ [c]) }) := by
      rw [transcript_of_state hstate]
      exact transduceByte_collect hc sequence _
    simp only [if_neg hc]
    exact ⟨[], .still p _ near rfl hbyte⟩

theorem segment_stepByte (io : Wire S W) (handler : Option (Handler H S W)) (escape c : UInt8)
    (p : Progress H S W) (near : S) :
    ∃ trace, Segment io handler
      (fun answers => transduceByte answers (some escape) handler.isSome c) [] p near trace
      (stepByte io handler escape c p).1 (stepByte io handler escape c p).2 near := by
  cases hstate : p.escape with
  | normal => exact segment_normal handler escape c near hstate
  | escaped => exact segment_escaped handler escape c near hstate
  | collecting sequence => exact segment_collecting handler escape c near hstate

theorem stepBytes_cons {escape c : UInt8} (cs : List UInt8)
    (h : (stepByte io handler escape c p).1 = .ok none) :
    stepBytes io handler escape (c :: cs) p =
      stepBytes io handler escape cs (stepByte io handler escape c p).2 := by
  rw [stepBytes]
  cases hc : stepByte io handler escape c p with
  | mk y p₁ =>
    rw [hc] at h
    cases h
    rfl

theorem stepBytes_cons_of_stop {escape c : UInt8} (cs : List UInt8)
    (h : (stepByte io handler escape c p).1 ≠ .ok none) :
    stepBytes io handler escape (c :: cs) p = stepByte io handler escape c p := by
  rw [stepBytes]
  split
  · next heq => exact (h (congrArg Prod.fst heq)).elim
  · rfl

theorem segment_stepBytes (io : Wire S W) (handler : Option (Handler H S W)) (escape : UInt8)
    (bytes : List UInt8) (p : Progress H S W) (near : S) :
    ∃ trace, Segment io handler
      (fun answers => transduce answers (some escape) handler.isSome bytes) [] p near trace
      (stepBytes io handler escape bytes p).1 (stepBytes io handler escape bytes p).2 near := by
  induction bytes generalizing p with
  | nil => exact ⟨[], .still p p near rfl fun _ _ => rfl⟩
  | cons c cs ih =>
    have hcons : (fun answers => transduce answers (some escape) handler.isSome (c :: cs)) =
        Process.andThen (fun answers => transduceByte answers (some escape) handler.isSome c)
          fun answers => transduce answers (some escape) handler.isSome cs := rfl
    obtain ⟨trace, hbyte⟩ := segment_stepByte io handler escape c p near
    rw [hcons]
    by_cases hy : (stepByte io handler escape c p).1 = .ok none
    · rw [stepBytes_cons cs hy]
      rw [hy] at hbyte
      obtain ⟨trace', hrest⟩ := ih (stepByte io handler escape c p).2
      exact ⟨trace ++ trace', hbyte.andThen hrest⟩
    · rw [stepBytes_cons_of_stop cs hy]
      exact ⟨trace, hbyte.stop hy fun _ => effects_transduce cs⟩

theorem segment_forward (io : Wire S W) (handler : Option (Handler H S W))
    (escape : Option UInt8) (bytes : List UInt8) (p : Progress H S W) (near : S)
    (hpending : p.pending = []) :
    ∃ trace, Segment io handler (fun answers => transduce answers escape handler.isSome bytes) []
      p near trace (forward io handler escape bytes p).1 (forward io handler escape bytes p).2
      near := by
  cases escape with
  | none =>
    obtain ⟨trace, hflush⟩ := segment_flush io handler { p with pending := bytes } near
    have hbytes (answers : Answers) (before : List Effect) :
        transduce answers none handler.isSome bytes (p.transcript before) =
          (.ok none, Progress.transcript before { p with pending := bytes }) := by
      rw [transduce_none, Progress.transcript, hpending, List.map_nil, List.append_nil]
      rfl
    exact ⟨trace, hflush.reset rfl hbytes⟩
  | some escape =>
    have hsame : { p with pending := [] } = p := by rw [← hpending]
    obtain ⟨trace, hbytes⟩ := segment_stepBytes io handler escape bytes p near
    rw [← Process.andThen_done fun answers => transduce answers _ handler.isSome bytes, forward,
      hsame]
    by_cases hy : (stepBytes io handler escape bytes p).1 = .ok none
    · cases hr : stepBytes io handler escape bytes p with
      | mk y p₁ =>
        rw [hr] at hbytes hy
        cases hy
        obtain ⟨trace', hflush⟩ := segment_flush io handler p₁ near
        exact ⟨trace ++ trace', hbytes.andThen hflush⟩
    · have hstop := hbytes.stop (g := .done) hy fun _ t => List.prefix_refl t.effects
      apply Exists.intro trace
      split
      · next heq => exact (hy (congrArg Prod.fst heq)).elim
      · exact hstop

theorem pending_perform (c : UInt8) (hpending : p.pending = []) :
    (perform io handler c p).2.pending = [] := by
  rw [perform]
  by_cases hq : c = quitCommand
  · rw [if_pos hq]
    exact hpending
  · rw [if_neg hq]
    by_cases hb : c = breakCommand
    · rw [if_pos hb, sendBreak_eq]
      exact hpending
    · rw [if_neg hb]
      cases handler with
      | none => exact hpending
      | some hd =>
        simp only [dispatch]
        split <;> exact hpending

theorem pending_handOver (sequence : List UInt8) (hpending : p.pending = []) :
    (handOver handler sequence p).2.pending = [] := by
  cases handler with
  | none => exact hpending
  | some hd => exact hpending

theorem pending_afterFlush {next : Progress H S W → Outcome (Option Exit) × Progress H S W}
    (hnext : ∀ p : Progress H S W, p.pending = [] → (next p).2.pending = []) :
    (afterFlush io next p).2.pending = [] := by
  have hpending := flush_pending io p
  rw [afterFlush]
  cases hf : flush io p with
  | mk r p₁ =>
    rw [hf] at hpending
    cases r with
    | ok => exact hnext p₁ hpending
    | error => exact hpending
    | waiting => exact hpending
    | stalled => exact hpending

theorem pending_stepByte {escape c : UInt8} (h : (stepByte io handler escape c p).1 ≠ .ok none) :
    (stepByte io handler escape c p).2.pending = [] := by
  rw [stepByte] at h ⊢
  cases hstate : p.escape with
  | normal =>
    simp only [hstate] at h
    exact (h rfl).elim
  | escaped =>
    simp only [hstate] at h ⊢
    split
    · next hc =>
      rw [if_pos hc] at h
      exact (h rfl).elim
    · rw [command_eq]
      exact pending_afterFlush fun _ => pending_perform c
  | collecting sequence =>
    simp only [hstate] at h ⊢
    split
    · rw [endSequence_eq]
      exact pending_afterFlush fun _ => pending_handOver sequence
    · next hc =>
      rw [if_neg hc] at h
      exact (h rfl).elim

theorem pending_stepBytes {escape : UInt8} (bytes : List UInt8)
    (h : (stepBytes io handler escape bytes p).1 ≠ .ok none) :
    (stepBytes io handler escape bytes p).2.pending = [] := by
  induction bytes generalizing p with
  | nil => exact (h rfl).elim
  | cons c cs ih =>
    by_cases hy : (stepByte io handler escape c p).1 = .ok none
    · rw [stepBytes_cons cs hy] at h ⊢
      exact ih h
    · rw [stepBytes_cons_of_stop cs hy]
      exact pending_stepByte hy

theorem pending_forward (io : Wire S W) (handler : Option (Handler H S W))
    (escape : Option UInt8) (bytes : List UInt8) (p : Progress H S W) :
    (forward io handler escape bytes p).2.pending = [] := by
  cases escape with
  | none => rfl
  | some escape =>
    rw [forward]
    split
    · rfl
    · next h =>
      apply pending_stepBytes bytes
      intro hy
      exact h _ (Prod.ext hy rfl)

end Wirebench.Relay

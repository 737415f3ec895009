import Wirebench.Proofs.Relay.Record
import Wirebench.Scripted.Commands
import Wirebench.Scripted.Duet

namespace Wirebench.Relay

variable {H S W : Type}

def processing (r : Relay H S W) (bytes : List UInt8) : Process := fun answers =>
  transduce answers r.escape r.handler.isSome bytes

theorem processing_append (r : Relay H S W) (xs ys : List UInt8) :
    r.processing (xs ++ ys) = (r.processing xs).andThen (r.processing ys) := by
  funext answers t
  rw [processing, Process.andThen]
  by_cases h : (transduce answers r.escape r.handler.isSome xs t).1 = .ok none
  · rw [transduce_append xs ys h]
    split
    · next heq => rw [processing] at heq ⊢; rw [heq]
    · next hne => exact (hne _ (Prod.ext h rfl)).elim
  · rw [transduce_append_of_stop xs ys h]
    split
    · next heq => exact (h (congrArg Prod.fst heq)).elim
    · rfl

/-- Who is served next. In between the world can change by itself, as when something arrives. -/
inductive Poll (W : Type)
  | near
  | far
  | meanwhile (change : W → W)

def Poll.of : Side → Poll W
  | .near => near
  | .far => far

/-- With what the session ends after a round. -/
def verdict : Outcome Round → Option (Outcome Exit)
  | .ok .served | .ok .idle => none
  | .ok (.ended exit) => some (.ok exit)
  | .error e => some (.error e)
  | .waiting => some .waiting
  | .stalled => some .stalled

def turn (io : Wire S W) (poll : Poll W) (r : Relay H S W) (e : Ends S W) :
    Outcome Round × Relay H S W × Ends S W :=
  match poll with
  | .near => serveNear io r e
  | .far => serveFar io r e
  | .meanwhile change => (.ok .idle, r, { e with world := change e.world })

/-- A session in which the sides are served in the given order, until the relay stops. -/
def attend (io : Wire S W) :
    List (Poll W) → Relay H S W → Ends S W → Option (Outcome Exit) × Relay H S W × Ends S W
  | [], r, e => (none, r, e)
  | poll :: polls, r, e =>
    let (x, r, e) := turn io poll r e
    match verdict x with
    | none => attend io polls r e
    | some x => (some x, r, e)

def recorded (r : Relay H S W) : Relay H (Side × S) (List Act × W) :=
  ⟨r.escape, r.handler.map .recorded, r.bufferSize, r.state, r.handlerState⟩

def Ends.recorded (log : List Act) (e : Ends S W) : Ends (Side × S) (List Act × W) :=
  ⟨(.near, e.near), (.far, e.far), (log, e.world)⟩

def Poll.recorded : Poll W → Poll (List Act × W)
  | near => near
  | far => far
  | meanwhile change => meanwhile fun v => (v.1, change v.2)

/-- What a relay does in a session. -/
def record (io : Wire S W) (polls : List (Poll W)) (r : Relay H S W) (e : Ends S W) : List Act :=
  (attend io.recorded (polls.map .recorded) r.recorded (e.recorded [])).2.2.world.1

/-- What a relay has to do at all. -/
inductive Act.Ordinary : Act → Prop
  | read (side n r) : Ordinary (.call side (.read n r))
  | write (side data r) : Ordinary (.call side (.write data r))
  | outward {a} (h : a.Outward) : Ordinary a

/-- Whether the relay stops, and with what, when the escape processing has come to `y`. -/
inductive StopsWith (acts : List Act) : Outcome (Option Exit) → Option (Outcome Exit) → Prop
  /-- All has been processed. The relay goes on, or an end or a failure of a side stops it. -/
  | processed {x} (h : EndsIn acts x) : StopsWith acts (.ok none) x
  | quit (h : EndsIn acts none) : StopsWith acts (.ok (some .quit)) (some (.ok .quit))
  /-- A break or a call of the handler does not end well. -/
  | failed {y x} (h : EndsIn acts (some x)) (hy : y.failing = some x) : StopsWith acts y (some x)

/-- The acts have the effects of the escape processing of what the near side hands out. -/
def Forwards (r : Relay H S W) (acts : List Act) (y : Outcome (Option Exit)) (r' : Relay H S W) :
    Prop :=
  ∀ answers before, answers.Agree (before ++ effectsOf acts) →
    r.processing (handed .near acts) answers ⟨r.state, before⟩ =
      (y, ⟨r'.state, before ++ effectsOf acts⟩)

/-- What some acts of a relay come to in both directions. -/
structure Undisturbed (r : Relay H S W) (acts : List Act) (x : Option (Outcome Exit))
    (r' : Relay H S W) : Prop where
  ordinary : ∀ a ∈ acts, a.Ordinary
  back : taken .near acts = handed .far acts
  forth : ∃ y, Forwards r acts y r' ∧ StopsWith acts y x

variable {r r₁ r' : Relay H S W} {acts acts' log : List Act} {x : Option (Outcome Exit)}
variable {y : Outcome (Option Exit)} {answers : Answers}

theorem StopsWith.goesOn (h : StopsWith acts y none) : y = .ok none ∧ EndsIn acts none := by
  cases h with
  | processed h => exact ⟨rfl, h⟩

theorem StopsWith.append (hends : EndsIn acts none) (h : StopsWith acts' y x) :
    StopsWith (acts ++ acts') y x := by
  cases h with
  | processed h => exact .processed (hends.append h)
  | quit h => exact .quit (hends.append h)
  | failed h hy => exact .failed (hends.append h) hy

theorem Forwards.append (h : Forwards r acts (.ok none) r₁) (hhandler : r₁.handler = r.handler)
    (hescape : r₁.escape = r.escape) (h' : Forwards r₁ acts' y r') :
    Forwards r (acts ++ acts') y r' := by
  intro answers before hagree
  rw [effectsOf_append, ← List.append_assoc] at hagree ⊢
  have hlater : r.processing (handed .near acts') = r₁.processing (handed .near acts') := by
    funext answers
    rw [processing, processing, hhandler, hescape]
  rw [handed_append, processing_append, Process.andThen, h answers before hagree.of_append]
  dsimp only
  rw [hlater]
  exact h' answers _ hagree

theorem Undisturbed.append (h : Undisturbed r acts none r₁) (hhandler : r₁.handler = r.handler)
    (hescape : r₁.escape = r.escape) (h' : Undisturbed r₁ acts' x r') :
    Undisturbed r (acts ++ acts') x r' := by
  obtain ⟨y, hforwards, hstops⟩ := h.forth
  obtain ⟨rfl, hends⟩ := hstops.goesOn
  obtain ⟨y', hforwards', hstops'⟩ := h'.forth
  refine ⟨List.forall_mem_append.2 ⟨h.ordinary, h'.ordinary⟩, ?_, y', ?_, ?_⟩
  · rw [taken_append, handed_append, h.back, h'.back]
  · exact hforwards.append hhandler hescape hforwards'
  · exact hstops'.append hends

theorem Undisturbed.still (hordinary : ∀ a ∈ acts, a.Ordinary)
    (hback : taken .near acts = handed .far acts) (hnear : handed .near acts = [])
    (heffects : effectsOf acts = []) (hends : EndsIn acts x) : Undisturbed r acts x r where
  ordinary := hordinary
  back := hback
  forth := by
    refine ⟨.ok none, ?_, .processed hends⟩
    intro answers before _
    rw [hnear, heffects, List.append_nil]
    rfl

/-- A session, or a round of one, goes in the same way when a record is kept. -/
structure Recounts {α : Type} (r : Relay H S W) (q : α × Relay H S W × Ends S W) (log : List Act)
    (q' : α × Relay H (Side × S) (List Act × W) × Ends (Side × S) (List Act × W)) (acts : List Act)
    (x : Option (Outcome Exit)) : Prop where
  same : q' = (q.1, q.2.1.recorded, q.2.2.recorded (log ++ acts))
  handler : q.2.1.handler = r.handler
  escape : q.2.1.escape = r.escape
  undisturbed : WritesSucceed acts → Undisturbed r acts x q.2.1

theorem stopsWith_forward (hends : EndsIn acts y.failing)
    (hquit : ∀ exit, y = .ok (some exit) → exit = .quit) :
    StopsWith acts y (verdict (y.map .ofExit)) := by
  cases y with
  | ok stop =>
    cases stop with
    | none => exact .processed hends
    | some exit =>
      obtain rfl := hquit exit rfl
      exact .quit hends
  | error => exact .failed hends rfl
  | waiting => exact .failed hends rfl
  | stalled => exact .failed hends rfl

theorem undisturbed_forward {n : Nat} {bytes : List UInt8} {state : EscapeState} {h : H}
    (houtward : ∀ a ∈ acts, a.Outward) (hends : EndsIn acts y.failing)
    (hforwards : ∀ answers before, answers.Agree (before ++ effectsOf acts) →
      r.processing bytes answers ⟨r.state, before⟩ = (y, ⟨state, before ++ effectsOf acts⟩)) :
    Undisturbed r (.call .near (.read n (.ok bytes)) :: acts) (verdict (y.map .ofExit))
      { r with state, handlerState := h } where
  ordinary := by
    rintro a (_ | ⟨_, ha⟩)
    · exact .read .near n (.ok bytes)
    · exact .outward (houtward a ha)
  back := (taken_of_outward houtward).trans (handed_of_outward houtward .far).symm
  forth := by
    refine ⟨y, ?_, ?_⟩
    · intro answers before hagree
      have hin : handed .near (.call .near (.read n (.ok bytes)) :: acts) = bytes :=
        (congrArg (bytes ++ ·) (handed_of_outward houtward .near)).trans (List.append_nil bytes)
      rw [hin]
      exact hforwards answers before hagree
    · have hread : EndsIn [.call .near (.read n (.ok bytes))] none :=
        .single (.call .near (.read n (.ok bytes)))
      apply stopsWith_forward (hread.append hends)
      intro exit hexit
      -- There are answers that agree with the effects, so the outcome is that of `transduce`.
      have hrun := hforwards (.recorded (effectsOf acts)) [] (agree_recorded _)
      exact quit_of_transduce ((congrArg Prod.fst hrun).trans hexit)

theorem recounts_read {result : Outcome (List UInt8)} {side : Side} {n : Nat}
    (hnothing : (Call.read n result).handed = []) {q : Outcome Round × Relay H S W × Ends S W}
    {q' : Outcome Round × Relay H (Side × S) (List Act × W) × Ends (Side × S) (List Act × W)}
    (hq : q' = (q.1, q.2.1.recorded, q.2.2.recorded (log ++ [.call side (.read n result)])))
    (hr : q.2.1 = r) (hstop : verdict q.1 = side.stopAfterRead result) :
    Recounts r q log q' [.call side (.read n result)] (verdict q.1) where
  same := hq
  handler := congrArg Relay.handler hr
  escape := congrArg Relay.escape hr
  undisturbed := by
    intro _
    have hhanded (other : Side) : handed other [.call side (.read n result)] = [] := by
      rw [handed, List.flatMap_singleton, Act.handed, hnothing, ite_self]
    have htaken : taken .near [.call side (.read n result)] = [] :=
      (List.append_nil _).trans (ite_self [])
    have heffects : effectsOf [.call side (.read n result)] = [] := by cases side <;> rfl
    have hends : EndsIn [.call side (.read n result)] (verdict q.1) :=
      hstop ▸ .single (.call side (.read n result))
    rw [hr]
    apply Undisturbed.still _ (htaken.trans (hhanded .far).symm) (hhanded .near) heffects hends
    intro a ha
    exact List.mem_singleton.1 ha ▸ .read side n result

theorem recounts_nothing {α : Type} {q : α × Relay H S W × Ends S W}
    {q' : α × Relay H (Side × S) (List Act × W) × Ends (Side × S) (List Act × W)}
    (hq : q' = (q.1, q.2.1.recorded, q.2.2.recorded log)) (hr : q.2.1 = r) :
    Recounts r q log q' [] none where
  same := by rw [hq, List.append_nil]
  handler := congrArg Relay.handler hr
  escape := congrArg Relay.escape hr
  undisturbed := by
    intro _
    rw [hr]
    exact .still (List.forall_mem_nil _) rfl rfl rfl (.going (List.forall_mem_nil _))

theorem recounts_serveNear (io : Wire S W) (r : Relay H S W) (e : Ends S W) (log : List Act) :
    ∃ acts, Recounts r (serveNear io r e) log (serveNear io.recorded r.recorded (e.recorded log))
      acts (verdict (serveNear io r e).1) := by
  simp only [serveNear, recorded, Ends.recorded, recorded_read]
  obtain ⟨result, near, world⟩ := io.read r.bufferSize e.near e.world
  cases result with
  | ok bytes =>
    obtain ⟨acts, hkeeps⟩ := forward_recorded io r.handler r.escape bytes
      ⟨r.state, [], r.handlerState, e.far, world⟩
      (log ++ [.call .near (.read r.bufferSize (.ok bytes))])
    have hsame := hkeeps.same
    rw [List.append_assoc] at hsame
    refine ⟨.call .near (.read r.bufferSize (.ok bytes)) :: acts, ?_, rfl, rfl, ?_⟩
    · exact congrArg (fun q => (q.1.map Round.ofExit,
        { r.recorded with state := q.2.escape, handlerState := q.2.handler },
        Ends.mk (.near, near) q.2.far q.2.world)) hsame
    · intro hwrites
      exact undisturbed_forward hkeeps.outward hkeeps.ends
        (transduce_recorded rfl rfl hkeeps (List.forall_mem_cons.1 hwrites).2)
  | error err =>
    cases err with
    | remoteClosed => exact ⟨_, recounts_read rfl rfl rfl rfl⟩
    | _ => exact ⟨_, recounts_read rfl rfl rfl rfl⟩
  | waiting => exact ⟨_, recounts_read rfl rfl rfl rfl⟩
  | stalled => exact ⟨_, recounts_read rfl rfl rfl rfl⟩

theorem undisturbed_writing {n : Nat} {bytes : List UInt8} {result : Outcome Unit}
    (h : Writing .near bytes acts result) (hwrites : WritesSucceed acts) :
    Undisturbed r (.call .far (.read n (.ok bytes)) :: acts)
      (verdict (result.map fun _ => .served)) r := by
  obtain rfl := h.ok hwrites
  apply Undisturbed.still
  · rintro a (_ | ⟨_, ha⟩)
    · exact .read .far n (.ok bytes)
    · obtain ⟨data, k, rfl⟩ := h.writes a ha
      exact .write .near data k
  · have hout : handed .far (.call .far (.read n (.ok bytes)) :: acts) = bytes :=
      (congrArg (bytes ++ ·) (h.handed .far)).trans (List.append_nil bytes)
    exact (h.all rfl).trans hout.symm
  · exact h.handed .near
  · exact h.effectsOf_near
  · exact EndsIn.append (.single (.call .far (.read n (.ok bytes)))) h.ends

theorem recounts_serveFar (io : Wire S W) (r : Relay H S W) (e : Ends S W) (log : List Act) :
    ∃ acts, Recounts r (serveFar io r e) log (serveFar io.recorded r.recorded (e.recorded log))
      acts (verdict (serveFar io r e).1) := by
  simp only [serveFar, recorded, Ends.recorded, recorded_read]
  obtain ⟨result, far, world⟩ := io.read r.bufferSize e.far e.world
  cases result with
  | ok bytes =>
    obtain ⟨acts, hsame, hwriting⟩ := writeAll_recorded io .near bytes e.near
      (log ++ [.call .far (.read r.bufferSize (.ok bytes))]) world
    rw [List.append_assoc] at hsame
    refine ⟨.call .far (.read r.bufferSize (.ok bytes)) :: acts, ?_, rfl, rfl, ?_⟩
    · exact congrArg (fun q => (q.1.map fun _ => Round.served, r.recorded,
        Ends.mk q.2.1 (.far, far) q.2.2)) hsame
    · intro hwrites
      exact undisturbed_writing hwriting (List.forall_mem_cons.1 hwrites).2
  | error err =>
    cases err with
    | remoteClosed => exact ⟨_, recounts_read rfl rfl rfl rfl⟩
    | _ => exact ⟨_, recounts_read rfl rfl rfl rfl⟩
  | waiting => exact ⟨_, recounts_read rfl rfl rfl rfl⟩
  | stalled => exact ⟨_, recounts_read rfl rfl rfl rfl⟩

theorem recounts_turn (io : Wire S W) (poll : Poll W) (r : Relay H S W) (e : Ends S W)
    (log : List Act) : ∃ acts, Recounts r (turn io poll r e) log
      (turn io.recorded poll.recorded r.recorded (e.recorded log)) acts
      (verdict (turn io poll r e).1) := by
  cases poll with
  | near => exact recounts_serveNear io r e log
  | far => exact recounts_serveFar io r e log
  | meanwhile change => exact ⟨[], recounts_nothing rfl rfl⟩

theorem attend_cons_of_going {io : Wire S W} {poll : Poll W} {e : Ends S W}
    (h : verdict (turn io poll r e).1 = none) (polls : List (Poll W)) :
    attend io (poll :: polls) r e =
      attend io polls (turn io poll r e).2.1 (turn io poll r e).2.2 := by
  rw [attend]
  dsimp only
  rw [h]

theorem attend_cons_of_stop {io : Wire S W} {poll : Poll W} {e : Ends S W} {x : Outcome Exit}
    (h : verdict (turn io poll r e).1 = some x) (polls : List (Poll W)) :
    attend io (poll :: polls) r e = (some x, (turn io poll r e).2) := by
  rw [attend]
  dsimp only
  rw [h]

theorem recounts_attend (io : Wire S W) (polls : List (Poll W)) (r : Relay H S W) (e : Ends S W)
    (log : List Act) : ∃ acts, Recounts r (attend io polls r e) log
      (attend io.recorded (polls.map .recorded) r.recorded (e.recorded log)) acts
      (attend io polls r e).1 := by
  induction polls generalizing r e log with
  | nil => exact ⟨[], recounts_nothing rfl rfl⟩
  | cons poll polls ih =>
    obtain ⟨acts, hfirst⟩ := recounts_turn io poll r e log
    -- With the record and without it the session goes on after the same rounds.
    have hverdict : verdict (turn io.recorded poll.recorded r.recorded (e.recorded log)).1 =
        verdict (turn io poll r e).1 := by rw [hfirst.same]
    cases hv : verdict (turn io poll r e).1 with
    | none =>
      rw [hv] at hverdict hfirst
      obtain ⟨acts', hrest⟩ := ih (turn io poll r e).2.1 (turn io poll r e).2.2 (log ++ acts)
      rw [List.map_cons, attend_cons_of_going hv, attend_cons_of_going hverdict, hfirst.same]
      refine ⟨acts ++ acts', ?_, hrest.handler.trans hfirst.handler,
        hrest.escape.trans hfirst.escape, ?_⟩
      · rw [hrest.same, List.append_assoc]
      · intro hwrites
        obtain ⟨hacts, hacts'⟩ := WritesSucceed.append.1 hwrites
        exact (hfirst.undisturbed hacts).append hfirst.handler hfirst.escape
          (hrest.undisturbed hacts')
    | some x =>
      rw [hv] at hverdict hfirst
      rw [List.map_cons, attend_cons_of_stop hv, attend_cons_of_stop hverdict, hfirst.same]
      exact ⟨acts, rfl, hfirst.handler, hfirst.escape, hfirst.undisturbed⟩

theorem recounts_record (io : Wire S W) (polls : List (Poll W)) (r : Relay H S W) (e : Ends S W) :
    Recounts r (attend io polls r e) []
      (attend io.recorded (polls.map .recorded) r.recorded (e.recorded []))
      (record io polls r e) (attend io polls r e).1 := by
  obtain ⟨acts, h⟩ := recounts_attend io polls r e []
  have hacts : record io polls r e = acts := by
    rw [record, h.same]
    rfl
  rw [hacts]
  exact h

theorem attend_recorded (io : Wire S W) (polls : List (Poll W)) (r : Relay H S W) (e : Ends S W) :
    attend io.recorded (polls.map .recorded) r.recorded (e.recorded []) =
      ((attend io polls r e).1, (attend io polls r e).2.1.recorded,
        (attend io polls r e).2.2.recorded (record io polls r e)) :=
  (recounts_record io polls r e).same

variable {io : Wire S W} {e e' : Ends S W} {polls : List (Poll W)}

theorem attend_append_of_going (h : (attend io polls r e).1 = none) (later : List (Poll W)) :
    attend io (polls ++ later) r e =
      attend io later (attend io polls r e).2.1 (attend io polls r e).2.2 := by
  induction polls generalizing r e with
  | nil => rfl
  | cons poll polls ih =>
    cases hv : verdict (turn io poll r e).1 with
    | none =>
      rw [attend_cons_of_going hv] at h ⊢
      rw [List.cons_append, attend_cons_of_going hv]
      exact ih h
    | some x =>
      rw [attend_cons_of_stop hv] at h
      cases h

theorem attend_append_of_stop {x : Outcome Exit} (h : (attend io polls r e).1 = some x)
    (later : List (Poll W)) : attend io (polls ++ later) r e = attend io polls r e := by
  induction polls generalizing r e with
  | nil => cases h
  | cons poll polls ih =>
    cases hv : verdict (turn io poll r e).1 with
    | none =>
      rw [attend_cons_of_going hv] at h ⊢
      rw [List.cons_append, attend_cons_of_going hv]
      exact ih h
    | some x => rw [List.cons_append, attend_cons_of_stop hv, attend_cons_of_stop hv]

theorem record_append (io : Wire S W) (polls later : List (Poll W)) (r : Relay H S W)
    (e : Ends S W) : record io polls r e <+: record io (polls ++ later) r e := by
  have hsame := attend_recorded io polls r e
  have hfirst := congrArg (·.1) hsame
  rw [record, record, List.map_append]
  cases hx : (attend io polls r e).1 with
  | none =>
    obtain ⟨acts, hrest⟩ := recounts_attend io later (attend io polls r e).2.1
      (attend io polls r e).2.2 (record io polls r e)
    rw [attend_append_of_going (hfirst.trans hx), hsame, hrest.same]
    exact List.prefix_append _ _
  | some x =>
    have hstop := attend_append_of_stop (hfirst.trans hx) (later.map .recorded)
    exact hstop ▸ List.prefix_refl _

/-- What the near side hands out and the answers determine the effects. -/
theorem Forwards.effects_eq {y' : Outcome (Option Exit)} (h : Forwards r acts y r₁)
    (h' : Forwards r acts' y' r') (hsame : handed .near acts' = handed .near acts)
    (hagree : answers.Agree (effectsOf acts)) (hagree' : answers.Agree (effectsOf acts')) :
    effectsOf acts' = effectsOf acts := by
  have hboth := (h' answers [] hagree').symm.trans (hsame ▸ h answers [] hagree)
  exact congrArg (·.2.effects) hboth

theorem attend_single (io : Wire S W) (poll : Poll W) (r : Relay H S W) (e : Ends S W) :
    attend io [poll] r e = (verdict (turn io poll r e).1, (turn io poll r e).2) := by
  cases hv : verdict (turn io poll r e).1 with
  | none => rw [attend_cons_of_going hv, attend]
  | some x => rw [attend_cons_of_stop hv]

theorem attend_serve (io : Wire S W) (r : Relay H S W) (e : Ends S W) :
    ∃ sides : List Side, attend io (sides.map .of) r e =
      (verdict (serve io r e).1, (serve io r e).2) := by
  have hnear := attend_single io .near r e
  rw [turn] at hnear
  rw [serve]
  split
  · next r₁ e₁ heq =>
    rw [heq] at hnear
    refine ⟨[.near] ++ [.far], ?_⟩
    rw [List.map_append]
    have hboth := attend_append_of_going (congrArg (·.1) hnear) [.far]
    rw [hnear] at hboth
    exact hboth.trans (attend_single io .far r₁ e₁)
  · exact ⟨[.near], hnear⟩

/-- What has come of a session is what comes of serving the sides in some order. A session that
waits or stalls may have come to its end without being stopped. -/
def Attended (io : Wire S W) (r : Relay H S W) (e : Ends S W)
    (q : Outcome Exit × Relay H S W × Ends S W) : Prop :=
  ∃ sides : List Side, (attend io (sides.map .of) r e).2 = q.2 ∧
    ((attend io (sides.map .of) r e).1 = some q.1 ∨
      (attend io (sides.map .of) r e).1 = none ∧ (q.1 = .waiting ∨ q.1 = .stalled))

theorem attended_runFor (io : Wire S W) (n : Nat) (r : Relay H S W) (e : Ends S W) :
    Attended io r e (runFor io n r e) := by
  induction n generalizing r e with
  | zero => exact ⟨[], rfl, .inr ⟨rfl, .inr rfl⟩⟩
  | succ n ih =>
    obtain ⟨sides, hsides⟩ := attend_serve io r e
    rw [runFor]
    revert hsides
    obtain ⟨x, r₁, e₁⟩ := serve io r e
    intro hsides
    have hx := congrArg (·.1) hsides
    have hlater (h : verdict x = none) : Attended io r e (runFor io n r₁ e₁) := by
      obtain ⟨later, hrest⟩ := ih r₁ e₁
      refine ⟨sides ++ later, ?_⟩
      rw [List.map_append, attend_append_of_going (hx.trans h), hsides]
      exact hrest
    cases x with
    | ok round =>
      cases round with
      | served => exact hlater rfl
      | idle =>
        dsimp only
        split
        · exact hlater rfl
        · exact ⟨sides, congrArg (·.2) hsides, .inr ⟨hx, .inl rfl⟩⟩
      | ended exit => exact ⟨sides, congrArg (·.2) hsides, .inl hx⟩
    | error err => exact ⟨sides, congrArg (·.2) hsides, .inl hx⟩
    | waiting => exact ⟨sides, congrArg (·.2) hsides, .inl hx⟩
    | stalled => exact ⟨sides, congrArg (·.2) hsides, .inl hx⟩

/-- Neither direction of a relay disturbs the other one. Whichever side is served when, as long as
writes succeed the near side has taken at every moment what the far side has handed out, and the far
side has got the effects of the escape processing of what the near side has handed out, whatever has
come from the far side meanwhile. The relay stops exactly at `quit`, at the end of a side, or at the
first call that does not end well; a call that the escape processing makes ends it there, and
otherwise all has been processed by then. -/
theorem directions_undisturbed (io : Wire S W) (r : Relay H S W) (e : Ends S W)
    (polls : List (Poll W)) (hwrites : WritesSucceed (record io polls r e)) :
    attend io.recorded (polls.map .recorded) r.recorded (e.recorded []) =
      ((attend io polls r e).1, (attend io polls r e).2.1.recorded,
        (attend io polls r e).2.2.recorded (record io polls r e)) ∧
    (∀ earlier later, polls = earlier ++ later →
      record io earlier r e <+: record io polls r e ∧
      Undisturbed r (record io earlier r e) (attend io earlier r e).1
        (attend io earlier r e).2.1) ∧
    (∀ e' polls', WritesSucceed (record io polls' r e') →
      (handed .far (record io polls' r e') = handed .far (record io polls r e) →
        taken .near (record io polls' r e') = taken .near (record io polls r e)) ∧
      (handed .near (record io polls' r e') = handed .near (record io polls r e) →
        ∀ answers : Answers, answers.Agree (effectsOf (record io polls r e)) →
          answers.Agree (effectsOf (record io polls' r e')) →
          effectsOf (record io polls' r e') = effectsOf (record io polls r e))) ∧
    Attended io r e (run io r e) := by
  have hall := (recounts_record io polls r e).undisturbed hwrites
  refine ⟨attend_recorded io polls r e, ?_, ?_, attended_runFor io _ r e⟩
  · rintro earlier later rfl
    have hfirst := record_append io earlier later r e
    have hearlier : WritesSucceed (record io earlier r e) := fun a ha =>
      hwrites a (hfirst.subset ha)
    exact ⟨hfirst, (recounts_record io earlier r e).undisturbed hearlier⟩
  · intro e' polls' hwrites'
    have hall' := (recounts_record io polls' r e').undisturbed hwrites'
    refine ⟨fun hsame => hall'.back.trans (hsame.trans hall.back.symm), ?_⟩
    intro hsame answers hagree hagree'
    obtain ⟨y, hforwards, -⟩ := hall.forth
    obtain ⟨y', hforwards', -⟩ := hall'.forth
    exact hforwards.effects_eq hforwards' hsame hagree hagree'

section Scripts

open Scripted

/-- A relay with `~` for its escape byte. -/
def tilde (script : Commands) : Relay (List CommandEntry) PipeHandle Duet :=
  new (some 126) (some (script.handler Duet.wire)) 4096 []

def duetEnds (events : List (Scripted.Side × ReadEvent)) : Ends PipeHandle Duet :=
  ⟨⟨.one, ""⟩, ⟨.two, ""⟩, { one := {}, two := {}, events }⟩

/-- The far side sends something when a command of the near side has come halfway. -/
def halfway : Ends PipeHandle Duet :=
  duetEnds [(.one, .data [97, 126]), (.two, .data [88, 89]), (.one, .data [122, 98, 126, 113, 99])]

/-- The near side is asked once too often. -/
def turns : List (Poll Duet) := [.near, .near, .far, .near]

def anyCommand : Commands := ⟨[], [], [], false, false⟩

theorem directions_undisturbed_halfway :
    taken .near (record Duet.wire turns (tilde anyCommand) halfway) = [88, 89] ∧
      Undisturbed (tilde anyCommand) (record Duet.wire turns (tilde anyCommand) halfway)
        (some (.ok .quit)) (attend Duet.wire turns (tilde anyCommand) halfway).2.1 := by
  have hwrites : WritesSucceed (record Duet.wire turns (tilde anyCommand) halfway) := by
    decide +kernel
  have hquit : (attend Duet.wire turns (tilde anyCommand) halfway).1 = some (.ok .quit) := by
    decide +kernel
  have hhanded : handed .far (record Duet.wire turns (tilde anyCommand) halfway) = [88, 89] := by
    decide +kernel
  have hall := directions_undisturbed Duet.wire (tilde anyCommand) halfway turns hwrites
  have hend := (hall.2.1 turns [] rfl).2
  exact ⟨hend.back.trans hhanded, hquit ▸ hend⟩

/-- The effects of bytes if nothing but `quit` ended the processing. -/
def untilQuit (answers : Answers) (escape : Option UInt8) (hasHandler : Bool) :
    List UInt8 → Transcript → Transcript
  | [], t => t
  | c :: cs, t =>
    match transduceByte answers escape hasHandler c t with
    | (.ok (some _), t) => t
    | (_, t) => untilQuit answers escape hasHandler cs t

/-- The handler refuses `z`. -/
def refusing : Commands := ⟨[], [], [122], false, false⟩

def refusedThenMore : Ends PipeHandle Duet :=
  duetEnds [(.one, .data [126, 122, 97, 98, 99])]

/-- Not all that has been read before `quit` has an effect: what stands in the same piece behind a
command that fails has none. -/
theorem failed_command_drops_rest :
    ¬∀ (r : Relay (List CommandEntry) PipeHandle Duet) (e : Ends PipeHandle Duet)
      (polls : List (Poll Duet)) (x : Outcome Exit) (answers : Answers),
      WritesSucceed (record Duet.wire polls r e) → (attend Duet.wire polls r e).1 = some x →
      answers.Agree (effectsOf (record Duet.wire polls r e)) →
      effectsOf (record Duet.wire polls r e) =
        (untilQuit answers r.escape r.handler.isSome (handed .near (record Duet.wire polls r e))
          ⟨r.state, []⟩).effects := by
  intro h
  have hwrites : WritesSucceed (record Duet.wire [.near] (tilde refusing) refusedThenMore) := by
    decide +kernel
  have hstop : (attend Duet.wire [.near] (tilde refusing) refusedThenMore).1 =
      some (.error (.notSupported "escape 122")) := by
    decide +kernel
  have heffects := h _ _ _ _ _ hwrites hstop (agree_recorded _)
  revert heffects
  decide +kernel

end Scripts

end Wirebench.Relay

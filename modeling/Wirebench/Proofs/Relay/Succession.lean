import Mathlib.Data.List.Induction
import Wirebench.Proofs.Relay.Deliveries

namespace Wirebench.Relay

variable {H S W : Type}

/-- A handler whose answers leave its own state as it was. -/
structure Handler.Stateless (hd : Handler H S W) : Prop where
  command : ∀ c h far w, (hd.command c h far w).2.1 = h
  sequence : ∀ bytes h far w, (hd.sequence bytes h far w).2.1 = h

/-- What a byte makes of the state of the escape processing, and what that comes to. -/
inductive ByteStep (escape : Option UInt8) (c : UInt8) :
    EscapeState → Outcome (Option Exit) → EscapeState → Prop
  | plain (hc : escape ≠ some c) : ByteStep escape c .normal (.ok none) .normal
  | escape (hc : escape = some c) : ByteStep escape c .normal (.ok none) .escaped
  | itself (hc : escape = some c) : ByteStep escape c .escaped (.ok none) .normal
  | quit (hc : escape ≠ some c) (hq : c = quitCommand) :
    ByteStep escape c .escaped (.ok (some .quit)) .normal
  | command (hc : escape ≠ some c) (hq : c ≠ quitCommand) :
    ByteStep escape c .escaped (.ok none) .normal
  | collect (hc : escape ≠ some c) (hq : c ≠ quitCommand) (hb : c ≠ breakCommand) :
    ByteStep escape c .escaped (.ok none) (.collecting [])
  | gather {sequence} (hc : isLineEnd c = false) :
    ByteStep escape c (.collecting sequence) (.ok none) (.collecting (sequence ++ [c]))
  | lineEnd {sequence} (hc : isLineEnd c = true) :
    ByteStep escape c (.collecting sequence) (.ok none) .normal
  /-- A command, or what is written before it, fails or has to wait. -/
  | failed {state y} {failure : Outcome Exit} (hstate : state ≠ .normal)
    (hy : y.failing = some failure) : ByteStep escape c state y .normal

/-- Where the escape processing stands once some bytes have been processed. -/
inductive Stands (escape : Option UInt8) : List UInt8 → EscapeState → Prop
  | start : Stands escape [] .normal
  | byte {bytes c state state'} (h : Stands escape bytes state)
    (hstep : ByteStep escape c state (.ok none) state') : Stands escape (bytes ++ [c]) state'

/-- How a session leaves the escape processing, by the bytes that have been read from the near side
and by what has come of the session. -/
inductive Leaves (escape : Option UInt8) :
    List UInt8 → Option (Outcome Exit) → EscapeState → Prop
  | processed {bytes x state} (h : Stands escape bytes state) (hx : x ≠ some (.ok .quit)) :
    Leaves escape bytes x state
  /-- What has been read behind the command is dropped. -/
  | quit {earlier rest} (h : Stands escape earlier .escaped) :
    Leaves escape (earlier ++ quitCommand :: rest) (some (.ok .quit)) .normal
  | failed {earlier c rest state failure} (h : Stands escape earlier state)
    (hstate : state ≠ .normal) (hfails : ∀ exit, failure ≠ .ok exit) :
    Leaves escape (earlier ++ c :: rest) (some failure) .normal

/-- The relay after a session. -/
def after (io : Wire S W) (polls : List (Poll W)) (r : Relay H S W) (e : Ends S W) :
    Relay H S W :=
  (attend io polls r e).2.1

/-- In a session from the same beginning two relays do the same, and the same comes of it. -/
structure SameSession (io : Wire S W) (polls : List (Poll W)) (e : Ends S W) (r r' : Relay H S W) :
    Prop where
  outcome : (attend io polls r e).1 = (attend io polls r' e).1
  record : record io polls r e = record io polls r' e
  ends : (attend io polls r e).2.2 = (attend io polls r' e).2.2
  outcome_run : (run io r e).1 = (run io r' e).1
  ends_run : (run io r e).2.2 = (run io r' e).2.2

/-- No session tells the two relays apart. -/
def Alike (r r' : Relay H S W) : Prop :=
  ∀ (io : Wire S W) (polls : List (Poll W)) (e : Ends S W), SameSession io polls e r r'

variable {io : Wire S W} {handler : Option (Handler H S W)} {escape : Option UInt8} {c : UInt8}
variable {p : Progress H S W} {state : EscapeState} {bytes came : List UInt8}

theorem ByteStep.answered {α : Type} (h : ByteStep escape c state (.ok none) .normal)
    (hstate : state ≠ .normal) (r : Outcome α) :
    ByteStep escape c state (r.map fun _ => none) .normal := by
  cases r with
  | ok => exact h
  | error => exact .failed hstate rfl
  | waiting => exact .failed hstate rfl
  | stalled => exact .failed hstate rfl

theorem byteStep_dispatch (hc : escape ≠ some c) (hq : c ≠ quitCommand)
    (hb : c ≠ breakCommand) (hp : p.escape = .normal) :
    ByteStep escape c .escaped ((dispatch handler c p).1.map fun _ => none)
      (dispatch handler c p).2.escape := by
  have hescaped : EscapeState.escaped ≠ .normal := by decide
  cases handler with
  | none =>
    show ByteStep escape c .escaped (.ok none) p.escape
    exact hp ▸ .command hc hq
  | some hd =>
    rw [dispatch]
    obtain ⟨r, h, far, world⟩ := hd.command c p.handler p.far p.world
    cases r with
    | ok collects =>
      cases collects with
      | true => exact .collect hc hq hb
      | false => exact hp ▸ .command hc hq
    | error => exact hp ▸ .failed hescaped rfl
    | waiting => exact hp ▸ .failed hescaped rfl
    | stalled => exact hp ▸ .failed hescaped rfl

theorem byteStep_perform (hc : escape ≠ some c) (hp : p.escape = .normal) :
    ByteStep escape c .escaped (perform io handler c p).1 (perform io handler c p).2.escape := by
  rw [perform]
  by_cases hq : c = quitCommand
  · rw [if_pos hq]
    exact hp ▸ .quit hc hq
  · rw [if_neg hq]
    by_cases hb : c = breakCommand
    · have hescaped : EscapeState.escaped ≠ .normal := by decide
      rw [if_pos hb, sendBreak_eq]
      exact hp ▸ ByteStep.answered (.command hc hq) hescaped _
    · rw [if_neg hb]
      exact byteStep_dispatch hc hq hb hp

theorem byteStep_afterFlush {next : Progress H S W → Outcome (Option Exit) × Progress H S W}
    (hstate : state ≠ .normal)
    (hnext : ∀ p : Progress H S W, p.escape = .normal →
      ByteStep escape c state (next p).1 (next p).2.escape) (hp : p.escape = .normal) :
    ByteStep escape c state (afterFlush io next p).1 (afterFlush io next p).2.escape := by
  have hflush : (flush io p).2.escape = .normal := hp
  rw [afterFlush]
  revert hflush
  obtain ⟨r, p₁⟩ := flush io p
  intro hflush
  cases r with
  | ok => exact hnext p₁ hflush
  | error => exact hflush ▸ .failed hstate rfl
  | waiting => exact hflush ▸ .failed hstate rfl
  | stalled => exact hflush ▸ .failed hstate rfl

theorem byteStep_handOver (hc : isLineEnd c = true) {sequence : List UInt8}
    (hp : p.escape = .normal) :
    ByteStep escape c (.collecting sequence) (handOver handler sequence p).1
      (handOver handler sequence p).2.escape := by
  have hcollecting : EscapeState.collecting sequence ≠ .normal := nofun
  rw [handOver]
  cases handler with
  | none => exact hp ▸ .lineEnd hc
  | some hd => exact hp ▸ ByteStep.answered (.lineEnd hc) hcollecting _

theorem byteStep_stepByte (io : Wire S W) (handler : Option (Handler H S W)) (escape c : UInt8)
    (p : Progress H S W) :
    ByteStep (some escape) c p.escape (stepByte io handler escape c p).1
      (stepByte io handler escape c p).2.escape := by
  cases hp : p.escape with
  | normal =>
    by_cases hc : c = escape
    · subst hc
      rw [stepByte_escape c hp]
      exact .escape rfl
    · rw [stepByte_plain hp hc]
      exact .plain fun h => hc (Option.some.inj h).symm
  | escaped =>
    by_cases hc : c = escape
    · subst hc
      rw [stepByte_itself c hp]
      exact .itself rfl
    · have hne : some escape ≠ some c := fun h => hc (Option.some.inj h).symm
      have hescaped : EscapeState.escaped ≠ .normal := by decide
      rw [stepByte_command hp hc]
      exact byteStep_afterFlush hescaped (fun _ => byteStep_perform hne) rfl
  | collecting sequence =>
    cases hc : isLineEnd c with
    | false =>
      rw [stepByte_gather hp hc]
      exact .gather hc
    | true =>
      have hcollecting : EscapeState.collecting sequence ≠ .normal := nofun
      rw [stepByte_lineEnd hp hc]
      exact byteStep_afterFlush hcollecting (fun _ => byteStep_handOver hc) rfl

theorem Leaves.stands (h : Leaves escape bytes none state) : Stands escape bytes state := by
  cases h with
  | processed h => exact h

/-- Without an escape byte no state but the first one is reached. -/
theorem Stands.unescaped (h : Stands none bytes state) : state = .normal := by
  induction h with
  | start => rfl
  | byte _ hstep ih =>
    subst ih
    cases hstep with
    | plain => rfl
    | escape hc => cases hc
    | failed hstate => exact (hstate rfl).elim

theorem Leaves.unescaped {x : Option (Outcome Exit)} (h : Leaves none bytes x state) :
    state = .normal := by
  cases h with
  | processed h => exact h.unescaped
  | quit => rfl
  | failed => rfl

theorem stands_unescaped (bytes : List UInt8) : Stands none bytes .normal := by
  induction bytes using List.reverseRecOn with
  | nil => exact .start
  | append_singleton bytes c ih =>
    have hc : none ≠ some c := nofun
    exact .byte ih (.plain hc)

theorem ne_ok_of_failing {y : Outcome (Option Exit)} {failure : Outcome Exit}
    (hy : y.failing = some failure) (exit : Exit) : failure ≠ .ok exit := by
  rintro rfl
  cases y <;> cases hy

theorem verdict_of_failing {y : Outcome (Option Exit)} {failure : Outcome Exit}
    (hy : y.failing = some failure) : verdict (y.map .ofExit) = some failure := by
  cases y with
  | ok => cases hy
  | error => exact hy
  | waiting => exact hy
  | stalled => exact hy

theorem ByteStep.leaves {y : Outcome (Option Exit)} {state' : EscapeState}
    (hstep : ByteStep escape c state y state') (hy : y ≠ .ok none) (h : Stands escape came state)
    (rest : List UInt8) : Leaves escape (came ++ c :: rest) (verdict (y.map .ofExit)) state' := by
  cases hstep with
  | quit _ hq =>
    subst hq
    exact .quit h
  | failed hstate hfails =>
    rw [verdict_of_failing hfails]
    exact .failed h hstate (ne_ok_of_failing hfails)
  | plain | escape | itself | command | collect | gather | lineEnd => exact (hy rfl).elim

theorem going_ne_quit : (none : Option (Outcome Exit)) ≠ some (.ok .quit) := by decide

theorem leaves_stepBytes (io : Wire S W) (handler : Option (Handler H S W)) (escape : UInt8)
    (bytes : List UInt8) (p : Progress H S W) (h : Stands (some escape) came p.escape) :
    Leaves (some escape) (came ++ bytes)
      (verdict ((stepBytes io handler escape bytes p).1.map .ofExit))
      (stepBytes io handler escape bytes p).2.escape := by
  induction bytes generalizing p came with
  | nil =>
    rw [List.append_nil]
    exact .processed h going_ne_quit
  | cons c cs ih =>
    have hstep := byteStep_stepByte io handler escape c p
    by_cases hy : (stepByte io handler escape c p).1 = .ok none
    · rw [stepBytes_cons cs hy, List.append_cons]
      rw [hy] at hstep
      exact ih _ (h.byte hstep)
    · rw [stepBytes_cons_of_stop cs hy]
      exact hstep.leaves hy h cs

theorem verdict_ne_quit (r : Outcome Unit) :
    verdict ((r.map fun _ => none).map .ofExit) ≠ some (.ok .quit) := by
  intro h
  cases r <;> cases h

theorem leaves_flush (h : Stands escape bytes p.escape) :
    Leaves escape bytes
      (verdict (((flush io p).1.map fun _ => none).map .ofExit)) (flush io p).2.escape :=
  .processed h (verdict_ne_quit _)

theorem leaves_forward (io : Wire S W) (handler : Option (Handler H S W)) (bytes : List UInt8)
    (p : Progress H S W) (h : Stands escape came p.escape) :
    Leaves escape (came ++ bytes) (verdict ((forward io handler escape bytes p).1.map .ofExit))
      (forward io handler escape bytes p).2.escape := by
  cases escape with
  | none =>
    have hall : Stands none (came ++ bytes) p.escape :=
      h.unescaped ▸ stands_unescaped (came ++ bytes)
    exact leaves_flush (p := { p with pending := bytes }) hall
  | some escape =>
    have hbytes := leaves_stepBytes io handler escape bytes { p with pending := [] } h
    rw [forward]
    revert hbytes
    obtain ⟨y, p₁⟩ := stepBytes io handler escape bytes { p with pending := [] }
    intro hbytes
    cases y with
    | ok stop =>
      cases stop with
      | none => exact leaves_flush hbytes.stands
      | some => exact hbytes
    | error => exact hbytes
    | waiting => exact hbytes
    | stalled => exact hbytes

variable {r : Relay H S W} {e : Ends S W} {poll : Poll W} {polls : List (Poll W)}
variable {acts log : List Act}

theorem Leaves.nothing {x : Option (Outcome Exit)} (h : Stands escape came state)
    (hx : x ≠ some (.ok .quit)) : Leaves escape (came ++ []) x state :=
  .processed ((List.append_nil came).symm ▸ h) hx

theorem stopAfterRead_ne_quit (side : Side) (result : Outcome (List UInt8)) :
    side.stopAfterRead result ≠ some (.ok .quit) := by
  intro h
  cases result with
  | error err => cases err <;> cases side <;> cases h
  | _ => cases h

theorem leaves_turn (io : Wire S W) (poll : Poll W) (e : Ends S W)
    (h : Stands r.escape came r.state) :
    Leaves r.escape (came ++ turnInput io poll r e) (verdict (turn io poll r e).1)
      (turn io poll r e).2.1.state := by
  cases poll with
  | near =>
    rw [turn, turnInput, serveNear]
    obtain ⟨result, near, world⟩ := io.read r.bufferSize e.near e.world
    have hnothing := Leaves.nothing h (stopAfterRead_ne_quit .near result)
    cases result with
    | ok bytes =>
      exact leaves_forward io r.handler bytes ⟨r.state, [], r.handlerState, e.far, world⟩ h
    | error err => cases err <;> exact hnothing
    | waiting => exact hnothing
    | stalled => exact hnothing
  | far =>
    rw [turn, turnInput, serveFar]
    obtain ⟨result, far, world⟩ := io.read r.bufferSize e.far e.world
    have hnothing := Leaves.nothing h (stopAfterRead_ne_quit .far result)
    cases result with
    | ok bytes =>
      dsimp only
      obtain ⟨written, near, world⟩ := io.writeAll bytes e.near world
      have hwritten := Leaves.nothing h (verdict_ne_quit written)
      cases written <;> exact hwritten
    | error err => cases err <;> exact hnothing
    | waiting => exact hnothing
    | stalled => exact hnothing
  | meanwhile => exact .nothing h going_ne_quit

theorem leaves_attend (io : Wire S W) (polls : List (Poll W)) (r : Relay H S W) (e : Ends S W)
    (log : List Act) (h : Stands r.escape came r.state)
    (hacts : (attend io.recorded (polls.map .recorded) r.recorded (e.recorded log)).2.2.world.1 =
      log ++ acts) :
    Leaves r.escape (came ++ handed .near acts) (attend io polls r e).1
      (attend io polls r e).2.1.state := by
  have hopen {came : List UInt8} {r' : Relay H S W}
      (h : r'.escape = r.escape ∧ Stands r.escape came r'.state) :
      Leaves r.escape came none r'.state := .processed h.2 going_ne_quit
  refine attend_induction (P := fun came r' _ => r'.escape = r.escape ∧
    Stands r.escape came r'.state) (F := fun came x r' _ => Leaves r.escape came x r'.state)
    hopen ?_ came ⟨rfl, h⟩ log hacts
  rintro poll - came r' e' ⟨hescape, hstands⟩
  have hturn := leaves_turn io poll e' (hescape.symm ▸ hstands)
  obtain ⟨_, hsame⟩ := recounts_turn io poll r' e' []
  rw [hescape] at hturn
  refine ⟨fun hv => ⟨hsame.escape.trans hescape, ?_⟩, fun x hv => ?_⟩
  · rw [hv] at hturn
    exact hturn.stands
  · rw [hv] at hturn
    exact hturn

theorem maintains_handler (hstateless : ∀ hd ∈ handler, hd.Stateless) (io : Wire S W) (h : H) :
    Maintains io handler fun h' _ _ => h' = h where
  write _ hQ := hQ
  control hQ := hQ
  command hd hmem _ _ _ c hQ := ((hstateless hd hmem).command c _ _ _).trans hQ
  sequence hd hmem _ _ _ bytes hQ := ((hstateless hd hmem).sequence bytes _ _ _).trans hQ

theorem turn_leaves_state (hstateless : ∀ hd ∈ r.handler, hd.Stateless) (io : Wire S W)
    (poll : Poll W) (e : Ends S W) : ∃ state, (turn io poll r e).2.1 = { r with state } := by
  cases poll with
  | near =>
    rw [turn, serveNear]
    obtain ⟨result, near, world⟩ := io.read r.bufferSize e.near e.world
    cases result with
    | ok bytes =>
      have hsame := (maintains_handler hstateless io r.handlerState).forward r.escape bytes
        ⟨r.state, [], r.handlerState, e.far, world⟩ rfl
      exact ⟨_, congrArg (Relay.mk r.escape r.handler r.bufferSize _) hsame⟩
    | error err => cases err <;> exact ⟨r.state, rfl⟩
    | waiting => exact ⟨r.state, rfl⟩
    | stalled => exact ⟨r.state, rfl⟩
  | far =>
    rw [turn, serveFar]
    obtain ⟨result, far, world⟩ := io.read r.bufferSize e.far e.world
    cases result with
    | ok bytes => exact ⟨r.state, rfl⟩
    | error err => cases err <;> exact ⟨r.state, rfl⟩
    | waiting => exact ⟨r.state, rfl⟩
    | stalled => exact ⟨r.state, rfl⟩
  | meanwhile => exact ⟨r.state, rfl⟩

theorem attend_leaves_state (hstateless : ∀ hd ∈ r.handler, hd.Stateless) (io : Wire S W)
    (polls : List (Poll W)) (e : Ends S W) :
    ∃ state, (attend io polls r e).2.1 = { r with state } := by
  induction polls generalizing r e with
  | nil => exact ⟨r.state, rfl⟩
  | cons poll polls ih =>
    obtain ⟨state, hturn⟩ := turn_leaves_state hstateless io poll e
    cases hv : verdict (turn io poll r e).1 with
    | none =>
      rw [attend_cons_of_going hv, hturn]
      exact ih (r := { r with state }) hstateless (turn io poll r e).2.2
    | some x =>
      rw [attend_cons_of_stop hv]
      exact ⟨state, hturn⟩

/-- A wire that hands out one byte whenever it is asked, and takes everything. -/
def handing (c : UInt8) : Wire S W where
  name _ := ""
  read n s w := (.ok ([c].take n), s, w)
  write data s w := (.ok data.length, s, w)
  writeUrgent _ s w := (.ok (), s, w)
  readUrgent _ s w := (.waiting, s, w)
  control _ s w := (.ok "", s, w)
  close s w := (.ok (), s, w)
  discard _ w := w
  backlog _ _ := 1

theorem read_handing {n : Nat} (hn : 0 < n) (c : UInt8) (s : S) (w : W) :
    (handing c : Wire S W).read n s w = (.ok [c], s, w) := by
  have hall : [c].take n = [c] := List.take_of_length_le hn
  exact congrArg (fun bytes => (Outcome.ok bytes, s, w)) hall

theorem writeAll_handing (c b : UInt8) (side : Side) (s : S) (log : List Act) (w : W) :
    (handing c : Wire S W).recorded.writeAll [b] (side, s) (log, w) =
      (.ok (), (side, s), (log ++ [.call side (.write [b] (.ok 1))], w)) := by
  have hwrite : (handing c : Wire S W).write [b] s w = (.ok 1, s, w) := rfl
  rw [Wire.writeAll, recorded_write, hwrite]
  dsimp only
  rw [List.drop_nil, Wire.writeAll]

theorem record_handing {esc : UInt8} (hescape : r.escape = some esc) (hsize : 0 < r.bufferSize)
    {written : List UInt8}
    (hstep : ∀ p : Progress H (Side × S) (List Act × W), p.escape = r.state → p.pending = [] →
      stepByte (handing c).recorded (r.handler.map .recorded) esc c p =
        (.ok none, { p with escape := state, pending := written })) (e : Ends S W) :
    record (handing c) [.near] r e =
      ((handing c : Wire S W).recorded.writeAll written (.far, e.far)
        ([.call .near (.read r.bufferSize (.ok [c]))], e.world)).2.2.1 := by
  rw [record, List.map_cons, List.map_nil, attend_single]
  simp only [turn, Poll.recorded, serveNear, recorded, Ends.recorded, recorded_read,
    read_handing hsize, hescape, forward, stepBytes]
  rw [hstep _ rfl rfl]
  rfl

theorem record_handing_kept {esc : UInt8} (hescape : r.escape = some esc)
    (hsize : 0 < r.bufferSize)
    (hstep : ∀ p : Progress H (Side × S) (List Act × W), p.escape = r.state →
      stepByte (handing c).recorded (r.handler.map .recorded) esc c p =
        (.ok none, { p with escape := state })) (e : Ends S W) :
    record (handing c) [.near] r e = [.call .near (.read r.bufferSize (.ok [c]))] := by
  have hkept (p : Progress H (Side × S) (List Act × W)) (hp : p.escape = r.state)
      (hnone : p.pending = []) : stepByte (handing c).recorded (r.handler.map .recorded) esc c p =
        (.ok none, { p with escape := state, pending := [] }) := by
    rw [hstep p hp, hnone]
  rw [record_handing hescape hsize hkept, Wire.writeAll]

theorem record_handing_written {esc : UInt8} (hescape : r.escape = some esc)
    (hsize : 0 < r.bufferSize)
    (hstep : ∀ p : Progress H (Side × S) (List Act × W), p.escape = r.state →
      stepByte (handing c).recorded (r.handler.map .recorded) esc c p =
        (.ok none, { p with escape := state, pending := p.pending ++ [c] })) (e : Ends S W) :
    record (handing c) [.near] r e =
      [.call .near (.read r.bufferSize (.ok [c])), .call .far (.write [c] (.ok 1))] := by
  have hwritten (p : Progress H (Side × S) (List Act × W)) (hp : p.escape = r.state)
      (hnone : p.pending = []) : stepByte (handing c).recorded (r.handler.map .recorded) esc c p =
        (.ok none, { p with escape := state, pending := [c] }) := by
    rw [hstep p hp, hnone, List.nil_append]
  rw [record_handing hescape hsize hwritten, writeAll_handing]
  rfl

theorem exists_plain (escape : UInt8) : ∃ c, c ≠ escape ∧ isLineEnd c = false := by
  by_cases h : escape = 0
  · exact ⟨1, by rw [h]; decide, rfl⟩
  · exact ⟨0, Ne.symm h, rfl⟩

theorem normal_of_alike {esc : UInt8} (hescape : r.escape = some esc) (hsize : 0 < r.bufferSize)
    (hstate : r.state = .normal) (e : Ends S W) (h : Alike { r with state } r) :
    state = .normal := by
  cases state with
  | normal => rfl
  | escaped =>
    -- A second escape byte is written, a first one is not.
    have hused := record_handing_written (r := { r with state := .escaped }) (c := esc) hescape
      hsize (fun _ => stepByte_itself esc) e
    have hfresh := record_handing_kept (r := r) hescape hsize
      (fun p hp => stepByte_escape esc (hp.trans hstate)) e
    have hsame := hused.symm.trans ((h (handing esc) [.near] e).record.trans hfresh)
    cases hsame
  | collecting sequence =>
    -- A plain byte is taken into the sequence instead of being written.
    obtain ⟨c, hc, hline⟩ := exists_plain esc
    have hused := record_handing_kept (r := { r with state := .collecting sequence }) hescape hsize
      (fun _ hp => stepByte_gather hp hline) e
    have hfresh := record_handing_written (r := r) hescape hsize
      (fun p hp => stepByte_plain (hp.trans hstate) hc) e
    have hsame := hused.symm.trans ((h (handing c) [.near] e).record.trans hfresh)
    cases hsame

theorem alike_refl (r : Relay H S W) : Alike r r := fun _ _ _ => ⟨rfl, rfl, rfl, rfl, rfl⟩

/-- A session, whoever is served when and whatever the ends do, changes nothing of a new relay but
the state of its escape processing, and leaves that where the bytes read from the near side have
brought it: at the beginning after `quit` and after a command that fails, and otherwise where a
command has come to when the session ends. The next session goes as on a new relay, whatever its
ends do, exactly if no command has been begun. -/
theorem sessions_independent_iff (io : Wire S W) (escape : Option UInt8)
    (handler : Option (Handler H S W)) (size : Nat) (h : H)
    (hstateless : ∀ hd ∈ handler, hd.Stateless) (polls : List (Poll W)) (e : Ends S W) :
    ∃ state,
      after io polls (new escape handler size h) e = { new escape handler size h with state } ∧
      Leaves escape (handed .near (record io polls (new escape handler size h) e))
        (attend io polls (new escape handler size h) e).1 state ∧
      (Alike (after io polls (new escape handler size h) e) (new escape handler size h) ↔
        state = .normal) ∧
      Attended io (new escape handler size h) e (run io (new escape handler size h) e) := by
  obtain ⟨state, hafter⟩ :=
    attend_leaves_state (r := new escape handler size h) hstateless io polls e
  have hworld := congrArg (·.2.2.world.1) (attend_recorded io polls (new escape handler size h) e)
  have hleaves := leaves_attend io polls (new escape handler size h) e [] .start hworld
  rw [hafter] at hleaves
  refine ⟨state, hafter, hleaves, ?_, attended_runFor io _ _ e⟩
  rw [after, hafter]
  constructor
  · intro halike
    cases escape with
    | none => exact hleaves.unescaped
    | some esc =>
      have hsize : 0 < (new (some esc) handler size h).bufferSize := Nat.le_max_right size 1
      exact normal_of_alike rfl hsize rfl e halike
  · rintro rfl
    exact alike_refl _

section Scripts

open Scripted

/-- A handler for one command, `x`, which sends what follows up to the end of the line to the far
side. -/
def linewise : Handler Unit PipeHandle Duet where
  command c _ far w := (.ok (c = 120), (), far, w)
  sequence bytes _ far w :=
    let (r, far, w) := Duet.wire.writeAll bytes far w
    (r, (), far, w)

/-- A relay with `~` for its escape byte, whose handler keeps no state. -/
def linewiseRelay : Relay Unit PipeHandle Duet := new (some 126) (some linewise) 4096 ()

/-- The near side is at its end inside a sequence. -/
def cutOff : Ends PipeHandle Duet := duetEnds [(.one, .data [97, 126, 120, 98])]

def quitting : Ends PipeHandle Duet := duetEnds [(.one, .data [97, 126, 113, 126])]

theorem sessions_independent_iff_cutOff :
    (attend Duet.wire [.near, .near] linewiseRelay cutOff).1 = some (.ok .nearClosed) ∧
      ¬Alike (after Duet.wire [.near, .near] linewiseRelay cutOff) linewiseRelay ∧
      (attend Duet.wire [.near] linewiseRelay quitting).1 = some (.ok .quit) ∧
      Alike (after Duet.wire [.near] linewiseRelay quitting) linewiseRelay := by
  have hstateless : ∀ hd ∈ some linewise, hd.Stateless := by
    rintro hd ⟨⟩
    exact ⟨fun _ _ _ _ => rfl, fun _ _ _ _ => rfl⟩
  have hcut : (after Duet.wire [.near, .near] linewiseRelay cutOff).state = .collecting [98] := by
    decide +kernel
  have hquit : (after Duet.wire [.near] linewiseRelay quitting).state = .normal := by
    decide +kernel
  refine ⟨by decide +kernel, ?_, by decide +kernel, ?_⟩
  · obtain ⟨state, hafter, -, halike, -⟩ := sessions_independent_iff Duet.wire (some 126)
      (some linewise) 4096 () hstateless [.near, .near] cutOff
    intro h
    have hstate : state = .normal := halike.1 h
    have hused : (after Duet.wire [.near, .near] linewiseRelay cutOff).state = state :=
      congrArg Relay.state hafter
    cases hcut.symm.trans (hused.trans hstate)
  · obtain ⟨state, hafter, -, halike, -⟩ := sessions_independent_iff Duet.wire (some 126)
      (some linewise) 4096 () hstateless [.near] quitting
    have hused : (after Duet.wire [.near] linewiseRelay quitting).state = state :=
      congrArg Relay.state hafter
    exact halike.2 (hused.symm.trans hquit)

/-- After a session that ends right behind an escape byte, the first byte of the next session is
taken for a command. -/
theorem unfinished_command_carries_over :
    ¬∀ (escape : Option UInt8) (size : Nat) (e e' : Ends PipeHandle Duet),
      (run Duet.wire (run Duet.wire (new escape none size ()) e).2.1 e').1 =
        (run Duet.wire (new escape (none : Option (Handler Unit _ _)) size ()) e').1 := by
  intro h
  have hsame := h (some 126) 4096 (duetEnds [(.one, .data [126])]) (duetEnds [(.one, .data [113])])
  revert hsame
  decide +kernel

end Scripts

end Wirebench.Relay

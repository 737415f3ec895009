import Wirebench.Bench.Accept
import Wirebench.Proofs.Bench.Exchanges
import Wirebench.Proofs.Bench.Openings

namespace Wirebench

variable {A T W α β : Type}

namespace Acceptor

def tag (a : Acceptor (A × Nat)) : Bool × Nat := (a.isOpen, a.listener.2)

theorem tag_new (d : Descriptor) (config : EndpointConfig) (listener : A × Nat) :
    (new d config listener).tag = (true, listener.2) := by
  have hbuild (transport : Transport) (fs : List Filter) :
      (build config transport listener fs).isOpen = true ∧
        (build config transport listener fs).listener = listener := by
    induction fs with
    | nil => exact ⟨rfl, rfl⟩
    | cons f fs ih =>
      cases f
      exact ⟨rfl, ih.2⟩
  rw [new, tag, (hbuild d.transport d.filters).1, (hbuild d.transport d.filters).2]

end Acceptor

namespace Bench

namespace Handles

/-- Whether the handles that are there are open, and their numbers. -/
def tags (h : Handles (A × Nat) (T × Nat)) : List (Bool × Nat) :=
  (h.first.map Endpoint.tag).toList ++ (h.second.map Endpoint.tag).toList ++
    (h.acceptor.map Acceptor.tag).toList ++ (h.connector.map Acceptor.tag).toList

def numbers (h : Handles (A × Nat) (T × Nat)) : List Nat := h.tags.map Prod.snd

def AllOpen (h : Handles (A × Nat) (T × Nat)) : Prop := ∀ t ∈ h.tags, t.1 = true

variable {h : Handles (A × Nat) (T × Nat)}

theorem tags_acceptor (hnone : h.acceptor = none) (a : Acceptor (A × Nat)) :
    ([a.tag] ++ h.tags).Perm { h with acceptor := some a }.tags := by
  simp only [tags, hnone, Option.map_none, Option.map_some, Option.toList_none, Option.toList_some,
    List.append_nil]
  rw [List.append_assoc _ [a.tag], List.singleton_append, List.singleton_append]
  exact List.perm_middle.symm

theorem tags_connector (hnone : h.connector = none) (a : Acceptor (A × Nat)) :
    ([a.tag] ++ h.tags).Perm { h with connector := some a }.tags := by
  simp only [tags, hnone, Option.map_none, Option.map_some, Option.toList_none, Option.toList_some,
    List.append_nil]
  exact List.perm_append_comm

theorem tags_ends (hfirst : h.first = none) (hsecond : h.second = none)
    (first second : Option (Endpoint (T × Nat))) :
    ((first.map Endpoint.tag).toList ++ (second.map Endpoint.tag).toList ++ h.tags).Perm
      { h with first, second }.tags := by
  simp only [tags, hfirst, hsecond, Option.map_none, Option.toList_none, List.nil_append,
    List.append_assoc]
  exact .refl _

end Handles

/-- The state of a run on a network that keeps an account. -/
abbrev Numbered (A T W : Type) := RunState (A × Nat) (T × Nat) (W × Ledger)

namespace RunState

/-- All staged handles are open, and nothing else is held. -/
structure Accounts (s : Numbered A T W) : Prop where
  allOpen : s.handles.AllOpen
  balanced : s.world.2.Balanced s.handles.numbers

/-- Which handles have been staged. -/
structure Has (first second acceptor connector : Bool) (s : Numbered A T W) : Prop where
  first : s.handles.first.isSome = first
  second : s.handles.second.isSome = second
  acceptor : s.handles.acceptor.isSome = acceptor
  connector : s.handles.connector.isSome = connector

/-- The same handles are staged, as open as before, and nothing has been written down. -/
structure Still (s s' : Numbered A T W) : Prop where
  first : s'.handles.first.map Endpoint.tag = s.handles.first.map Endpoint.tag
  second : s'.handles.second.map Endpoint.tag = s.handles.second.map Endpoint.tag
  acceptor : s'.handles.acceptor = s.handles.acceptor
  connector : s'.handles.connector = s.handles.connector
  ledger : s'.world.2 = s.world.2

variable {s s' s'' : Numbered A T W} {first second acceptor connector : Bool}

theorem Still.refl (s : Numbered A T W) : Still s s := ⟨rfl, rfl, rfl, rfl, rfl⟩

theorem Still.trans (h : Still s s') (h' : Still s' s'') : Still s s'' :=
  ⟨h'.first.trans h.first, h'.second.trans h.second, h'.acceptor.trans h.acceptor,
    h'.connector.trans h.connector, h'.ledger.trans h.ledger⟩

theorem Accounts.still (h : s.Accounts) (hs : Still s s') : s'.Accounts := by
  have htags : s'.handles.tags = s.handles.tags := by
    rw [Handles.tags, Handles.tags, hs.first, hs.second, hs.acceptor, hs.connector]
  constructor
  · rw [Handles.AllOpen, htags]
    exact h.allOpen
  · rw [Handles.numbers, htags, hs.ledger]
    exact h.balanced

theorem Accounts.more (h : s.Accounts) {added : List (Bool × Nat)}
    (hopen : ∀ t ∈ added, t.1 = true)
    (hgoes : Ledger.Goes [] s.world.2 (added.map Prod.snd) s'.world.2)
    (htags : (added ++ s.handles.tags).Perm s'.handles.tags) : s'.Accounts := by
  constructor
  · intro t ht
    rcases List.mem_append.1 (htags.mem_iff.2 ht) with hadded | hbefore
    · exact hopen t hadded
    · exact h.allOpen t hbefore
  · have hbalanced := hgoes s.handles.numbers h.balanced
    rw [Handles.numbers, ← List.map_append] at hbalanced
    exact hbalanced.perm (htags.map Prod.snd)

theorem Has.still (h : s.Has first second acceptor connector) (hs : Still s s') :
    s'.Has first second acceptor connector := by
  have hfirst := congrArg Option.isSome hs.first
  have hsecond := congrArg Option.isSome hs.second
  rw [Option.isSome_map, Option.isSome_map] at hfirst hsecond
  exact ⟨hfirst.trans h.first, hsecond.trans h.second, hs.acceptor ▸ h.acceptor,
    hs.connector ▸ h.connector⟩

end RunState

namespace Stage

variable {m : Stage A T W α}

theorem run_bind (m : Stage A T W α) (f : α → Stage A T W β) (s : RunState A T W) :
    (m >>= f).run.run s =
      match m.run.run s with
      | (.ok a, s) => (f a).run.run s
      | (.error e, s) => (.error e, s) := by
  have hbind : (m >>= f).run.run s = ExceptT.bind m f s := rfl
  have hrun : m.run.run s = m s := rfl
  rw [hbind, hrun]
  cases h : m s with
  | mk r s' =>
    simp only [ExceptT.bind, ExceptT.mk, bind, StateT.bind, h]
    cases r <;> rfl

theorem run_get (f : RunState A T W → Stage A T W α) (s : RunState A T W) :
    (get >>= f).run.run s = (f s).run.run s := rfl

theorem run_set (s' : RunState A T W) (f : PUnit → Stage A T W α) (s : RunState A T W) :
    (set s' >>= f).run.run s = (f ⟨⟩).run.run s' := rfl

theorem run_report (e : Event) (f : Unit → Stage A T W α) (s : RunState A T W) :
    (report e >>= f).run.run s = (f ()).run.run { s with log := s.log ++ [e] } := rfl

theorem run_advance (next : Phase) (f : Unit → Stage A T W α) (s : RunState A T W) :
    (advance next >>= f).run.run s =
      (f ()).run.run
        { s with phase := next, log := s.log ++ [.phaseChanged s.label s.phase next] } := rfl

theorem run_present_some (e : Endpoint T) (f : Endpoint T → Stage A T W α) (s : RunState A T W) :
    (present (some e) >>= f).run.run s = (f e).run.run s := rfl

theorem run_onWorld (op : W → Except StreamError α × W) (s : RunState A T W) :
    (onWorld op).run.run s =
      ((op s.world).1.mapError .stream, { s with world := (op s.world).2 }) := by
  rw [onWorld, run_get]
  cases op s.world with
  | mk r w => cases r <;> rfl

theorem run_judge (r : Except BenchError Unit × Log) (s : RunState A T W) :
    (judge r).run.run s = (r.1, { s with log := s.log ++ r.2 }) := by
  obtain ⟨r, log⟩ := r
  cases r <;> rfl

/-- The stage keeps the account, and where it succeeds it leads from `P` to `Q`. -/
def Leads (P : Numbered A T W → Prop) (m : Stage (A × Nat) (T × Nat) (W × Ledger) α)
    (Q : Numbered A T W → Prop) : Prop :=
  ∀ s, s.Accounts → P s →
    (m.run.run s).2.Accounts ∧ ∀ a, (m.run.run s).1 = .ok a → Q (m.run.run s).2

section Leads

variable {P Q R : Numbered A T W → Prop} {m : Stage (A × Nat) (T × Nat) (W × Ledger) α}
  {first second acceptor connector : Bool}

theorem Leads.bind {f : α → Stage (A × Nat) (T × Nat) (W × Ledger) β} (h : Leads P m R)
    (h' : ∀ a, Leads R (f a) Q) : Leads P (m >>= f) Q := by
  intro s hs hp
  obtain ⟨haccounts, hleads⟩ := h s hs hp
  rw [run_bind]
  cases hr : m.run.run s with
  | mk r s' =>
    rw [hr] at haccounts hleads
    cases r with
    | error e => exact ⟨haccounts, nofun⟩
    | ok a => exact h' a s' haccounts (hleads a rfl)

theorem leads_pure (a : α) : Leads P (pure a) P := fun _ hs hp => ⟨hs, fun _ _ => hp⟩

theorem leads_of_still (h : ∀ s, RunState.Still s (m.run.run s).2) :
    Leads (RunState.Has first second acceptor connector) m
      (RunState.Has first second acceptor connector) :=
  fun s hs hp => ⟨hs.still (h s), fun _ _ => hp.still (h s)⟩

theorem still_report (e : Event) (s : Numbered A T W) :
    RunState.Still s ((report e).run.run s).2 := ⟨rfl, rfl, rfl, rfl, rfl⟩

theorem still_advance (next : Phase) (s : Numbered A T W) :
    RunState.Still s ((advance next).run.run s).2 := ⟨rfl, rfl, rfl, rfl, rfl⟩

theorem still_judge (r : Except BenchError Unit × Log) (s : Numbered A T W) :
    RunState.Still s ((judge r).run.run s).2 := by
  rw [run_judge]
  exact ⟨rfl, rfl, rfl, rfl, rfl⟩

variable {net : Network A T W} {c : Context}

theorem still_acceptorPort (a : Acceptor (A × Nat)) (s : Numbered A T W) :
    RunState.Still s ((acceptorPort net.numbered a).run.run s).2 := by
  rw [acceptorPort, run_onWorld]
  exact .refl _

theorem still_expectLocal (net : Network A T W) (a : Acceptor (A × Nat)) (expected : String)
    (s : Numbered A T W) :
    RunState.Still s ((expectLocal net.numbered a expected).run.run s).2 := still_judge _ s

theorem still_second {s : Numbered A T W} {e e' : Endpoint (T × Nat)} {w : W × Ledger}
    (he : s.handles.second = some e) (h : Wirebench.Still Endpoint.tag (e, s.world) (e', w)) :
    RunState.Still s { s with handles := { s.handles with second := some e' }, world := w } := by
  refine ⟨rfl, ?_, rfl, rfl, h.2⟩
  rw [he]
  exact congrArg some h.1

theorem still_first {s : Numbered A T W} {e e' : Endpoint (T × Nat)} {w : W × Ledger}
    (he : s.handles.first = some e) (h : Wirebench.Still Endpoint.tag (e, s.world) (e', w)) :
    RunState.Still s { s with handles := { s.handles with first := some e' }, world := w } := by
  refine ⟨?_, rfl, rfl, rfl, h.2⟩
  rw [he]
  exact congrArg some h.1

theorem still_readBack (wait : Duration) (greeting : List UInt8) (s : Numbered A T W) :
    RunState.Still s ((readBack net.numbered wait greeting).run.run s).2 := by
  rw [readBack, run_get]
  cases he : s.handles.second with
  | none => exact .refl s
  | some e =>
    have hread := (Endpoint.keeps net.wire).readExact greeting.length [] e s.world
    rw [run_present_some]
    cases hr : (Endpoint.wire net.numbered.wire).readExact greeting.length [] e s.world with
    | mk r rest =>
      obtain ⟨got, e', w⟩ := rest
      have hstill := still_second he (hr ▸ hread)
      simp only
      rw [run_set]
      cases r with
      | ok bytes => exact hstill.trans (still_judge _ _)
      | error => exact hstill
      | waiting => exact hstill
      | stalled => exact hstill

theorem still_expectRemote (expected : String) (s : Numbered A T W) :
    RunState.Still s ((expectRemote net.numbered expected).run.run s).2 := by
  rw [expectRemote, run_get]
  cases he : s.handles.first with
  | none => exact .refl s
  | some e =>
    have hcontrol := (Endpoint.keeps net.wire).control ⟨.first, true, .remoteAddr, none⟩ e s.world
    exact (still_first he hcontrol).trans (still_judge _ _)

theorem still_conclusion (r : Except BenchError Unit × Log) {s t : Numbered A T W}
    (h : RunState.Still s t) :
    let x := (judge r >>= fun _ => advance .asserting).run.run t
    RunState.Still s x.2 ∧ ∀ u, x.1 = .ok u → x.2.phase = .asserting := by
  have hjudge := still_judge r t
  rw [run_bind]
  cases hr : (judge r).run.run t with
  | mk r' t' =>
    rw [hr] at hjudge
    cases r' with
    | error => exact ⟨h.trans hjudge, nofun⟩
    | ok => exact ⟨(h.trans hjudge).trans (still_advance _ _), fun _ _ => rfl⟩

/-- An exchange that succeeds is the last thing of a run. -/
theorem still_exchange (o : RunOptions) (random : Nat → List UInt8) (s : Numbered A T W) :
    RunState.Still s ((exchange net.numbered c o random).run.run s).2 ∧
      ∀ u, ((exchange net.numbered c o random).run.run s).1 = .ok u →
        ((exchange net.numbered c o random).run.run s).2.phase = .asserting := by
  rw [exchange, run_advance, run_get, run_report]
  cases hfirst : s.handles.first with
  | none => exact ⟨⟨rfl, rfl, rfl, rfl, rfl⟩, nofun⟩
  | some e =>
    cases hsecond : s.handles.second with
    | none => exact ⟨⟨rfl, rfl, rfl, rfl, rfl⟩, nofun⟩
    | some e' =>
      obtain ⟨hsource, hsink, hledger⟩ := still_run (Endpoint.keeps net.wire) (o.params c random)
        ⟨e, e', s.world, []⟩ o.exchange
      rw [run_present_some, run_present_some]
      refine still_conclusion _ ⟨?_, ?_, rfl, rfl, hledger⟩
      · rw [hfirst]
        exact congrArg some hsource
      · rw [hsecond]
        exact congrArg some hsink

theorem openAcceptor_numbered {d : Descriptor} {w w' : W × Ledger}
    {r : Except StreamError (Acceptor (A × Nat))}
    (h : c.openAcceptor net.numbered d w = (r, w')) :
    (∀ a, r = .ok a → a.tag.1 = true ∧ Ledger.Goes [] w.2 [a.tag.2] w'.2) ∧
      ∀ e, r = .error e → w'.2 = w.2 := by
  rw [Context.openAcceptor] at h
  cases hactive : c.ensureActive with
  | error e =>
    rw [hactive] at h
    cases h
    exact ⟨fun _ ha => (by cases ha), fun _ _ => rfl⟩
  | ok =>
    rw [hactive] at h
    simp only [Network.openAcceptor, Network.numbered] at h
    cases hlisten : net.listen d.bottom c.config.endpoint w.1 with
    | mk r v =>
      rw [hlisten] at h
      cases r with
      | error e =>
        cases h
        exact ⟨fun _ ha => (by cases ha), fun _ _ => rfl⟩
      | ok listener =>
        cases h
        refine ⟨?_, fun _ he => by cases he⟩
        intro a ha
        cases ha
        rw [Acceptor.tag_new]
        exact ⟨rfl, .handOut⟩

theorem leads_openAcceptor (d : Descriptor) :
    Leads (RunState.Has first second false connector) (openAcceptor net.numbered c d)
      (RunState.Has first second true connector) := by
  intro s hs hp
  have hnone := Option.isSome_eq_false_iff.1 hp.acceptor
  rw [openAcceptor, run_bind, run_onWorld]
  cases hr : c.openAcceptor net.numbered d s.world with
  | mk r w =>
    obtain ⟨hok, herror⟩ := openAcceptor_numbered hr
    cases r with
    | error e => exact ⟨hs.still ⟨rfl, rfl, rfl, rfl, herror e rfl⟩, nofun⟩
    | ok a =>
      obtain ⟨hopen, hgoes⟩ := hok a rfl
      have htags := Handles.tags_acceptor (Option.isNone_iff_eq_none.1 hnone) a
      exact ⟨hs.more (List.forall_mem_singleton.2 hopen) hgoes htags,
        fun _ _ => ⟨hp.first, hp.second, rfl, hp.connector⟩⟩

theorem leads_openConnector (d : Descriptor) :
    Leads (RunState.Has first second acceptor false) (openConnector net.numbered c d)
      (RunState.Has first second acceptor true) := by
  intro s hs hp
  have hnone := Option.isSome_eq_false_iff.1 hp.connector
  rw [openConnector, run_bind, run_onWorld]
  cases hr : c.openAcceptor net.numbered d s.world with
  | mk r w =>
    obtain ⟨hok, herror⟩ := openAcceptor_numbered hr
    cases r with
    | error e => exact ⟨hs.still ⟨rfl, rfl, rfl, rfl, herror e rfl⟩, nofun⟩
    | ok a =>
      obtain ⟨hopen, hgoes⟩ := hok a rfl
      have htags := Handles.tags_connector (Option.isNone_iff_eq_none.1 hnone) a
      exact ⟨hs.more (List.forall_mem_singleton.2 hopen) hgoes htags,
        fun _ _ => ⟨hp.first, hp.second, hp.acceptor, rfl⟩⟩

/-- The ends that have come out of the two openings are staged; there are two of them where the
stage succeeds. -/
theorem run_connect (net : Network A T W) (wait : Duration) (a : Acceptor A)
    (connecting : Nat → W → Opening A T × W) (s : RunState A T W) :
    let start := connecting s.now s.world
    let both := Opening.awaitBoth net true (s.now + wait.toNanoseconds) s.now start.1
      (Network.acceptFrom a) start.2
    let x := (connect net wait a connecting).run.run s
    x.2.handles =
        { s.handles with first := both.1.endpoint?, second := both.2.1.endpoint? } ∧
      x.2.world = both.2.1.discard net (both.1.discard net both.2.2.1) ∧
        ∀ u, x.1 = .ok u → both.1.endpoint?.isSome = true ∧ both.2.1.endpoint?.isSome = true := by
  rw [connect, run_get]
  cases hstart : connecting s.now s.world with
  | mk one w =>
    simp only
    cases hboth : Opening.awaitBoth net true (s.now + wait.toNanoseconds) s.now one
        (Network.acceptFrom a) w with
    | mk one rest =>
      obtain ⟨two, w, now⟩ := rest
      simp only
      rw [run_set]
      cases one with
      | opened e =>
        cases two with
        | opened e' => exact ⟨rfl, rfl, fun _ _ => ⟨rfl, rfl⟩⟩
        | accepting => exact ⟨rfl, rfl, nofun⟩
        | settingUp => exact ⟨rfl, rfl, nofun⟩
        | stuck => exact ⟨rfl, rfl, nofun⟩
        | failed => exact ⟨rfl, rfl, nofun⟩
      | failed => exact ⟨rfl, rfl, nofun⟩
      | accepting => cases two <;> exact ⟨rfl, rfl, nofun⟩
      | settingUp => cases two <;> exact ⟨rfl, rfl, nofun⟩
      | stuck => cases two <;> exact ⟨rfl, rfl, nofun⟩

theorem leads_connect (wait : Duration) (a : Acceptor (A × Nat))
    {connecting : Nat → W × Ledger → Opening (A × Nat) (T × Nat) × (W × Ledger)}
    (hconnecting : ∀ now w, Opening.Accounts [] w.2 (connecting now w)) :
    Leads (RunState.Has false false acceptor connector) (connect net.numbered wait a connecting)
      (RunState.Has true true acceptor connector) := by
  intro s hs hp
  obtain ⟨hhandles, hworld, hok⟩ := run_connect net.numbered wait a connecting s
  obtain ⟨hwhole, hgoes⟩ := hconnecting s.now s.world
  obtain ⟨hwhole', hheld⟩ := Network.held_acceptFrom (T := T) a
  have hstart : Opening.BothAccount [] s.world.2 (connecting s.now s.world).1
      (Network.acceptFrom a) (connecting s.now s.world).2 := by
    refine ⟨hwhole, hwhole', ?_⟩
    rw [hheld, List.append_nil]
    exact hgoes
  have hboth := hstart.awaitBoth net true (s.now + wait.toNanoseconds) s.now
  generalize Opening.awaitBoth net.numbered true (s.now + wait.toNanoseconds) s.now
    (connecting s.now s.world).1 (Network.acceptFrom a) (connecting s.now s.world).2 = both
    at hhandles hworld hok hboth
  obtain ⟨one, two, w, now⟩ := both
  obtain ⟨hone, htwo, hgoes⟩ := hboth
  have hleft := ((hgoes.trans ((Opening.goes_discard net one w).right two.held)).trans
    ((Opening.goes_discard net two (one.discard net.numbered w)).left _))
  rw [← List.map_append, ← hworld] at hleft
  have hadded : ∀ t ∈ one.tags ++ two.tags, t.1 = true := by
    intro t ht
    rcases List.mem_append.1 ht with ht | ht
    · exact Opening.tags_open hone t ht
    · exact Opening.tags_open htwo t ht
  have hfirst := Option.isNone_iff_eq_none.1 (Option.isSome_eq_false_iff.1 hp.first)
  have hsecond := Option.isNone_iff_eq_none.1 (Option.isSome_eq_false_iff.1 hp.second)
  have htags := Handles.tags_ends hfirst hsecond one.endpoint? two.endpoint?
  rw [← hhandles] at htags
  refine ⟨hs.more hadded hleft htags, ?_⟩
  intro u hu
  obtain ⟨hfirst, hsecond⟩ := hok u hu
  constructor <;> rw [hhandles]
  · exact hfirst
  · exact hsecond
  · exact hp.acceptor
  · exact hp.connector

theorem leads_end (net : Network A T W) (c : Context) (connector : Bool) (o : RunOptions)
    (random : Nat → List UInt8) (port : UInt16) :
    Leads (RunState.Has true true true connector)
      (exchange net.numbered c o random >>= fun _ => pure port)
      fun s => s.Has true true true connector ∧ s.phase = .asserting := by
  refine .bind (fun s hs hp => ?_) fun _ => leads_pure port
  obtain ⟨hstill, hphase⟩ := still_exchange o random s
  exact ⟨hs.still hstill, fun u hu => ⟨hp.still hstill, hphase u hu⟩⟩

end Leads

end Stage

theorem RunState.start_accounts (label : String) (w : W) :
    (start label (w, {}) : Numbered A T W).Accounts :=
  ⟨nofun, Ledger.balanced_start⟩

theorem RunState.start_has (label : String) (w : W) :
    (start label (w, {}) : Numbered A T W).Has false false false false :=
  ⟨rfl, rfl, rfl, rfl⟩

theorem AcceptRun.leads_stages (net : Network A T W) (c : Context) (random : Nat → List UInt8)
    (r : AcceptRun) :
    Stage.Leads (RunState.Has false false false false) (r.stages net.numbered c random)
      fun s => s.Has true true true false ∧ s.phase = .asserting := by
  unfold stages
  refine (Stage.leads_openAcceptor r.accept).bind fun a => ?_
  refine (Stage.leads_of_still (Stage.still_acceptorPort a)).bind fun port => ?_
  refine (Stage.leads_of_still (Stage.still_report _)).bind fun _ => ?_
  refine (Stage.leads_connect (r.options.wait c) a fun now w =>
    c.accounts_openConnection now _ r.greeting w).bind fun _ => ?_
  refine (Stage.leads_of_still (Stage.still_readBack _ r.greeting)).bind fun _ => ?_
  have hend := Stage.leads_end net c false r.options random port
  have hlocal (start : String) :=
    (Stage.leads_of_still (Stage.still_expectLocal net a (withPort start port))).bind fun _ => hend
  cases r.expectedRemote with
  | none =>
    cases r.expectedLocal with
    | none => exact hend
    | some start => exact hlocal start
  | some start =>
    refine (Stage.leads_of_still (Stage.still_expectRemote (withPort start port))).bind fun _ => ?_
    cases r.expectedLocal with
    | none => exact hend
    | some start => exact hlocal start

theorem AcceptConnectRun.leads_stages (net : Network A T W) (c : Context)
    (random : Nat → List UInt8) (r : AcceptConnectRun) :
    Stage.Leads (RunState.Has false false false false) (r.stages net.numbered c random)
      fun s => s.Has true true true true ∧ s.phase = .asserting := by
  unfold stages
  refine (Stage.leads_openAcceptor r.accept).bind fun a => ?_
  refine (Stage.leads_openConnector r.connector).bind fun connector => ?_
  refine (Stage.leads_of_still (Stage.still_acceptorPort a)).bind fun port => ?_
  refine (Stage.leads_of_still (Stage.still_report _)).bind fun _ => ?_
  refine (Stage.leads_connect (r.options.wait c) a fun now w =>
    Network.accounts_connectFromAcceptor now connector _ w).bind fun _ => ?_
  exact Stage.leads_end net c true r.options random port

end Bench

end Wirebench

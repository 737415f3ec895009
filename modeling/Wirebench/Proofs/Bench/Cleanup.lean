import Wirebench.Proofs.Bench.Stages

namespace Wirebench

variable {A T W : Type}

namespace Ledger

/-- Some handles are closed one after the other, all of them, and `r` is the first failure. -/
def ClosesAll (numbers : List Nat) (l : Ledger) (r : Except StreamError Unit) (l' : Ledger) :
    Prop :=
  ∃ closings : List (Nat × Except StreamError Unit), closings.map Prod.fst = numbers ∧
    closings.forM Prod.snd = r ∧ l' = { l with closed := l.closed ++ closings }

variable {l l' l'' : Ledger} {numbers numbers' : List Nat} {k : Nat}
  {r r' : Except StreamError Unit}

theorem closesAll_nil : ClosesAll [] l (.ok ()) l :=
  ⟨[], rfl, rfl, by rw [List.append_nil]⟩

theorem closesAll_close : ClosesAll [k] l r (l.close k r) := by
  refine ⟨[(k, r)], rfl, ?_, rfl⟩
  cases r <;> rfl

theorem ClosesAll.append (h : ClosesAll numbers l r l') (h' : ClosesAll numbers' l' r' l'') :
    ClosesAll (numbers ++ numbers') l (r >>= fun _ => r') l'' := by
  obtain ⟨closings, rfl, rfl, rfl⟩ := h
  obtain ⟨closings', rfl, rfl, rfl⟩ := h'
  refine ⟨closings ++ closings', List.map_append, List.forM_append, ?_⟩
  rw [List.append_assoc]

theorem ClosesAll.goes (h : ClosesAll numbers l r l') : Goes numbers l [] l' := by
  obtain ⟨closings, rfl, -, rfl⟩ := h
  induction closings generalizing l with
  | nil =>
    rw [List.append_nil]
    exact .refl _ _
  | cons x closings ih =>
    have hfirst : Goes [x.1] l [] (l.close x.1 x.2) := .close
    have hrest := (hfirst.right (closings.map Prod.fst)).trans ih
    rwa [close, List.append_assoc] at hrest

theorem ClosesAll.once (h : ClosesAll numbers l r l') (hb : l.Balanced numbers) :
    ∀ k ∈ numbers, l'.closings k = 1 := by
  obtain ⟨closings, rfl, -, rfl⟩ := h
  intro k hk
  have hcount := List.count_pos_iff.2 hk
  have hbalance := hb k
  have hclosings : Ledger.closings { l with closed := l.closed ++ closings } k =
      l.closings k + (closings.map Prod.fst).count k := by
    rw [Ledger.closings, List.map_append, List.count_append]
    rfl
  rw [spent] at hbalance
  split at hbalance <;> omega

end Ledger

namespace Bench

namespace Handles

variable {w : W × Ledger}

theorem closes_endpoint (net : Network A T W) (e : Option (Endpoint (T × Nat)))
    (hopen : ∀ t ∈ (e.map Endpoint.tag).toList, t.1 = true) :
    let x := closeEndpoint net.numbered e w
    Ledger.ClosesAll ((e.map Endpoint.tag).toList.map Prod.snd) w.2 x.1 x.2.2.2 := by
  cases e with
  | none => exact Ledger.closesAll_nil
  | some e =>
    obtain ⟨-, hledger⟩ :=
      (Endpoint.keeps net.wire).close e w (hopen _ (List.mem_singleton_self _))
    have hcloses := Ledger.closesAll_close (l := w.2) (k := e.tag.2)
      (r := ((Endpoint.wire net.wire.numbered).close e w).1.orElse (.ok ()))
    rwa [← hledger] at hcloses

theorem closes_acceptor (net : Network A T W) (a : Option (Acceptor (A × Nat)))
    (hopen : ∀ t ∈ (a.map Acceptor.tag).toList, t.1 = true) :
    let x := closeAcceptor net.numbered a w
    Ledger.ClosesAll ((a.map Acceptor.tag).toList.map Prod.snd) w.2 x.1 x.2.2.2 := by
  cases a with
  | none => exact Ledger.closesAll_nil
  | some a =>
    have ha : a.isOpen = true := hopen _ (List.mem_singleton_self _)
    simp only [closeAcceptor, Network.closeAcceptor, ha, if_true]
    exact Ledger.closesAll_close

theorem closes (net : Network A T W) {h : Handles (A × Nat) (T × Nat)} (hopen : h.AllOpen)
    (w : W × Ledger) :
    let x := h.close net.numbered w
    Ledger.ClosesAll h.numbers w.2 x.1.result x.2.2.2 := by
  simp only [AllOpen, tags, List.forall_mem_append] at hopen
  obtain ⟨⟨⟨hfirst, hsecond⟩, hacceptor⟩, hconnector⟩ := hopen
  simp only [numbers, tags, List.map_append, List.append_assoc]
  exact (closes_endpoint net h.first hfirst).append ((closes_endpoint net h.second hsecond).append
    ((closes_acceptor net h.acceptor hacceptor).append
      (closes_acceptor net h.connector hconnector)))

end Handles

namespace Pair

def handles (p : Pair A T) : Handles A T :=
  ⟨some p.first, some p.second, some p.acceptor, p.connector⟩

theorem close_handles (net : Network A T W) {p : Pair A T} (hp : p.phase ≠ .closed) (w : W) :
    (p.close net w).1 = (p.handles.close net w).1.result ∧
      (p.close net w).2.2.2 = (p.handles.close net w).2.2 := by
  rw [close, if_neg hp]
  exact ⟨rfl, rfl⟩

theorem ofHandles?_of_has {connector : Bool} {s : Numbered A T W} (port : UInt16)
    (hs : s.Has true true true connector) :
    ∃ p, ofHandles? s.label s.phase port s.handles = some p ∧ p.handles = s.handles ∧
      p.phase = s.phase := by
  obtain ⟨label, phase, ⟨first, second, acceptor, c⟩, log, w, now⟩ := s
  obtain ⟨e, rfl⟩ := Option.isSome_iff_exists.1 hs.first
  obtain ⟨e', rfl⟩ := Option.isSome_iff_exists.1 hs.second
  obtain ⟨a, rfl⟩ := Option.isSome_iff_exists.1 hs.acceptor
  exact ⟨⟨label, phase, port, e, e', a, c⟩, rfl, rfl, rfl⟩

end Pair

/-- All that has been staged has been closed, each handle once, and `r` is the first failure. Of the
handles that have not been staged, none is left. -/
structure Cleared (s : Numbered A T W) (r : Except StreamError Unit) (w : W × Ledger) : Prop where
  closesAll : s.world.2.ClosesAll s.handles.numbers r w.2
  once : ∀ k ∈ s.handles.numbers, w.2.closings k = 1
  balanced : w.2.Balanced []

theorem RunState.Accounts.cleared {s : Numbered A T W} (hs : s.Accounts) (net : Network A T W) :
    Cleared s (s.handles.close net.numbered s.world).1.result
      (s.handles.close net.numbered s.world).2.2 := by
  have hcloses := Handles.closes net hs.allOpen s.world
  refine ⟨hcloses, hcloses.once hs.balanced, ?_⟩
  have hbalanced := hcloses.goes [] (by rw [List.append_nil]; exact hs.balanced)
  rwa [List.append_nil] at hbalanced

/-- How a run ends that its stages have left as `x`. -/
structure Ends (doClose connector : Bool) (x : Except BenchError UInt16 × Numbered A T W)
    (f : Finished (A × Nat) (T × Nat) (W × Ledger)) : Prop where
  /-- However far the stages have got, what they have staged has been open until then. -/
  staged : x.2.Accounts
  failed : ∀ e, x.1 = .error e → f.result = .error e ∧ ∃ r, Cleared x.2 r f.world
  complete : ∀ port, x.1 = .ok port → x.2.Has true true true connector
  closed : ∀ port, x.1 = .ok port → doClose = true →
    ∃ r, Cleared x.2 r f.world ∧ f.result.map (fun _ => ()) = r.mapError .stream
  kept : ∀ port, x.1 = .ok port → doClose = false →
    ∃ p, f.result = .ok p ∧ p.handles = x.2.handles ∧ f.world = x.2.world ∧
      p.handles.AllOpen ∧ ∀ k ∈ p.handles.numbers, f.world.2.closings k = 0

theorem Finished.ofPair_close (net : Network A T W) (p : Pair A T) (log : Log) (w : W) :
    (ofPair net true p log w).world = (p.close net w).2.2.2 ∧
      (ofPair net true p log w).result.map (fun _ => ()) = (p.close net w).1.mapError .stream := by
  rw [ofPair, if_pos rfl]
  cases p.close net w with
  | mk r rest => cases r <;> exact ⟨rfl, rfl⟩

theorem Finished.ends_conclude (net : Network A T W) (doClose connector : Bool)
    {x : Except BenchError UInt16 × Numbered A T W} (hx : x.2.Accounts)
    (hok : ∀ port, x.1 = .ok port → x.2.Has true true true connector ∧ x.2.phase = .asserting) :
    Ends doClose connector x (conclude net.numbered doClose x) := by
  obtain ⟨r, s⟩ := x
  cases r with
  | error e =>
    refine ⟨hx, ?_, nofun, nofun, nofun⟩
    intro _ he
    cases he
    exact ⟨rfl, _, hx.cleared net⟩
  | ok port =>
    obtain ⟨hhas, hphase⟩ := hok port rfl
    obtain ⟨p, hp, hhandles, hphase'⟩ := Pair.ofHandles?_of_has port hhas
    simp only [conclude, hp]
    refine ⟨hx, nofun, fun _ _ => hhas, ?_, ?_⟩
    · rintro _ _ rfl
      have hopen : p.phase ≠ .closed := by
        rw [hphase', hphase]
        decide
      obtain ⟨hresult, hworld⟩ := Pair.close_handles net.numbered hopen s.world
      obtain ⟨hworld', hresult'⟩ := ofPair_close net.numbered p s.log s.world
      rw [hresult', hresult, hworld', hworld, hhandles]
      exact ⟨_, hx.cleared net, rfl⟩
    · rintro _ _ rfl
      refine ⟨p, rfl, hhandles, rfl, ?_⟩
      rw [hhandles]
      exact ⟨hx.allOpen, fun k hk => hx.balanced.closings_eq_zero hk⟩

/-- Every run clears up, on any network. If a stage fails, all that has been staged has been closed
once, and the failure of the stage is the result; if none does, all has been closed once and the
first failure to close is the result, or the handles are handed back open. A run only hands its
handles and the world on to the network, and does not see the numbers and the account in them. -/
theorem runs_clear_up (net : Network A T W) (c : Context) (random : Nat → List UInt8) (w : W) :
    (∀ r : AcceptRun, Ends r.options.doClose false
      ((r.stages net.numbered c random).run.run (.start r.label (w, {})))
      (r.run net.numbered c random (w, {}))) ∧
    ∀ r : AcceptConnectRun, Ends r.options.doClose true
      ((r.stages net.numbered c random).run.run (.start r.label (w, {})))
      (r.run net.numbered c random (w, {})) := by
  constructor
  · intro r
    obtain ⟨haccounts, hok⟩ := r.leads_stages net c random _
      (RunState.start_accounts r.label w) (RunState.start_has r.label w)
    exact Finished.ends_conclude net _ _ haccounts hok
  · intro r
    obtain ⟨haccounts, hok⟩ := r.leads_stages net c random _
      (RunState.start_accounts r.label w) (RunState.start_has r.label w)
    exact Finished.ends_conclude net _ _ haccounts hok

end Bench

end Wirebench

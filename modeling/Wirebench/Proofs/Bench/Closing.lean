import Wirebench.Proofs.Bench.Cleanup
import Wirebench.Proofs.Wire.Listening
import Wirebench.Scripted.Replay

namespace Wirebench

variable {S A T W : Type}

namespace Ledger

/-- What some closings come to together: the first failure among them, if there is one. -/
structure FirstFailure (made : List (Nat × Except StreamError Unit)) (r : Except StreamError Unit) :
    Prop where
  ok : r = .ok () ↔ ∀ c ∈ made, c.2 = .ok ()
  error : ∀ e, r = .error e →
    ∃ before k after, made = before ++ (k, .error e) :: after ∧ ∀ c ∈ before, c.2 = .ok ()

theorem firstFailure_forM (made : List (Nat × Except StreamError Unit)) :
    FirstFailure made (made.forM Prod.snd) := by
  induction made with
  | nil => exact ⟨⟨fun _ => nofun, fun _ => rfl⟩, nofun⟩
  | cons c made ih =>
    obtain ⟨k, r⟩ := c
    cases r with
    | ok =>
      have hok : ∀ before : List (Nat × Except StreamError Unit),
          (∀ c ∈ (k, .ok ()) :: before, c.2 = .ok ()) ↔ ∀ c ∈ before, c.2 = .ok () := by
        intro before
        rw [List.forall_mem_cons]
        exact ⟨And.right, fun h => ⟨rfl, h⟩⟩
      refine ⟨ih.ok.trans (hok made).symm, fun e he => ?_⟩
      obtain ⟨before, j, after, rfl, hbefore⟩ := ih.error e he
      exact ⟨(k, .ok ()) :: before, j, after, rfl, (hok before).2 hbefore⟩
    | error e =>
      refine ⟨⟨nofun, fun h => ?_⟩, ?_⟩
      · cases h _ List.mem_cons_self
      · rintro _ ⟨⟩
        exact ⟨[], k, made, rfl, nofun⟩

end Ledger

namespace Wire

/-- Whatever is done with a state, it is left as it is, and so is the world. -/
structure Refuses (io : Wire S W) (s : S) : Prop where
  read : ∀ n w, (io.read n s w).2 = (s, w)
  write : ∀ data w, (io.write data s w).2 = (s, w)
  writeUrgent : ∀ data w, (io.writeUrgent data s w).2 = (s, w)
  readUrgent : ∀ n w, (io.readUrgent n s w).2 = (s, w)
  control : ∀ request w, (io.control request s w).2 = (s, w)
  close : ∀ w, io.close s w = (.ok (), s, w)

variable {io : Wire S W} {s : S}

theorem Refuses.steps (h : io.Refuses s) : io.Steps fun x y => x.1 = s → y = x where
  refl _ _ := rfl
  trans := by
    intro x y z hxy hyz hx
    have hy := hxy hx
    exact (hyz (hy ▸ hx)).trans hy
  read := by
    rintro n _ w rfl
    exact h.read n w
  write := by
    rintro data _ w rfl
    exact h.write data w

theorem Refuses.perform (h : io.Refuses s) (o : Operation) (w : W) :
    (io.perform o (s, w)).2 = (s, w) := by
  cases o with
  | read n => exact h.read n w
  | readExact n got => exact h.steps.readMore _ _ got s w rfl
  | write data => exact h.write data w
  | writeAll data => exact h.steps.writeAll data s w rfl
  | writeUrgent data => exact h.writeUrgent data w
  | readUrgent n => exact h.readUrgent n w
  | control request => exact h.control request w
  | close => exact congrArg Prod.snd (h.close w)

theorem Keeps.perform {io : Wire S (W × Ledger)} {tag : S → Bool × Nat} (h : io.Keeps tag)
    {o : Operation} (ho : o.isClose = false) (x : S × (W × Ledger)) :
    Still tag x (io.perform o x).2 := by
  cases o with
  | read n => exact h.read n x.1 x.2
  | readExact n got => exact h.readExact n got x.1 x.2
  | write data => exact h.write data x.1 x.2
  | writeAll data => exact h.writeAll data x.1 x.2
  | writeUrgent data => exact h.writeUrgent data x.1 x.2
  | readUrgent n => exact h.readUrgent n x.1 x.2
  | control request => exact h.control request x.1 x.2
  | close => cases ho

end Wire

namespace Endpoint

theorem refuses (io : Wire T W) {e : Endpoint T} (h : e.isOpen = false) : (wire io).Refuses e := by
  obtain ⟨n, s⟩ := e
  cases n with
  | zero =>
    obtain ⟨_, t⟩ := s
    obtain rfl : _ = false := h
    exact ⟨fun _ _ => rfl, fun _ _ => rfl, fun _ _ => rfl, fun _ _ => rfl, fun _ _ => rfl,
      fun _ => rfl⟩
  | succ n =>
    obtain ⟨_, x⟩ := s
    obtain rfl : _ = false := h
    exact ⟨fun _ _ => rfl, fun _ _ => rfl, fun _ _ => rfl, fun _ _ => rfl, fun _ _ => rfl,
      fun _ => rfl⟩

theorem isOpen_close (io : Wire T W) (e : Endpoint T) (w : W) :
    ((wire io).close e w).2.1.isOpen = false := by
  cases he : e.isOpen with
  | false =>
    rw [(refuses io he).close w]
    exact he
  | true =>
    obtain ⟨n, s⟩ := e
    cases n with
    | zero =>
      obtain ⟨_, t⟩ := s
      obtain rfl : _ = true := he
      rfl
    | succ n =>
      obtain ⟨_, x⟩ := s
      obtain rfl : _ = true := he
      rfl

theorem isOpen_of_tag {e : Endpoint (T × Nat)} (h : e.tag.1 = true) : e.isOpen = true := by
  obtain ⟨n, s⟩ := e
  cases n with
  | zero => exact (Bool.and_eq_true_iff.1 h).1
  | succ n => exact (Bool.and_eq_true_iff.1 h).1

/-- An endpoint is open through all its layers, or its outer handle is closed, and it has a
number. -/
structure Marked (o : Bool) (k : Nat) (e : Endpoint (T × Nat)) : Prop where
  isOpen : e.isOpen = o
  tag : e.tag = (o, k)

variable {e : Endpoint (T × Nat)} {o : Bool} {k : Nat}

theorem marked_of_tag (h : e.tag = (true, k)) : e.Marked true k :=
  ⟨isOpen_of_tag (congrArg Prod.fst h), h⟩

theorem Marked.close (h : e.Marked o k) (io : Wire T W) (w : W × Ledger) :
    ((wire io.numbered).close e w).2.1.Marked false k := by
  have hclosed := isOpen_close io.numbered e w
  have hk : e.tag.2 = k := congrArg Prod.snd h.tag
  refine ⟨hclosed, Prod.ext ?_ ?_⟩
  · cases htag : ((wire io.numbered).close e w).2.1.tag.1 with
    | false => rfl
    | true => cases (isOpen_of_tag htag).symm.trans hclosed
  · cases o with
    | false =>
      rw [(refuses io.numbered h.isOpen).close w]
      exact hk
    | true =>
      obtain ⟨hnumber, -⟩ := (keeps io).close e w (congrArg Prod.fst h.tag)
      exact hnumber.trans hk

theorem Marked.closesAll (h : e.Marked o k) (net : Network A T W) (w : W × Ledger) :
    Ledger.ClosesAll (if o then [k] else []) w.2 (net.numbered.closeEndpoint e w).1
      (net.numbered.closeEndpoint e w).2.2.2 := by
  cases o with
  | true =>
    have hcloses := Bench.Handles.closes_endpoint net (some e) (w := w) fun t ht => by
      rw [Option.map_some, Option.toList_some, List.mem_singleton, h.tag] at ht
      rw [ht]
    rwa [Option.map_some, Option.toList_some, h.tag] at hcloses
  | false =>
    have hclose := (refuses net.wire.numbered h.isOpen).close w
    simp only [Network.closeEndpoint, Network.numbered, hclose]
    exact Ledger.closesAll_nil

theorem Marked.perform (h : e.Marked o k) (io : Wire T W) (op : Operation) (w : W × Ledger) :
    ((wire io.numbered).perform op (e, w)).2.1.Marked (o && !op.isClose) k := by
  cases o with
  | false =>
    rw [(refuses io.numbered h.isOpen).perform op w]
    exact h
  | true =>
    cases hop : op.isClose with
    | false => exact marked_of_tag (((keeps io).perform hop (e, w)).1.trans h.tag)
    | true =>
      cases op with
      | close => exact h.close io w
      | read | readExact | write | writeAll | writeUrgent | readUrgent | control => cases hop

end Endpoint

namespace Acceptor

theorem tag_closed (a : Acceptor (A × Nat)) : a.closed.tag = (false, a.tag.2) := by
  have hlistener : a.closed.listener = a.listener := by
    induction a with
    | transport d l o => rfl
    | telnet d c inner o ih => exact ih
  rw [tag, Network.isOpen_closed, hlistener, tag]

theorem tag_close (net : Network A T W) (a : Acceptor (A × Nat)) (w : W × Ledger) :
    (net.numbered.closeAcceptor a w).2.1.tag = (false, a.tag.2) := by
  rw [Network.closeAcceptor]
  split
  · exact tag_closed a
  · next ha => exact Prod.ext (Bool.eq_false_iff.2 ha) rfl

theorem closesAll_close (net : Network A T W) (a : Acceptor (A × Nat)) (w : W × Ledger) :
    Ledger.ClosesAll (if a.isOpen then [a.tag.2] else []) w.2 (net.numbered.closeAcceptor a w).1
      (net.numbered.closeAcceptor a w).2.2.2 := by
  rw [Network.closeAcceptor]
  split
  · exact Ledger.closesAll_close
  · exact Ledger.closesAll_nil

theorem tag_use (net : Network A T W) (u : Acceptor.Use) (a : Acceptor (A × Nat))
    (w : W × Ledger) :
    (net.numbered.use u (a, w)).2.1.tag = (a.isOpen && !u.isClose, a.tag.2) := by
  cases u with
  | accept times => exact Prod.ext (Bool.and_true _).symm rfl
  | connectFrom target now times => exact Prod.ext (Bool.and_true _).symm rfl
  | control r => exact Prod.ext (Bool.and_true _).symm rfl
  | close => exact (tag_close net a w).trans (Prod.ext (Bool.and_false _).symm rfl)

end Acceptor

namespace Bench

inductive Part
  | first
  | second
  | acceptor
  | connector
  deriving DecidableEq

/-- A use of one of the handles of a pair. -/
inductive PartUse
  | first (o : Operation)
  | second (o : Operation)
  | acceptor (u : Acceptor.Use)
  | connector (u : Acceptor.Use)

/-- Whether a handle is closed by a use. -/
def PartUse.closes : PartUse → Part → Bool
  | first o, .first | second o, .second => o.isClose
  | acceptor u, .acceptor | connector u, .connector => u.isClose
  | _, _ => false

namespace Pair

/-- A pair after a use of one of its handles, with the world. A handle that is not there is not
used. -/
def usePart (net : Network A T W) (x : Pair A T × W) : PartUse → Pair A T × W
  | .first o =>
    let (_, first, w) := (Endpoint.wire net.wire).perform o (x.1.first, x.2)
    ({ x.1 with first }, w)
  | .second o =>
    let (_, second, w) := (Endpoint.wire net.wire).perform o (x.1.second, x.2)
    ({ x.1 with second }, w)
  | .acceptor u =>
    let (_, acceptor, w) := net.use u (x.1.acceptor, x.2)
    ({ x.1 with acceptor }, w)
  | .connector u =>
    match x.1.connector with
    | none => x
    | some a =>
      let (_, a, w) := net.use u (a, x.2)
      ({ x.1 with connector := some a }, w)

def useParts (net : Network A T W) (us : List PartUse) (x : Pair A T × W) : Pair A T × W :=
  us.foldl (usePart net) x

def number? (p : Pair (A × Nat) (T × Nat)) : Part → Option Nat
  | .first => some p.first.tag.2
  | .second => some p.second.tag.2
  | .acceptor => some p.acceptor.tag.2
  | .connector => p.connector.map fun a => a.tag.2

/-- The handles of a pair are open or closed, each as it says, and have the numbers of another
pair. -/
structure Marked (p : Pair (A × Nat) (T × Nat)) (o : Part → Bool) (q : Pair (A × Nat) (T × Nat)) :
    Prop where
  first : q.first.Marked (o .first) p.first.tag.2
  second : q.second.Marked (o .second) p.second.tag.2
  acceptor : q.acceptor.tag = (o .acceptor, p.acceptor.tag.2)
  connector : q.connector.map Acceptor.tag = p.connector.map fun a => (o .connector, a.tag.2)

variable {p q : Pair (A × Nat) (T × Nat)} {o : Part → Bool}

theorem marked_self (h : p.handles.AllOpen) : p.Marked (fun _ => true) p := by
  simp only [Handles.AllOpen, Handles.tags, handles, List.forall_mem_append] at h
  obtain ⟨⟨⟨hfirst, hsecond⟩, hacceptor⟩, hconnector⟩ := h
  constructor
  · exact Endpoint.marked_of_tag (Prod.ext (hfirst _ (List.mem_singleton_self _)) rfl)
  · exact Endpoint.marked_of_tag (Prod.ext (hsecond _ (List.mem_singleton_self _)) rfl)
  · exact Prod.ext (hacceptor _ (List.mem_singleton_self _)) rfl
  · cases hc : p.connector with
    | none => rfl
    | some a =>
      rw [hc] at hconnector
      exact congrArg some (Prod.ext (hconnector _ (List.mem_singleton_self _)) rfl)

theorem Marked.usePart (h : p.Marked o q) (net : Network A T W) (u : PartUse) (w : W × Ledger) :
    p.Marked (fun part => o part && !u.closes part) (usePart net.numbered (q, w) u).1 := by
  obtain ⟨hfirst, hsecond, hacceptor, hconnector⟩ := h
  have hmark {a : Acceptor (A × Nat)} {k : Nat} {b : Bool} (ha : a.tag = (b, k))
      (u : Acceptor.Use) : (net.numbered.use u (a, w)).2.1.tag = (b && !u.isClose, k) := by
    rw [Acceptor.tag_use, ha, show a.isOpen = b from congrArg Prod.fst ha]
  cases u with
  | first op =>
    constructor <;> simp only [PartUse.closes, Bool.not_false, Bool.and_true]
    · exact hfirst.perform net.wire op w
    · exact hsecond
    · exact hacceptor
    · exact hconnector
  | second op =>
    constructor <;> simp only [PartUse.closes, Bool.not_false, Bool.and_true]
    · exact hfirst
    · exact hsecond.perform net.wire op w
    · exact hacceptor
    · exact hconnector
  | acceptor u =>
    constructor <;> simp only [PartUse.closes, Bool.not_false, Bool.and_true]
    · exact hfirst
    · exact hsecond
    · exact hmark hacceptor u
    · exact hconnector
  | connector u =>
    obtain ⟨label, phase, port, first, second, acceptor, connector⟩ := q
    obtain ⟨_, _, _, _, _, _, connector'⟩ := p
    cases connector with
    | none =>
      cases connector' with
      | some b => cases hconnector
      | none =>
        constructor <;> simp only [PartUse.closes, Bool.not_false, Bool.and_true]
        · exact hfirst
        · exact hsecond
        · exact hacceptor
        · rfl
    | some a =>
      cases connector' with
      | none => cases hconnector
      | some b =>
        constructor <;> simp only [PartUse.closes, Bool.not_false, Bool.and_true]
        · exact hfirst
        · exact hsecond
        · exact hacceptor
        · exact congrArg some (hmark (Option.some.inj hconnector) u)

theorem Marked.useParts (h : p.Marked o q) (net : Network A T W) (us : List PartUse)
    (w : W × Ledger) :
    p.Marked (fun part => o part && !us.any (·.closes part))
      (useParts net.numbered us (q, w)).1 := by
  induction us generalizing o q w with
  | nil =>
    have hsame : (fun part => o part && !([] : List PartUse).any (·.closes part)) = o :=
      funext fun part => Bool.and_true _
    rw [hsame]
    exact h
  | cons u us ih =>
    have hboth : (fun part => o part && !(u :: us).any (·.closes part)) =
        fun part => (o part && !u.closes part) && !us.any (·.closes part) := by
      funext part
      rw [List.any_cons, Bool.not_or, Bool.and_assoc]
    rw [hboth]
    exact ih (h.usePart net u w) _

theorem phase_usePart (net : Network A T W) (x : Pair A T × W) (u : PartUse) :
    (usePart net x u).1.phase = x.1.phase := by
  cases u with
  | first | second | acceptor => rfl
  | connector u =>
    rw [usePart]
    split <;> rfl

theorem phase_useParts (net : Network A T W) (us : List PartUse) (x : Pair A T × W) :
    (useParts net us x).1.phase = x.1.phase := by
  induction us generalizing x with
  | nil => rfl
  | cons u us ih => exact (ih _).trans (phase_usePart net x u)

/-- A handle that is not there is not open. -/
def isOpen (p : Pair A T) : Part → Bool
  | .first => p.first.isOpen
  | .second => p.second.isOpen
  | .acceptor => p.acceptor.isOpen
  | .connector => p.connector.any Acceptor.isOpen

/-- The numbers of some of the handles of a pair, in the order in which they are closed. -/
def numbersOf (p : Pair (A × Nat) (T × Nat)) (o : Part → Bool) : List Nat :=
  [.first, .second, .acceptor, .connector].flatMap fun part =>
    if o part then (p.number? part).toList else []

theorem Marked.isOpen (h : p.Marked o q) (part : Part) :
    q.isOpen part = (o part && (p.number? part).isSome) := by
  obtain ⟨hfirst, hsecond, hacceptor, hconnector⟩ := h
  cases part with
  | first => exact hfirst.isOpen.trans (Bool.and_true _).symm
  | second => exact hsecond.isOpen.trans (Bool.and_true _).symm
  | acceptor => exact (congrArg Prod.fst hacceptor).trans (Bool.and_true _).symm
  | connector =>
    rw [Pair.isOpen, number?, Option.isSome_map]
    cases hq : q.connector <;> cases hp : p.connector <;> rw [hq, hp] at hconnector
    · exact (Bool.and_false _).symm
    · cases hconnector
    · cases hconnector
    · exact (congrArg Prod.fst (Option.some.inj hconnector)).trans (Bool.and_true _).symm

theorem closesAll_connector {a : Option (Acceptor (A × Nat))} {b : Bool}
    (ha : a.map Acceptor.tag = p.connector.map fun a => (b, a.tag.2)) (net : Network A T W)
    (w : W × Ledger) :
    let x := Handles.closeAcceptor net.numbered a w
    Ledger.ClosesAll (if b then (p.number? .connector).toList else []) w.2 x.1 x.2.2.2 ∧
      x.2.1.map Acceptor.tag = p.connector.map fun a => (false, a.tag.2) := by
  rw [number?]
  cases a <;> cases hp : p.connector <;> rw [hp] at ha
  · rw [Option.map_none, Option.toList_none, ite_self]
    exact ⟨Ledger.closesAll_nil, rfl⟩
  · cases ha
  · cases ha
  · next a c =>
    obtain ⟨hopen, hnumber⟩ := Prod.mk.inj (Option.some.inj ha)
    have hcloses := Acceptor.closesAll_close net a w
    rw [hopen, show a.tag.2 = c.tag.2 from hnumber] at hcloses
    exact ⟨hcloses, congrArg some ((Acceptor.tag_close net a w).trans (Prod.ext rfl hnumber))⟩

/-- Closing a pair closes the handles that are open, and leaves none of them open. -/
theorem Marked.close (h : p.Marked o q) (hphase : q.phase ≠ .closed) (net : Network A T W)
    (w : W × Ledger) :
    let x := q.close net.numbered w
    w.2.ClosesAll (p.numbersOf o) x.1 x.2.2.2.2 ∧ p.Marked (fun _ => false) x.2.1 ∧
      x.2.1.phase = .closed := by
  obtain ⟨hfirst, hsecond, hacceptor, hconnector⟩ := h
  have hone := hfirst.closesAll net w
  let w₁ := (net.numbered.closeEndpoint q.first w).2.2
  have htwo := hsecond.closesAll net w₁
  let w₂ := (net.numbered.closeEndpoint q.second w₁).2.2
  have hthree := Acceptor.closesAll_close net q.acceptor w₂
  rw [show q.acceptor.isOpen = o .acceptor from congrArg Prod.fst hacceptor,
    congrArg Prod.snd hacceptor] at hthree
  obtain ⟨hfour, hnone⟩ :=
    closesAll_connector hconnector net (net.numbered.closeAcceptor q.acceptor w₂).2.2
  rw [Pair.close, if_neg hphase, numbersOf]
  simp only [List.flatMap_cons, List.flatMap_nil, List.append_nil]
  refine ⟨hone.append (htwo.append (hthree.append hfour)), ⟨?_, ?_, ?_, hnone⟩, trivial⟩
  · exact hfirst.close net.wire w
  · exact hsecond.close net.wire w₁
  · rw [Acceptor.tag_close, congrArg Prod.snd hacceptor]

theorem Marked.useParts_closed (h : p.Marked (fun _ => false) q) (net : Network A T W)
    (us : List PartUse) (w : W × Ledger) : Pair.useParts net.numbered us (q, w) = (q, w) := by
  obtain ⟨hfirst, hsecond, hacceptor, hconnector⟩ := h
  have huse : ∀ u, Pair.usePart net.numbered (q, w) u = (q, w) := by
    intro u
    cases u with
    | first op =>
      obtain ⟨hsame, hworld⟩ :=
        Prod.mk.inj ((Endpoint.refuses net.numbered.wire hfirst.isOpen).perform op w)
      exact Prod.ext (congrArg (fun first => { q with first }) hsame) hworld
    | second op =>
      obtain ⟨hsame, hworld⟩ :=
        Prod.mk.inj ((Endpoint.refuses net.numbered.wire hsecond.isOpen).perform op w)
      exact Prod.ext (congrArg (fun second => { q with second }) hsame) hworld
    | acceptor u =>
      rw [Pair.usePart]
      simp only [Network.use_late (congrArg Prod.fst hacceptor) u w]
    | connector u =>
      cases hq : q.connector with
      | none => simp only [Pair.usePart, hq]
      | some a =>
        have ha : a.isOpen = false := by
          rw [hq] at hconnector
          cases hp : p.connector <;> rw [hp] at hconnector
          · cases hconnector
          · exact congrArg Prod.fst (Option.some.inj hconnector)
        simp only [Pair.usePart, hq, Network.use_late ha u w]
        rw [← hq]
  induction us with
  | nil => rfl
  | cons u us ih =>
    rw [Pair.useParts, List.foldl_cons, huse u]
    exact ih

/-- A pair is closed for good: nothing comes of using its handles, nor of closing it. -/
structure ClosedForGood (net : Network A T W) (x : Pair A T × W) : Prop where
  phase : x.1.phase = .closed
  isOpen : ∀ part, x.1.isOpen part = false
  useParts : ∀ us, useParts net us x = x
  close : x.1.close net x.2 = (.ok (), x.1, [], x.2)

/-- Closing a pair all of whose handles have been open at first, after they have been used and some
of them closed. -/
structure ClosesRest (net : Network A T W) (p : Pair (A × Nat) (T × Nat)) (us : List PartUse)
    (x : Pair (A × Nat) (T × Nat) × (W × Ledger)) : Prop where
  /-- The handles that are left are those that have not been closed. -/
  isOpen : ∀ part, x.1.isOpen part = ((p.number? part).isSome && !us.any (·.closes part))
  /-- They are closed in their order, each once, whatever comes of it. -/
  made : ∃ made : List (Nat × Except StreamError Unit),
    made.map Prod.fst = p.numbersOf (fun part => !us.any (·.closes part)) ∧
    (x.1.close net.numbered x.2).2.2.2.2 = { x.2.2 with closed := x.2.2.closed ++ made } ∧
    Ledger.FirstFailure made (x.1.close net.numbered x.2).1
  closed : ClosedForGood net.numbered
    ((x.1.close net.numbered x.2).2.1, (x.1.close net.numbered x.2).2.2.2)

/-- However a pair has been used, closing it closes the handles that are left, and those only. All
of them are closed even if some of the closings fail, the first failure is reported, and closing the
pair again does nothing. -/
theorem closes_rest (net : Network A T W) (p : Pair (A × Nat) (T × Nat))
    (hphase : p.phase ≠ .closed) (hopen : p.handles.AllOpen) (us : List PartUse)
    (w : W × Ledger) : ClosesRest net p us (useParts net.numbered us (p, w)) := by
  have hmarked := (marked_self hopen).useParts net us w
  simp only [Bool.true_and] at hmarked
  have hrunning : (useParts net.numbered us (p, w)).1.phase ≠ .closed := by
    rw [phase_useParts]
    exact hphase
  obtain ⟨⟨made, hnumbers, hresult, hledger⟩, hclosed, hphase'⟩ := hmarked.close hrunning net _
  refine ⟨fun part => ?_, ⟨made, hnumbers, hledger, ?_⟩, hphase', fun part => ?_, fun us' => ?_, ?_⟩
  · rw [hmarked.isOpen, Bool.and_comm]
  · rw [← hresult]
    exact Ledger.firstFailure_forM made
  · rw [hclosed.isOpen, Bool.false_and]
  · exact hclosed.useParts_closed net us' _
  · exact if_pos hphase'

end Pair

end Bench

namespace Scripted.Replay

/-- A pair with a layer on its first end. The ends cannot be closed well. -/
def stubborn : Bench.Pair (Descriptor × Nat) (Replay × Nat) where
  label := "stubborn"
  phase := .asserting
  port := 23
  first := .addLayer 0 (.new {}, (⟨true, (bad, 0)⟩ : Handle (Replay × Nat)))
  second := .ofTransport (bad, 1)
  acceptor := .new ⟨[.telnet], ⟨.tcp, none, some 23⟩⟩ {} (.plain .tcp none (some 23), 2)
  connector := some (.new ⟨[.telnet], ⟨.tcp, none, some 24⟩⟩ {} (.plain .tcp none (some 24), 3))
where
  bad : Replay := ⟨{ closeError := some .remoteClosed }, [], none, true⟩

/-- The second end has been closed by hand before. The first one fails to close, and so do the
listeners after it. -/
theorem closes_rest_stubborn :
    let us : List Bench.PartUse := [.first (.read 1), .second .close, .acceptor (.accept [0])]
    let x := Bench.Pair.useParts network.numbered us
      (stubborn, { shutdownError := some .contextShutdown }, {})
    stubborn.phase ≠ .closed ∧ stubborn.handles.AllOpen ∧
      Bench.Pair.ClosesRest network stubborn us x ∧
      (x.1.close network.numbered x.2).1 = .error .remoteClosed ∧
      (x.1.close network.numbered x.2).2.2.2.2.closed.map Prod.fst = [1, 0, 2, 3] := by
  intro us x
  have hphase : stubborn.phase ≠ .closed := by decide
  have hopen : stubborn.handles.AllOpen := by
    intro t ht
    revert t
    decide
  exact ⟨hphase, hopen, Bench.Pair.closes_rest network stubborn hphase hopen us _,
    rfl, by decide +kernel⟩

end Scripted.Replay

end Wirebench

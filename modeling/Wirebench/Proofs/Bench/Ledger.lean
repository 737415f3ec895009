import Wirebench.Network
import Wirebench.Proofs.Wire.Steps

namespace Wirebench

variable {S T A W α : Type}

structure Ledger where
  opened : Nat := 0
  /-- The closings in their order, with what came of them. -/
  closed : List (Nat × Except StreamError Unit) := []
  dropped : List Nat := []

namespace Ledger

def handOut (l : Ledger) : Ledger := { l with opened := l.opened + 1 }

def close (l : Ledger) (k : Nat) (r : Except StreamError Unit) : Ledger :=
  { l with closed := l.closed ++ [(k, r)] }

def closings (l : Ledger) (k : Nat) : Nat := (l.closed.map Prod.fst).count k

/-- Letting go of something that has been closed is not written down. -/
def drop (l : Ledger) (k : Nat) : Ledger :=
  if l.closings k = 0 then { l with dropped := l.dropped ++ [k] } else l

def spent (l : Ledger) (k : Nat) : Nat := l.closings k + l.dropped.count k

/-- Every number that has been given is held or written down, and only once. -/
def Balanced (l : Ledger) (held : List Nat) : Prop :=
  ∀ k, held.count k + l.spent k = if k < l.opened then 1 else 0

/-- Some handles are held in place of others, and the account still balances, whatever else is
held. -/
def Goes (held : List Nat) (l : Ledger) (held' : List Nat) (l' : Ledger) : Prop :=
  ∀ rest, l.Balanced (held ++ rest) → l'.Balanced (held' ++ rest)

variable {l l' l'' : Ledger} {held held' held'' : List Nat} {k : Nat} {r : Except StreamError Unit}

theorem balanced_start : Balanced {} [] := by
  intro k
  rfl

theorem Balanced.perm (h : l.Balanced held) (hp : held.Perm held') : l.Balanced held' := by
  intro k
  rw [← hp.count_eq]
  exact h k

theorem closings_close (j : Nat) :
    (l.close k r).closings j = l.closings j + if k = j then 1 else 0 := by
  simp [closings, close, List.count_singleton]

theorem Balanced.closings_eq_zero (h : l.Balanced held) (hk : k ∈ held) : l.closings k = 0 := by
  have hcount := List.count_pos_iff.2 hk
  have hbalance := h k
  rw [spent] at hbalance
  split at hbalance <;> omega

theorem Goes.refl (held : List Nat) (l : Ledger) : Goes held l held l := fun _ h => h

theorem Goes.trans (h : Goes held l held' l') (h' : Goes held' l' held'' l'') :
    Goes held l held'' l'' :=
  fun rest hb => h' rest (h rest hb)

theorem Goes.left (other : List Nat) (h : Goes held l held' l') :
    Goes (other ++ held) l (other ++ held') l' := by
  intro rest hb
  have hstart : (other ++ held ++ rest).Perm (held ++ (other ++ rest)) := by
    rw [List.append_assoc]
    exact List.perm_append_comm_assoc _ _ _
  have hend : (held' ++ (other ++ rest)).Perm (other ++ held' ++ rest) := by
    rw [List.append_assoc]
    exact List.perm_append_comm_assoc _ _ _
  exact (h _ (hb.perm hstart)).perm hend

theorem Goes.right (other : List Nat) (h : Goes held l held' l') :
    Goes (held ++ other) l (held' ++ other) l' := by
  intro rest hb
  have hb : l.Balanced (held ++ (other ++ rest)) := by rwa [← List.append_assoc]
  have hend : l'.Balanced (held' ++ (other ++ rest)) := h _ hb
  rwa [← List.append_assoc] at hend

theorem Goes.handOut : Goes [] l [l.opened] l.handOut := by
  intro rest hb k
  have hbalance := hb k
  rw [List.nil_append] at hbalance
  have hspent : l.handOut.spent k = l.spent k := rfl
  have hopened : l.handOut.opened = l.opened + 1 := rfl
  rw [hspent, hopened, List.count_append, List.count_singleton]
  simp only [beq_iff_eq]
  split <;> split at hbalance <;> split <;> omega

theorem Goes.close : Goes [k] l [] (l.close k r) := by
  intro rest hb j
  have hbalance := hb j
  have hopened : (l.close k r).opened = l.opened := rfl
  have hdropped : (l.close k r).dropped = l.dropped := rfl
  rw [spent, List.count_append, List.count_singleton] at hbalance
  rw [spent, hopened, hdropped, closings_close, List.nil_append, ← hbalance]
  simp only [beq_iff_eq]
  omega

theorem Goes.drop : Goes [k] l [] (l.drop k) := by
  intro rest hb j
  have hbalance := hb j
  have hzero := hb.closings_eq_zero (List.mem_append_left _ (List.mem_singleton_self k))
  rw [Ledger.drop, if_pos hzero, spent]
  rw [spent, List.count_append, List.count_singleton] at hbalance
  have hclosings : closings { l with dropped := l.dropped ++ [k] } j = l.closings j := rfl
  rw [hclosings, List.nil_append, List.count_append, List.count_singleton, ← hbalance]
  omega

theorem drop_close : (l.close k r).drop k = l.close k r := by
  have hclosed : (l.close k r).closings k ≠ 0 := by
    rw [closings_close, if_pos rfl]
    omega
  rw [drop, if_neg hclosed]

end Ledger

namespace Ledger

/-- An operation on a numbered handle that is not written down. -/
def silent (op : S → W → α × S × W) (s : S × Nat) (w : W × Ledger) :
    α × (S × Nat) × (W × Ledger) :=
  let (r, t, v) := op s.1 w.1
  (r, (t, s.2), (v, w.2))

def handedOut (l : Ledger) : Except StreamError S × W → Except StreamError (S × Nat) × (W × Ledger)
  | (.ok s, w) => (.ok (s, l.opened), (w, l.handOut))
  | (.error e, w) => (.error e, (w, l))

end Ledger

/-- The same transports; their closings are written down. -/
def Wire.numbered (io : Wire T W) : Wire (T × Nat) (W × Ledger) where
  name s := io.name s.1
  read n := Ledger.silent (io.read n)
  write data := Ledger.silent (io.write data)
  writeUrgent data := Ledger.silent (io.writeUrgent data)
  readUrgent n := Ledger.silent (io.readUrgent n)
  control request := Ledger.silent (io.control request)
  close s w :=
    let (r, t, v) := io.close s.1 w.1
    (r, (t, s.2), (v, w.2.close s.2 (r.orElse (.ok ()))))
  discard s w := (io.discard s.1 w.1, w.2.drop s.2)
  backlog s w := io.backlog s.1 w.1

/-- The same network, which keeps an account of its listeners and connections. -/
def Network.numbered (net : Network A T W) : Network (A × Nat) (T × Nat) (W × Ledger) where
  wire := net.wire.numbered
  listen d config w := w.2.handedOut (net.listen d config w.1)
  connect d config w := w.2.handedOut (net.connect d config w.1)
  accept a w :=
    match net.accept a.1 w.1 with
    | (.ok t, v) => (.ok (t, w.2.opened), (v, w.2.handOut))
    | (.error e, v) => (.error e, (v, w.2))
    | (.waiting, v) => (.waiting, (v, w.2))
    | (.stalled, v) => (.stalled, (v, w.2))
  connectFrom a d w := w.2.handedOut (net.connectFrom a.1 d w.1)
  addresses a w := net.addresses a.1 w.1
  shutdown a w :=
    let (r, v) := net.shutdown a.1 w.1
    (r, (v, w.2.close a.2 r))
  discard a w := (net.discard a.1 w.1, w.2.drop a.2)

/-- A handle is as open as before and has the same number, and nothing has been written down. -/
def Still (tag : S → Bool × Nat) (x y : S × (W × Ledger)) : Prop :=
  tag y.1 = tag x.1 ∧ y.2.2 = x.2.2

theorem Still.refl {tag : S → Bool × Nat} (x : S × (W × Ledger)) : Still tag x x := ⟨rfl, rfl⟩

theorem Still.trans {tag : S → Bool × Nat} {x y z : S × (W × Ledger)} (h : Still tag x y)
    (h' : Still tag y z) : Still tag x z :=
  ⟨h'.1.trans h.1, h'.2.trans h.2⟩

/-- Only closing and letting go are written down. The tag of a handle tells whether it is open
through all its layers, and gives its number. -/
structure Wire.Keeps (io : Wire S (W × Ledger)) (tag : S → Bool × Nat) : Prop where
  read : ∀ n s w, Still tag (s, w) (io.read n s w).2
  write : ∀ data s w, Still tag (s, w) (io.write data s w).2
  writeUrgent : ∀ data s w, Still tag (s, w) (io.writeUrgent data s w).2
  readUrgent : ∀ n s w, Still tag (s, w) (io.readUrgent n s w).2
  control : ∀ request s w, Still tag (s, w) (io.control request s w).2
  close : ∀ s w, (tag s).1 = true → (tag (io.close s w).2.1).2 = (tag s).2 ∧
    (io.close s w).2.2.2 = w.2.close (tag s).2 ((io.close s w).1.orElse (.ok ()))
  discard : ∀ s w, (io.discard s w).2 = w.2.drop (tag s).2

/-- A handle is open if it is not closed itself and what is under it is open. -/
def Handle.tag (tag : S → Bool × Nat) (h : Handle S) : Bool × Nat :=
  (h.isOpen && (tag h.inner).1, (tag h.inner).2)

theorem Wire.keeps_numbered (io : Wire T W) : io.numbered.Keeps fun s => (true, s.2) where
  read _ _ _ := ⟨rfl, rfl⟩
  write _ _ _ := ⟨rfl, rfl⟩
  writeUrgent _ _ _ := ⟨rfl, rfl⟩
  readUrgent _ _ _ := ⟨rfl, rfl⟩
  control _ _ _ := ⟨rfl, rfl⟩
  close _ _ _ := ⟨rfl, rfl⟩
  discard _ _ := rfl

namespace Wire.Keeps

variable {io : Wire S (W × Ledger)} {tag : S → Bool × Nat}

theorem steps (h : io.Keeps tag) : io.Steps (Still tag) where
  refl := .refl
  trans := .trans
  read := h.read
  write := h.write

theorem writeAll (h : io.Keeps tag) (data : List UInt8) (s : S) (w : W × Ledger) :
    Still tag (s, w) (io.writeAll data s w).2 :=
  h.steps.writeAll data s w

theorem readExact (h : io.Keeps tag) (n : Nat) (got : List UInt8) (s : S) (w : W × Ledger) :
    Still tag (s, w) (io.readExact n got s w).2.2 :=
  h.steps.readMore _ _ _ s w

theorem still_whenOpen {op : S → W × Ledger → Outcome α × S × (W × Ledger)}
    (hop : ∀ s w, Still tag (s, w) (op s w).2) (h : Handle S) (w : W × Ledger) :
    Still (Handle.tag tag) (h, w) (whenOpen op h w).2 := by
  obtain ⟨isOpen, s⟩ := h
  cases isOpen with
  | false => exact .refl _
  | true =>
    obtain ⟨htag, hledger⟩ := hop s w
    exact ⟨congrArg (fun t => (true && t.1, t.2)) htag, hledger⟩

theorem guarded (h : io.Keeps tag) : io.guarded.Keeps (Handle.tag tag) where
  read n := still_whenOpen (h.read n)
  write data := still_whenOpen (h.write data)
  writeUrgent data := still_whenOpen (h.writeUrgent data)
  readUrgent n := still_whenOpen (h.readUrgent n)
  control request := still_whenOpen (h.control request)
  close := by
    rintro ⟨isOpen, s⟩ w hopen
    obtain ⟨rfl, hinner⟩ := Bool.and_eq_true_iff.1 hopen
    exact h.close s w hinner
  discard s w := h.discard s.inner w

theorem fillUntil (h : io.Keeps tag) (done : Telnet.Layer → Bool) (fuel : Nat)
    (x : Telnet.Layer × S) (w : W × Ledger) :
    Still (fun x => tag x.2) (x, w) (Telnet.fillUntil io done fuel x w).2 :=
  (h.steps.fillUntil done fuel x w).2

theorem layer (h : io.Keeps tag) : (Telnet.layerWire io).Keeps fun x => tag x.2 where
  read n x w := (h.steps.layer.read n x w).2
  write data x w := h.writeAll (Telnet.escape data) x.2 w
  writeUrgent _ x w := .refl _
  readUrgent _ x w := .refl _
  control := by
    rintro request ⟨l, s⟩ w
    rw [Telnet.layerWire_control]
    split
    · exact h.writeAll Telnet.breakBytes s w
    · split
      · exact .refl _
      · cases request.descend with
        | none => exact .refl _
        | some lower => exact h.control lower s w
  close x w hopen := h.close x.2 w hopen
  discard x w := h.discard x.2 w

end Wire.Keeps

/-- Whether a stack is open through all its layers, and the number of its transport. -/
def stackTag : (n : Nat) → StackState (T × Nat) n → Bool × Nat
  | 0 => Handle.tag fun s => (true, s.2)
  | n + 1 => Handle.tag fun x => stackTag n x.2

theorem Wire.keeps_stack (io : Wire T W) (n : Nat) :
    (stackWire io.numbered n).Keeps (stackTag n) := by
  induction n with
  | zero => exact io.keeps_numbered.guarded
  | succ n ih => exact ih.layer.guarded

def Endpoint.tag (e : Endpoint (T × Nat)) : Bool × Nat := stackTag e.layers e.state

theorem Endpoint.keeps (io : Wire T W) : (wire io.numbered).Keeps Endpoint.tag where
  read n e := (io.keeps_stack e.layers).read n e.state
  write data e := (io.keeps_stack e.layers).write data e.state
  writeUrgent data e := (io.keeps_stack e.layers).writeUrgent data e.state
  readUrgent n e := (io.keeps_stack e.layers).readUrgent n e.state
  control request e := (io.keeps_stack e.layers).control request e.state
  close e := (io.keeps_stack e.layers).close e.state
  discard e := (io.keeps_stack e.layers).discard e.state

end Wirebench

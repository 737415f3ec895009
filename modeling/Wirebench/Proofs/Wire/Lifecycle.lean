import Wirebench.Proofs.Wire.Calls

namespace Wirebench

section

variable {Z Z' O A : Type}

/-- Use something again and again. -/
def useAll (use : O → Z → A × Z) : List O → Z → List A × Z
  | [], z => ([], z)
  | o :: os, z =>
    let (a, z) := use o z
    let (as, z) := useAll use os z
    (a :: as, z)

theorem useAll_cons (use : O → Z → A × Z) (o : O) (os : List O) (z : Z) :
    useAll use (o :: os) z =
      ((use o z).1 :: (useAll use os (use o z).2).1, (useAll use os (use o z).2).2) := rfl

theorem agree_useAll {use : O → Z → A × Z} {use' : O → Z' → A × Z'} {ρ : Z → Z' → Prop}
    (h : ∀ o {z z'}, ρ z z' → Agree ρ (use o z) (use' o z')) (os : List O) {z : Z} {z' : Z'}
    (hρ : ρ z z') : Agree ρ (useAll use os z) (useAll use' os z') := by
  induction os generalizing z z' with
  | nil => exact ⟨rfl, hρ⟩
  | cons o os ih =>
    obtain ⟨ha, hρ'⟩ := h o hρ
    obtain ⟨has, hρ''⟩ := ih hρ'
    rw [useAll_cons, useAll_cons, ha, has]
    exact ⟨rfl, hρ''⟩

end

/-- Something that is used and can be closed. -/
structure Closable (Z O A : Type) where
  use : O → Z → A × Z
  isClose : O → Bool
  isOpen : Z → Bool
  /-- How often what is under it has been closed. -/
  closings : Z → Nat
  /-- How often closing it closes what is under it. -/
  due : Z → Nat
  /-- The answer after it has been closed. -/
  late : O → A

namespace Closable

variable {Z O A : Type} {c : Closable Z O A} {z : Z}

/-- Only closing it closes what is under it, and once it is closed it does nothing. -/
structure ClosesOnce (c : Closable Z O A) : Prop where
  other : ∀ {o z}, c.isOpen z = true → c.isClose o = false →
    c.isOpen (c.use o z).2 = true ∧ c.closings (c.use o z).2 = c.closings z ∧
      c.due (c.use o z).2 = c.due z
  close : ∀ {o z}, c.isOpen z = true → c.isClose o = true →
    c.isOpen (c.use o z).2 = false ∧ c.closings (c.use o z).2 = c.closings z + c.due z
  late : ∀ {o z}, c.isOpen z = false → c.use o z = (c.late o, z)

/-- The life of something from a state in which it is open. Closing it closes what is under it `due`
times. -/
structure Lifecycle (c : Closable Z O A) (due : Nat) (z : Z) : Prop where
  /-- It is open until it is closed, and then never again. -/
  isOpen : ∀ os, c.isOpen (useAll c.use os z).2 = !os.any c.isClose
  /-- Only the first closing closes what is under it. -/
  closings : ∀ os,
    c.closings (useAll c.use os z).2 = c.closings z + if os.any c.isClose then due else 0
  /-- After that nothing happens any more. -/
  late : ∀ os os', os.any c.isClose = true →
    useAll c.use os' (useAll c.use os z).2 = (os'.map c.late, (useAll c.use os z).2)

namespace ClosesOnce

theorem useAll_late (h : c.ClosesOnce) (hz : c.isOpen z = false) (os : List O) :
    useAll c.use os z = (os.map c.late, z) := by
  induction os with
  | nil => rfl
  | cons o os ih => rw [useAll_cons, h.late hz, ih, List.map_cons]

theorem useAll_open (h : c.ClosesOnce) (hz : c.isOpen z = true) (os : List O) :
    c.isOpen (useAll c.use os z).2 = (!os.any c.isClose) ∧
      c.closings (useAll c.use os z).2 =
        c.closings z + if os.any c.isClose then c.due z else 0 := by
  induction os generalizing z with
  | nil => exact ⟨hz, rfl⟩
  | cons o os ih =>
    rw [useAll_cons, List.any_cons]
    cases ho : c.isClose o with
    | false =>
      obtain ⟨hopen, hclosings, hdue⟩ := h.other hz ho
      obtain ⟨hopen', hclosings'⟩ := ih hopen
      rw [hclosings, hdue] at hclosings'
      exact ⟨hopen', hclosings'⟩
    | true =>
      obtain ⟨hopen, hclosings⟩ := h.close hz ho
      rw [h.useAll_late hopen]
      exact ⟨hopen, hclosings⟩

theorem lifecycle (h : c.ClosesOnce) (hz : c.isOpen z = true) : c.Lifecycle (c.due z) z where
  isOpen os := (h.useAll_open hz os).1
  closings os := (h.useAll_open hz os).2
  late os os' hos := by
    apply h.useAll_late
    rw [(h.useAll_open hz os).1, hos]
    rfl

theorem closings_le (h : c.ClosesOnce) (z : Z) (os : List O) :
    c.closings (useAll c.use os z).2 ≤ c.closings z + c.due z := by
  cases hz : c.isOpen z with
  | false =>
    rw [h.useAll_late hz]
    exact Nat.le_add_right _ _
  | true =>
    rw [(h.useAll_open hz os).2]
    split
    · exact Nat.le_refl _
    · exact Nat.add_le_add_left (Nat.zero_le _) _

end ClosesOnce

end Closable

/-- An operation on a wire. Of the bytes of an exact read some may have come before. -/
inductive Operation
  | read (n : Nat)
  | readExact (n : Nat) (got : List UInt8)
  | write (data : List UInt8)
  | writeAll (data : List UInt8)
  | writeUrgent (data : List UInt8)
  | readUrgent (n : Nat)
  | control (request : ControlRequest)
  | close
  deriving DecidableEq, Repr

inductive Answer
  | bytes (bs : List UInt8)
  | count (n : Nat)
  | text (s : String)
  | done
  deriving DecidableEq, Repr

namespace Operation

def isClose : Operation → Bool
  | close => true
  | read _ | readExact .. | write _ | writeAll _ | writeUrgent _ | readUrgent _ | control _ => false

/-- The answer of a closed handle. An operation for which there is nothing to do ends well. -/
def late : Operation → Outcome Answer
  | close => .ok .done
  | readExact n got => if n ≤ got.length then .ok (.bytes got) else .error .closed
  | writeAll data => if data.isEmpty then .ok .done else .error .closed
  | read _ | write _ | writeUrgent _ | readUrgent _ | control _ => .error .closed

end Operation

variable {S S' T W W' α β : Type}

/-- An operation whose value is given as an answer. -/
def answering (f : α → Answer) (r : Outcome α × β) : Outcome Answer × β := (r.1.map f, r.2)

def Wire.perform (io : Wire S W) (o : Operation) (x : S × W) : Outcome Answer × (S × W) :=
  match o with
  | .read n => answering .bytes (io.read n x.1 x.2)
  | .readExact n got =>
    let r := io.readExact n got x.1 x.2
    answering .bytes (r.1, r.2.2)
  | .write data => answering .count (io.write data x.1 x.2)
  | .writeAll data => answering (fun _ => .done) (io.writeAll data x.1 x.2)
  | .writeUrgent data => answering (fun _ => .done) (io.writeUrgent data x.1 x.2)
  | .readUrgent n => answering .bytes (io.readUrgent n x.1 x.2)
  | .control request => answering .text (io.control request x.1 x.2)
  | .close => answering (fun _ => .done) (io.close x.1 x.2)

/-- A wire whose transport writes down its calls, as something to be closed. -/
def Wire.closable (io : Wire S (List Call × W)) (isOpen : S → Bool) (handles : S → List Bool) :
    Closable (S × (List Call × W)) Operation (Outcome Answer) where
  use := io.perform
  isClose := Operation.isClose
  isOpen x := isOpen x.1
  closings x := Wirebench.closings x.2.1
  due x := if (handles x.1).all id then 1 else 0
  late := Operation.late

section

variable {ρ : S × W → S' × W' → Prop} {io : Wire S W} {io' : Wire S' W'} {x : S × W} {y : S' × W'}

theorem agree_answering {r : Outcome α × (S × W)} {r' : Outcome α × (S' × W')} (f : α → Answer)
    (h : Agree ρ r r') : Agree ρ (answering f r) (answering f r') :=
  ⟨congrArg (Outcome.map f) h.1, h.2⟩

theorem Wire.AlikeInUse.perform (h : io.AlikeInUse io' ρ) {o : Operation} (ho : o.isClose = false)
    (hρ : ρ x y) : Agree ρ (io.perform o x) (io'.perform o y) := by
  cases o with
  | read n => exact agree_answering _ (h.read n hρ)
  | readExact n got =>
    obtain ⟨hr, -, hρ'⟩ := h.readExact n got hρ
    exact agree_answering _ ⟨hr, hρ'⟩
  | write data => exact agree_answering _ (h.write data hρ)
  | writeAll data => exact agree_answering _ (h.writeAll data hρ)
  | writeUrgent data => exact agree_answering _ (h.writeUrgent data hρ)
  | readUrgent n => exact agree_answering _ (h.readUrgent n hρ)
  | control request => exact agree_answering _ (h.control request hρ)
  | close => cases ho

theorem Wire.Mirrors.perform (h : io.Mirrors io' ρ) (o : Operation) (hρ : ρ x y) :
    Agree ρ (io.perform o x) (io'.perform o y) := by
  cases ho : o.isClose with
  | false => exact h.toAlikeInUse.perform ho hρ
  | true =>
    cases o with
    | close => exact agree_answering _ (h.close hρ)
    | read | readExact | write | writeAll | writeUrgent | readUrgent | control => cases ho

end

/-- The handles are as in `hs`, and there have been `k` closings. -/
def Untouched (handles : S → List Bool) (hs : List Bool) (k : Nat)
    (x y : S × (List Call × W)) : Prop :=
  x = y ∧ handles x.1 = hs ∧ closings x.2.1 = k

/-- Whether a handle is open, and the handles under it. -/
def Handle.andUnder (handles : S → List Bool) (h : Handle S) : List Bool :=
  h.isOpen :: handles h.inner

section

variable {io : Wire S (List Call × W)} {handles : S → List Bool} {hs : List Bool} {k : Nat}

theorem Telnet.Layer.both_untouched :
    Telnet.Layer.Both (Untouched (W := W) handles hs k) =
      Untouched (fun x => handles x.2) hs k := by
  funext ⟨⟨l, s⟩, w⟩ ⟨⟨l', s'⟩, w'⟩
  simp only [Telnet.Layer.Both, Untouched, Prod.mk.injEq, and_assoc]

theorem untouched_whenOpen
    {op : S → List Call × W → Outcome α × S × (List Call × W)} {x y : Handle S × (List Call × W)}
    (hop : ∀ {s w s' w' hs}, Untouched handles hs k (s, w) (s', w') →
      Agree (Untouched handles hs k) (op s w) (op s' w'))
    (hx : Untouched (Handle.andUnder handles) hs k x y) :
    Agree (Untouched (Handle.andUnder handles) hs k) (Wire.whenOpen op x.1 x.2)
      (Wire.whenOpen op y.1 y.2) := by
  obtain ⟨⟨o, s⟩, w⟩ := x
  obtain ⟨rfl, rfl, hk⟩ := hx
  cases o with
  | false => exact ⟨rfl, rfl, rfl, hk⟩
  | true =>
    obtain ⟨-, -, hhandles, hk'⟩ := hop (s := s) (w := w) ⟨rfl, rfl, hk⟩
    exact ⟨rfl, rfl, congrArg (true :: ·) hhandles, hk'⟩

theorem untouched_guarded (h : ∀ hs, io.AlikeInUse io (Untouched handles hs k)) :
    io.guarded.AlikeInUse io.guarded (Untouched (Handle.andUnder handles) hs k) where
  read n hx := untouched_whenOpen ((h _).read n) hx
  write data hx := untouched_whenOpen ((h _).write data) hx
  backlog hx := by cases hx.1; rfl
  writeUrgent data hx := untouched_whenOpen ((h _).writeUrgent data) hx
  readUrgent n hx := untouched_whenOpen ((h _).readUrgent n) hx
  control request hx := untouched_whenOpen ((h _).control request) hx

end

/-- A wire whose transport writes down its calls. Only closing it touches handles, and it closes the
transport if all handles are open. -/
structure Wire.ClosesThrough (io : Wire S (List Call × W)) (handles : S → List Bool) : Prop where
  other : ∀ hs k, io.AlikeInUse io (Untouched handles hs k)
  close : ∀ s w, closings (io.close s w).2.2.1 =
    closings w.1 + if (handles s).all id then 1 else 0

namespace Wire.ClosesThrough

variable {io : Wire S (List Call × W)} {handles : S → List Bool}

theorem watched (io : Wire S W) : io.watched.ClosesThrough fun _ => [] where
  other hs k :=
    { read := by
        rintro s w _ _ n ⟨⟨⟩, hhs, hk⟩
        exact ⟨rfl, rfl, hhs, (closings_append _ _).trans hk⟩
      write := by
        rintro s w _ _ data ⟨⟨⟩, hhs, hk⟩
        exact ⟨rfl, rfl, hhs, (closings_append _ _).trans hk⟩
      backlog := by
        rintro s w _ _ ⟨⟨⟩, -⟩
        rfl
      writeUrgent := by
        rintro s w _ _ data ⟨⟨⟩, hhs, hk⟩
        exact ⟨rfl, rfl, hhs, (closings_append _ _).trans hk⟩
      readUrgent := by
        rintro s w _ _ n ⟨⟨⟩, hhs, hk⟩
        exact ⟨rfl, rfl, hhs, (closings_append _ _).trans hk⟩
      control := by
        rintro s w _ _ request ⟨⟨⟩, hhs, hk⟩
        exact ⟨rfl, rfl, hhs, (closings_append _ _).trans hk⟩ }
  close _ _ := closings_append _ _

theorem guarded (h : io.ClosesThrough handles) :
    io.guarded.ClosesThrough (Handle.andUnder handles) where
  other hs k := untouched_guarded fun hs => h.other hs k
  close := by
    rintro ⟨o, s⟩ w
    cases o with
    | false => rfl
    | true => exact h.close s w

theorem layer (h : io.ClosesThrough handles) :
    (Telnet.layerWire io).ClosesThrough fun x => handles x.2 where
  other hs k := Telnet.Layer.both_untouched ▸ (h.other hs k).layer
  close x w := h.close x.2 w

theorem closesOnce (h : io.ClosesThrough handles) :
    (io.guarded.closable Handle.isOpen (Handle.andUnder handles)).ClosesOnce where
  other := by
    rintro o ⟨x, w⟩ hx ho
    obtain ⟨-, -, hhandles, hk⟩ := (h.guarded.other _ _).perform (x := (x, w)) ho ⟨rfl, rfl, rfl⟩
    refine ⟨(List.cons.inj hhandles).1.trans hx, hk, ?_⟩
    exact congrArg (fun hs => if hs.all id then 1 else 0) hhandles
  close := by
    rintro o ⟨⟨_, s⟩, w⟩ (rfl : _ = true) ho
    cases o with
    | close => exact ⟨rfl, h.close s w⟩
    | read | readExact | write | writeAll | writeUrgent | readUrgent | control => cases ho
  late := by
    rintro o ⟨⟨_, s⟩, w⟩ (rfl : _ = false)
    cases o with
    | close => rfl
    | read | write | writeUrgent | readUrgent | control => rfl
    | writeAll data =>
      cases data with
      | nil =>
        simp only [Wire.closable, Wire.perform, Wire.writeAll]
        rfl
      | cons b bs =>
        simp only [Wire.closable, Wire.perform, Wire.writeAll]
        rfl
    | readExact n got =>
      simp only [Wire.closable, Wire.perform, Wire.readExact, Wire.readMore, Nat.sub_eq_zero_iff_le,
        Operation.late]
      split <;> rfl

theorem stack (io : Wire T W) (n : Nat) :
    (stackWire io.watched n).ClosesThrough (StackState.handles n) := by
  induction n with
  | zero => exact (watched io).guarded
  | succ n ih => exact ih.layer.guarded

end Wire.ClosesThrough

namespace Wire

/-- A handle on a wire, which writes down its calls. -/
def handle (io : Wire S W) : Closable (Handle S × (List Call × W)) Operation (Outcome Answer) :=
  io.watched.guarded.closable Handle.isOpen (Handle.andUnder fun _ => [])

/-- The outer handle of a stack, whose transport writes down its calls. -/
def stackHandle (io : Wire T W) (n : Nat) :
    Closable (StackState T n × (List Call × W)) Operation (Outcome Answer) :=
  (stackWire io.watched n).closable (fun s => Endpoint.isOpen ⟨n, s⟩) (StackState.handles n)

theorem closesOnce_handle (io : Wire S W) : io.handle.ClosesOnce :=
  (ClosesThrough.watched io).closesOnce

theorem closesOnce_stackHandle (io : Wire T W) (n : Nat) : (io.stackHandle n).ClosesOnce := by
  cases n with
  | zero => exact (ClosesThrough.watched io).closesOnce
  | succ n => exact (ClosesThrough.stack io n).layer.closesOnce

theorem lifecycle_handle (io : Wire S W) (s : S) (w : W) :
    io.handle.Lifecycle 1 (⟨true, s⟩, ([], w)) := by
  have hopen : io.handle.isOpen (⟨true, s⟩, ([], w)) = true := rfl
  exact io.closesOnce_handle.lifecycle hopen

theorem lifecycle_stackHandle (io : Wire T W) {n : Nat} {s : StackState T n}
    (hs : ∀ o ∈ StackState.handles n s, o = true) (w : W) :
    (io.stackHandle n).Lifecycle 1 (s, ([], w)) := by
  have hopen : (io.stackHandle n).isOpen (s, ([], w)) = true := by
    cases n with
    | zero => exact hs _ List.mem_cons_self
    | succ n => exact hs _ List.mem_cons_self
  have hdue : (io.stackHandle n).due (s, ([], w)) = 1 := if_pos (List.all_eq_true.2 hs)
  exact hdue ▸ (io.closesOnce_stackHandle n).lifecycle hopen

/-- However often the outer handle is closed, and whichever handles have been closed before. -/
theorem closings_stackHandle_le (io : Wire T W) (n : Nat) (s : StackState T n) (w : W)
    (os : List Operation) :
    (io.stackHandle n).closings (useAll (io.stackHandle n).use os (s, ([], w))).2 ≤ 1 := by
  have hle := (io.closesOnce_stackHandle n).closings_le (s, ([], w)) os
  have hstart : (io.stackHandle n).closings (s, ([], w)) = 0 := rfl
  have hdue : (io.stackHandle n).due (s, ([], w)) ≤ 1 := by
    dsimp only [stackHandle, closable]
    split <;> omega
  omega

theorem useAll_watched {io : Wire S (List Call × W)} {io' : Wire S W}
    (h : io.Mirrors io' (SameState (Beside fun _ => True))) (os : List Operation) (s : S)
    (calls : List Call) (w : W) :
    let x := useAll io.perform os (s, (calls, w))
    (x.1, x.2.1, x.2.2.2) = useAll io'.perform os (s, w) := by
  have hstart : SameState (Beside fun _ => True) (s, (calls, w)) (s, w) := ⟨rfl, rfl, trivial⟩
  obtain ⟨ha, hs, hw, -⟩ := agree_useAll (fun o {_ _} hρ => h.perform o hρ) os hstart
  exact Prod.ext ha (Prod.ext hs hw)

end Wire

end Wirebench

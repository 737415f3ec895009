import Wirebench.Proofs.Wire.Mirrors

namespace Wirebench

variable {S T W E L α : Type}

/-- A call of an operation, and what came of it. -/
inductive Call
  | read (n : Nat) (r : Outcome (List UInt8))
  | write (data : List UInt8) (r : Outcome Nat)
  | writeUrgent (data : List UInt8) (r : Outcome Unit)
  | readUrgent (n : Nat) (r : Outcome (List UInt8))
  | control (request : ControlRequest) (r : Outcome String)
  | close (r : Outcome Unit)
  deriving DecidableEq, Repr

namespace Call

def isClose : Call → Bool
  | close _ => true
  | read .. | write .. | writeUrgent .. | readUrgent .. | control .. => false

def isTransfer : Call → Bool
  | read .. | write .. => true
  | writeUrgent .. | readUrgent .. | control .. | close _ => false

def request? : Call → Option ControlRequest
  | control request _ => some request
  | read .. | write .. | writeUrgent .. | readUrgent .. | close _ => none

/-- The bytes that a call hands out. -/
def handed : Call → List UInt8
  | read _ (.ok bytes) => bytes
  | read .. | write .. | writeUrgent .. | readUrgent .. | control .. | close _ => []

/-- The bytes that are taken in by a call. -/
def taken : Call → List UInt8
  | write data (.ok n) => data.take n
  | read .. | write .. | writeUrgent .. | readUrgent .. | control .. | close _ => []

theorem isClose_of_isTransfer {c : Call} (h : c.isTransfer = true) : c.isClose = false := by
  cases c with
  | read | write => rfl
  | writeUrgent | readUrgent | control | close => cases h

end Call

/-- The calls of a close in a record. -/
def closings (calls : List Call) : Nat := calls.countP Call.isClose

theorem closings_append (cs ds : List Call) : closings (cs ++ ds) = closings cs + closings ds :=
  List.countP_append

/-- The requests that have come to the layers of a stack, in the order in which they were
answered. -/
def requests (calls : List (Nat × Call)) : List (Nat × ControlRequest) :=
  calls.filterMap fun c => c.2.request?.map fun request => (c.1, request)

theorem requests_append (cs ds : List (Nat × Call)) :
    requests (cs ++ ds) = requests cs ++ requests ds :=
  List.filterMap_append

namespace Wire

/-- An operation in a world beside which something else stands. -/
def aside (op : S → W → α × S × W) (s : S) (w : L × W) : α × S × (L × W) :=
  let (r, t, v) := op s w.2
  (r, t, (w.1, v))

/-- An operation that is written down when it has come to an answer. -/
def noting (entry : S → α → E) (op : S → List E × W → α × S × (List E × W)) (s : S)
    (w : List E × W) : α × S × (List E × W) :=
  let (r, t, v) := op s w
  (r, t, (v.1 ++ [entry s r], v.2))

/-- The same wire in a world beside which something else stands. -/
def beside (io : Wire S W) (L : Type) : Wire S (L × W) where
  name := io.name
  read n := aside (io.read n)
  write data := aside (io.write data)
  writeUrgent data := aside (io.writeUrgent data)
  readUrgent n := aside (io.readUrgent n)
  control request := aside (io.control request)
  close := aside io.close
  discard s w := (w.1, io.discard s w.2)
  backlog s w := io.backlog s w.2

/-- The same wire, which writes its calls down. -/
def noted (io : Wire S (List E × W)) (note : S → Call → E) : Wire S (List E × W) where
  name := io.name
  read n := noting (fun s r => note s (.read n r)) (io.read n)
  write data := noting (fun s r => note s (.write data r)) (io.write data)
  writeUrgent data := noting (fun s r => note s (.writeUrgent data r)) (io.writeUrgent data)
  readUrgent n := noting (fun s r => note s (.readUrgent n r)) (io.readUrgent n)
  control request := noting (fun s r => note s (.control request r)) (io.control request)
  close := noting (fun s r => note s (.close r)) io.close
  discard := io.discard
  backlog := io.backlog

/-- The same wire with a record of its calls. -/
def watched (io : Wire S W) : Wire S (List Call × W) := (io.beside (List Call)).noted fun _ c => c

end Wire

/-- The same stack with a record of the calls of its layers. A layer is known by the number of
layers below it, so the transport comes as number zero. -/
def watchedStack (io : Wire T W) : (n : Nat) → Wire (StackState T n) (List (Nat × Call) × W)
  | 0 => ((io.beside (List (Nat × Call))).noted fun _ c => (0, c)).guarded
  | n + 1 => ((Telnet.layerWire (watchedStack io n)).noted fun _ c => (n + 1, c)).guarded

/-- Whether the handles of a stack are open, the outermost one first. -/
def StackState.handles : (n : Nat) → StackState T n → List Bool
  | 0, h => [Handle.isOpen h]
  | n + 1, h => Handle.isOpen h :: handles n (Handle.inner h).2

/-- Worlds that are the same, apart from something beside the first one, which satisfies `P`. -/
def Beside (P : L → Prop) (v : L × W) (w : W) : Prop := v.2 = w ∧ P v.1

namespace Wire

theorem mirrors_beside (io : Wire S W) (P : L → Prop) :
    (io.beside L).Mirrors io (SameState (Beside P)) where
  read := by rintro s ⟨_, w⟩ _ _ n ⟨rfl, rfl, h⟩; exact ⟨rfl, rfl, rfl, h⟩
  write := by rintro s ⟨_, w⟩ _ _ data ⟨rfl, rfl, h⟩; exact ⟨rfl, rfl, rfl, h⟩
  backlog := by rintro s ⟨_, w⟩ _ _ ⟨rfl, rfl, h⟩; rfl
  writeUrgent := by rintro s ⟨_, w⟩ _ _ data ⟨rfl, rfl, h⟩; exact ⟨rfl, rfl, rfl, h⟩
  readUrgent := by rintro s ⟨_, w⟩ _ _ n ⟨rfl, rfl, h⟩; exact ⟨rfl, rfl, rfl, h⟩
  control := by rintro s ⟨_, w⟩ _ _ request ⟨rfl, rfl, h⟩; exact ⟨rfl, rfl, rfl, h⟩
  close := by rintro s ⟨_, w⟩ _ _ ⟨rfl, rfl, h⟩; exact ⟨rfl, rfl, rfl, h⟩
  discard := by rintro s ⟨_, w⟩ _ _ ⟨rfl, rfl, h⟩; exact ⟨rfl, rfl, h⟩

variable {S' W' : Type}

theorem agree_noting {ρ : S × (List E × W) → S' × W' → Prop} {r' : α × S' × W'}
    {op : S → List E × W → α × S × (List E × W)} {entry : S → α → E} {s : S} {w : List E × W}
    (hnote : ∀ {t v y} a, ρ (t, v) y → ρ (t, (v.1 ++ [entry s a], v.2)) y)
    (h : Agree ρ (op s w) r') : Agree ρ (noting entry op s w) r' :=
  ⟨h.1, hnote _ h.2⟩

theorem Alike.noted {io : Wire S (List E × W)} {io' : Wire S' W'}
    {ρ : S × (List E × W) → S' × W' → Prop} (h : io.Alike io' ρ) (note : S → Call → E)
    (hnote : ∀ {s t v y} c, c.isTransfer = true → ρ (t, v) y → ρ (t, (v.1 ++ [note s c], v.2)) y) :
    (io.noted note).Alike io' ρ where
  read n hρ := agree_noting (fun r => hnote (.read n r) rfl) (h.read n hρ)
  write data hρ := agree_noting (fun r => hnote (.write data r) rfl) (h.write data hρ)
  backlog hρ := h.backlog hρ

theorem AlikeInUse.noted {io : Wire S (List E × W)} {io' : Wire S' W'}
    {ρ : S × (List E × W) → S' × W' → Prop} (h : io.AlikeInUse io' ρ) (note : S → Call → E)
    (hnote : ∀ {s t v y} c, c.isClose = false → ρ (t, v) y → ρ (t, (v.1 ++ [note s c], v.2)) y) :
    (io.noted note).AlikeInUse io' ρ where
  toAlike := h.toAlike.noted note fun c hc => hnote c (Call.isClose_of_isTransfer hc)
  writeUrgent data hρ :=
    agree_noting (fun r => hnote (.writeUrgent data r) rfl) (h.writeUrgent data hρ)
  readUrgent n hρ := agree_noting (fun r => hnote (.readUrgent n r) rfl) (h.readUrgent n hρ)
  control request hρ :=
    agree_noting (fun r => hnote (.control request r) rfl) (h.control request hρ)

theorem Mirrors.noted {io : Wire S (List E × W)} {io' : Wire S' W'}
    {ρ : S × (List E × W) → S' × W' → Prop} (h : io.Mirrors io' ρ) (note : S → Call → E)
    (hnote : ∀ {s t v y} c, ρ (t, v) y → ρ (t, (v.1 ++ [note s c], v.2)) y) :
    (io.noted note).Mirrors io' ρ where
  toAlikeInUse := h.toAlikeInUse.noted note fun c _ => hnote c
  close hρ := agree_noting (fun r => hnote (.close r)) (h.close hρ)
  discard hρ := h.discard hρ

end Wire

/-- What stands in the record after a call is of the same kind as before. -/
def KeptBy (P : List E → Prop) (entry : E) : Prop := ∀ es, P es → P (es ++ [entry])

theorem Beside.append {P : List E → Prop} {entry : E} (hP : KeptBy P entry) {v : List E × W}
    {w : W} (h : Beside P v w) : Beside P (v.1 ++ [entry], v.2) w :=
  ⟨h.1, hP _ h.2⟩

theorem Wire.mirrors_watched (io : Wire S W) :
    io.watched.Mirrors io (SameState (Beside fun _ => True)) :=
  (io.mirrors_beside _).noted _ fun _ h => ⟨h.1, h.2.append fun _ h => h⟩

variable {P : List (Nat × Call) → Prop}

/-- Whatever reading and writing may leave in the record. -/
theorem alike_watchedStack (io : Wire T W) (hP : ∀ k c, c.isTransfer = true → KeptBy P (k, c))
    (n : Nat) : (watchedStack io n).Alike (stackWire io n) (SameState (Beside P)) := by
  induction n with
  | zero =>
    exact ((io.mirrors_beside P).toAlike.noted _
      fun c hc h => ⟨h.1, h.2.append (hP 0 c hc)⟩).guarded_same
  | succ n ih =>
    exact (ih.layer_same.noted _ fun c hc h => ⟨h.1, h.2.append (hP (n + 1) c hc)⟩).guarded_same

theorem mirrors_watchedStack (io : Wire T W) (hP : ∀ k c, KeptBy P (k, c)) (n : Nat) :
    (watchedStack io n).Mirrors (stackWire io n) (SameState (Beside P)) := by
  induction n with
  | zero =>
    exact ((io.mirrors_beside P).noted _ fun c h => ⟨h.1, h.2.append (hP 0 c)⟩).guarded_same
  | succ n ih =>
    exact (ih.layer_same.noted _ fun c h => ⟨h.1, h.2.append (hP (n + 1) c)⟩).guarded_same

end Wirebench

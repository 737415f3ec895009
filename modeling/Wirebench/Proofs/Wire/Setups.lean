import Wirebench.Proofs.Telnet.Stack
import Wirebench.Setup

namespace Wirebench.Setup

variable {T W : Type} {io : Wire T W} {I : (m : Nat) → StackState T m → W → Prop} {n now : Nat}
  {w : W}

/-- What holds of a stack in a world is not changed by negotiating on it, and holds with one more
layer once that is settled. -/
structure Invariant (io : Wire T W) (I : (m : Nat) → StackState T m → W → Prop) : Prop where
  write : ∀ {m s w} data, I m s w →
    I m ((stackWire io m).writeAll data s w).2.1 ((stackWire io m).writeAll data s w).2.2
  settle : ∀ {m w} {x : Telnet.Layer × StackState T m}, I m x.2 w →
    I m (Telnet.settle (stackWire io m) x w).2.1.2 (Telnet.settle (stackWire io m) x w).2.2
  addLayer : ∀ {m w} {x : Telnet.Layer × StackState T m}, x.1.isSettled → I m x.2 w →
    I (m + 1) (Endpoint.addLayer m x).state w

/-- How a setup of `n` layers comes along. -/
inductive Along (io : Wire T W) (I : (m : Nat) → StackState T m → W → Prop) (n : Nat) :
    Setup T × W → Prop
  | negotiating (g : Negotiation T) (w : W) (hstack : I g.layers g.state.2 w)
      (hlayers : g.layers + 1 + g.todo.length = n) : Along io I n (.negotiating g, w)
  | whole (e : Endpoint T) (w : W) (hstack : I e.layers e.state w) (hlayers : e.layers = n) :
      Along io I n (.ended (.ok e), w)
  | abandoned (e : Endpoint T) (reason : String) (w : W) (hstack : I e.layers e.state w) :
      Along io I n (abandon io e reason w)

theorem Along.wait {g : Negotiation T} (hg : I g.layers g.state.2 w)
    (hlayers : g.layers + 1 + g.todo.length = n) : Along io I n (Setup.wait io now g w) := by
  unfold Setup.wait
  split
  · exact .abandoned ⟨g.layers, g.state.2⟩ _ w hg
  · exact .negotiating g w hg hlayers

theorem Along.afterSettle (hI : Invariant io I) {g : Negotiation T}
    {next : Endpoint T → W → Setup T × W} (hg : I g.layers g.state.2 w)
    (hlayers : g.layers + 1 + g.todo.length = n)
    (hnext : ∀ (e : Endpoint T) w, I e.layers e.state w → e.layers + g.todo.length = n →
      Along io I n (next e w)) :
    Along io I n (Setup.afterSettle io now g next
      (Telnet.settle (stackWire io g.layers) g.state w)) := by
  have hstack := hI.settle hg
  cases hr : Telnet.settle (stackWire io g.layers) g.state w with
  | mk r rest =>
    obtain ⟨s, w'⟩ := rest
    rw [hr] at hstack
    cases r with
    | ok =>
      have hsettled : s.1.isSettled := Telnet.done_of_fillUntil hr
      exact hnext _ w' (hI.addLayer hsettled hstack) hlayers
    | error err => exact .abandoned ⟨g.layers, s.2⟩ _ w' hstack
    | waiting => exact .wait hstack hlayers
    | stalled => exact .wait hstack hlayers

theorem Along.start (hI : Invariant io I) (todo : List EndpointConfig) (e : Endpoint T)
    (he : I e.layers e.state w) (hlayers : e.layers + todo.length = n) :
    Along io I n (Setup.start io now todo e w) := by
  induction todo generalizing e w with
  | nil => exact .whole e w he hlayers
  | cons config todo ih =>
    have hstack := hI.write
      (Telnet.Negotiator.offers (Telnet.Negotiator.supported config.telnet)) he
    have hlayers : e.layers + 1 + todo.length = n := by
      rw [List.length_cons] at hlayers
      omega
    rw [Setup.start, Telnet.begin]
    cases hr : (stackWire io e.layers).writeAll
        (Telnet.Negotiator.offers (Telnet.Negotiator.supported config.telnet)) e.state w with
    | mk r rest =>
      obtain ⟨s, w'⟩ := rest
      rw [hr] at hstack
      cases r with
      | ok => exact .afterSettle hI hstack hlayers fun e _ he => ih e he
      | error err => exact .abandoned ⟨e.layers, s⟩ _ w' hstack
      | waiting => exact .wait hstack hlayers
      | stalled => exact .wait hstack hlayers

theorem Along.poll (hI : Invariant io I) {g : Negotiation T} (hg : I g.layers g.state.2 w)
    (hlayers : g.layers + 1 + g.todo.length = n) :
    Along io I n (Setup.poll io now (.negotiating g) w) := by
  rw [Setup.poll]
  split
  · exact .afterSettle hI hg hlayers fun e _ he hlayers => .start hI g.todo e he hlayers
  · exact .wait hg hlayers

/-- No more than so many layers are still to be settled, and a failure is one of a layer. -/
def Within (m : Nat) : Setup T → Prop
  | negotiating g => g.todo.length < m
  | ended (.ok _) => True
  | ended (.error e) => ∃ reason, e = .negotiation reason

theorem Within.succ {m : Nat} {s : Setup T} (h : s.Within m) : s.Within (m + 1) := by
  cases s with
  | negotiating g => exact Nat.lt_succ_of_lt h
  | ended r => cases r <;> exact h

theorem within_wait (g : Negotiation T) : (wait io now g w).1.Within (g.todo.length + 1) := by
  unfold wait
  split
  · exact ⟨_, rfl⟩
  · exact Nat.lt_succ_self _

theorem within_wait_of_deadline {g : Negotiation T} (hg : g.deadline ≤ now) (m : Nat) :
    (wait io now g w).1.Within m := by
  rw [wait, if_pos hg]
  exact ⟨_, rfl⟩

theorem within_start (todo : List EndpointConfig) (e : Endpoint T) :
    (start io now todo e w).1.Within todo.length := by
  induction todo generalizing e w with
  | nil => trivial
  | cons config todo ih =>
    rw [start, List.length_cons]
    obtain ⟨r, s, w₁⟩ := Telnet.begin (stackWire io e.layers) config e.state w
    cases r with
    | error err => exact ⟨_, rfl⟩
    | waiting => exact within_wait _
    | stalled => exact within_wait _
    | ok =>
      simp only
      obtain ⟨r, s', w₂⟩ := Telnet.settle (stackWire io e.layers) s w₁
      cases r with
      | ok => exact (ih _).succ
      | error err => exact ⟨_, rfl⟩
      | waiting => exact within_wait _
      | stalled => exact within_wait _

theorem within_poll {g : Negotiation T} (hg : g.deadline ≤ now) :
    ((negotiating g).poll io now w).1.Within g.todo.length := by
  rw [poll]
  split
  · obtain ⟨r, s, w₁⟩ := Telnet.settle (stackWire io g.layers) g.state w
    have hwait : (wait io now { g with state := s } w₁).1.Within g.todo.length :=
      within_wait_of_deadline (g := { g with state := s }) hg _
    cases r with
    | ok => exact within_start _ _
    | error err => exact ⟨_, rfl⟩
    | waiting => exact hwait
    | stalled => exact hwait
  · exact within_wait_of_deadline hg _

end Wirebench.Setup

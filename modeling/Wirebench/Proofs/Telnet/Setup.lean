import Wirebench.Proofs.Telnet.Stack
import Wirebench.Setup

namespace Wirebench

open Scripted (Side)
open Telnet

variable {T W : Type} {lines : Lines W} {side : Side} {sideOf : T → Side} {io : Wire T W} {m : Nat}

namespace Setup

def isGivenUp : Setup T → Bool
  | ended (.error _) => true
  | negotiating _ | ended (.ok _) => false

/-- The side and the layers of a setup, as long as all of it is open. -/
def view (sideOf : T → Side) : Setup T → Option (Side × List Layer)
  | negotiating n => (stackView sideOf n.layers n.state.2).map fun v => (v.1, n.state.1 :: v.2)
  | ended (.ok e) => stackView sideOf e.layers e.state
  | ended (.error _) => none

/-- The number of layers that are still to be put on. -/
def missing : Setup T → Nat
  | negotiating n => n.todo.length
  | ended _ => 0

end Setup

namespace Telnet

theorem stackView_length {n : Nat} {st : StackState T n} {ls : List Layer}
    (h : stackView sideOf n st = some (side, ls)) : ls.length = n := by
  induction n generalizing ls with
  | zero =>
    obtain ⟨t, -, -, rfl⟩ := transportView_eq_some h
    rfl
  | succ n ih =>
    obtain ⟨l, s, ls', -, hs, rfl⟩ := layerView_eq_some h
    rw [List.length_cons, ih hs]

theorem Says.lift {n : Nat} {bytes : List UInt8} {ms : List Message} (h : Says n bytes ms)
    (hn : Negotiations ms) (hle : n ≤ m) :
    ∃ ns, Says m bytes ns ∧ Negotiations ns := by
  rcases Nat.lt_or_eq_of_le hle with hlt | rfl
  · exact ⟨[], h.above hn.payload hlt, .nil⟩
  · exact ⟨ms, h, hn⟩

end Telnet

namespace Setup

/-- A setup has got to `x` from layers that had not yet handed anything out, unless it has been
given up. Its outermost layer is the last of `m + 1` and sends nothing but negotiations. -/
def Reaches (lines : Lines W) (sideOf : T → Side) (m : Nat) (side : Side) (ls : List Layer) (w : W)
    (x : Setup T × W) : Prop :=
  x.1.isGivenUp = false → ∃ ls' took put ms, x.1.view sideOf = some (side, ls') ∧
    x.1.missing + ls'.length = m + 1 ∧ lines.Moved side took put w x.2 ∧ Says m put ms ∧
      Negotiations ms ∧ ∀ taken, Follows ls taken [] → Follows ls' (taken ++ took) []

theorem Reaches.after {ls ls' : List Layer} {took put : List UInt8} {ms : List Message} {w w' : W}
    {x : Setup T × W} (hm : lines.Moved side took put w w') (hs : Says m put ms)
    (hn : Negotiations ms)
    (hf : ∀ taken, Follows ls taken [] → Follows ls' (taken ++ took) [])
    (h : Reaches lines sideOf m side ls' w' x) : Reaches lines sideOf m side ls w x := by
  intro hx
  obtain ⟨ls'', took', put', ms', hv, hsize, hm', hs', hn', hf'⟩ := h hx
  have hfollows (taken : List UInt8) (ht : Follows ls taken []) :
      Follows ls'' (taken ++ (took ++ took')) [] := by
    rw [← List.append_assoc]
    exact hf' _ (hf _ ht)
  exact ⟨ls'', _, _, _, hv, hsize, hm.trans hm', hs.append hs', hn.append hn', hfollows⟩

theorem Reaches.stay {s : Setup T} {ls : List Layer} {w : W}
    (hv : s.view sideOf = some (side, ls)) (hsize : s.missing + ls.length = m + 1)
    (hw : lines.intact w) : Reaches lines sideOf m side ls w (s, w) := by
  intro _
  have hfollows (taken : List UInt8) (ht : Follows ls taken []) : Follows ls (taken ++ []) [] := by
    rwa [List.append_nil]
  exact ⟨ls, [], [], [], hv, hsize, .refl side hw, .nil m, .nil, hfollows⟩

theorem Reaches.abandon (ls : List Layer) (w w' : W) (e : Endpoint T) (reason : String) :
    Reaches lines sideOf m side ls w (Setup.abandon io e reason w') := by
  intro hx
  cases hx

theorem Reaches.wait {n : Negotiation T} {now : Nat} {ls : List Layer} {w : W}
    (hv : (negotiating n).view sideOf = some (side, ls)) (hsize : n.todo.length + ls.length = m + 1)
    (hw : lines.intact w) : Reaches lines sideOf m side ls w (Setup.wait io now n w) := by
  unfold Setup.wait
  split
  · exact Reaches.abandon _ _ _ _ _
  · exact .stay hv hsize hw

theorem Reaches.afterSettle {n : Negotiation T} {now : Nat} {ls' : List Layer} {w' : W}
    {next : Endpoint T → W → Setup T × W} {r : Outcome Unit} {l : Layer}
    {s : StackState T n.layers} (hv : stackView sideOf n.layers s = some (side, ls'))
    (hsize : n.todo.length + (l :: ls').length = m + 1) (hw : lines.intact w')
    (hnext : ∀ e : Endpoint T, e.layers + n.todo.length = m + 1 →
      stackView sideOf e.layers e.state = some (side, l :: ls') →
        Reaches lines sideOf m side (l :: ls') w' (next e w')) :
    Reaches lines sideOf m side (l :: ls') w'
      (Setup.afterSettle io now n next (r, (l, s), w')) := by
  have hv' : (negotiating { n with state := (l, s) }).view sideOf = some (side, l :: ls') := by
    simp only [view, hv, Option.map_some]
  have hl := stackView_length hv
  cases r with
  | ok =>
    have hlayers : n.layers + 1 + n.todo.length = m + 1 := by
      rw [List.length_cons, hl] at hsize
      omega
    exact hnext (.addLayer n.layers (l, s)) hlayers (layerView_open hv)
  | error e => exact Reaches.abandon _ _ _ _ _
  | waiting => exact .wait hv' hsize hw
  | stalled => exact .wait hv' hsize hw

theorem Reaches.turn {n : Nat} {l l' : Layer} {s s' : StackState T n} {ls : List Layer} {w w' : W}
    {x : Setup T × W} (ht : Turn lines n (stackView sideOf n) [] ((l, s), w) ((l', s'), w'))
    (hv : stackView sideOf n s = some (side, ls)) (hw : lines.intact w) (hle : n ≤ m)
    (h : ∀ ls', stackView sideOf n s' = some (side, ls') → lines.intact w' →
      Reaches lines sideOf m side (l' :: ls') w' x) :
    Reaches lines sideOf m side (l :: ls) w x := by
  obtain ⟨ls', took, put, ms, hv', hm, hs, hn, hp⟩ := ht side ls hv hw
  obtain ⟨ns, hs, hn⟩ := hs.lift hn hle
  apply (h ls' hv' hm.intact).after hm hs hn
  intro taken hf
  simpa only [List.append_nil] using hp _ _ hf

theorem Reaches.start (hio : Lossless lines sideOf io) (now : Nat) (todo : List EndpointConfig)
    {e : Endpoint T} {ls : List Layer} {w : W} (hsize : e.layers + todo.length = m + 1)
    (hv : stackView sideOf e.layers e.state = some (side, ls)) (hw : lines.intact w) :
    Reaches lines sideOf m side ls w (Setup.start io now todo e w) := by
  induction todo generalizing e ls w with
  | nil =>
    have hsize' : 0 + ls.length = m + 1 := by
      rw [stackView_length hv, Nat.zero_add]
      exact hsize
    exact .stay (s := .ended (.ok e)) hv hsize' hw
  | cons config todo ih =>
    rw [List.length_cons] at hsize
    have hle : e.layers ≤ m := by omega
    have hc := hio.stack e.layers
    -- The offers go out first; the new layer has taken in nothing by then.
    obtain ⟨s, w₁, hwrite, hv₁, hm₁⟩ :=
      hc.writeAll hv hw (Negotiator.offers (Negotiator.supported config.telnet))
    obtain ⟨ms, hs₁, hn₁⟩ : ∃ ms, Says m (wrap e.layers (Negotiator.offers
        (Negotiator.supported config.telnet))) ms ∧ Negotiations ms := by
      rw [← Negotiator.encode_offerMessages]
      exact (Says.wrap _ _).lift (Negotiator.offerMessages_negotiations _) hle
    have hnew (taken : List UInt8) (hf : Follows ls taken []) :
        Follows (Layer.new config :: ls) (taken ++ []) [] := by
      rw [List.append_nil]
      exact ⟨[], hf, .new config⟩
    apply Reaches.after hm₁ hs₁ hn₁ hnew
    cases hset : settle (stackWire io e.layers) (Layer.new config, s) w₁ with
    | mk r rest =>
      obtain ⟨⟨l, s'⟩, w₂⟩ := rest
      simp only [Setup.start, begin, hwrite, hset]
      apply Reaches.turn (hc.fillUntil hset) hv₁ hm₁.intact hle
      intro ls' hv₂ hw₂
      have hsize' : todo.length + (l :: ls').length = m + 1 := by
        rw [List.length_cons, stackView_length hv₂]
        omega
      exact .afterSettle hv₂ hsize' hw₂ fun e' he' hv' => ih he' hv' hw₂

theorem Reaches.poll (hio : Lossless lines sideOf io) (now : Nat) {s : Setup T} {ls : List Layer}
    {w : W} (hsize : s.missing + ls.length = m + 1) (hv : s.view sideOf = some (side, ls))
    (hw : lines.intact w) : Reaches lines sideOf m side ls w (s.poll io now w) := by
  cases s with
  | ended r => exact .stay hv hsize hw
  | negotiating n =>
    simp only [Setup.poll]
    by_cases ho : n.offered = true
    · rw [if_pos ho]
      obtain ⟨layers, ⟨l, st⟩, config, deadline, offered, todo⟩ := n
      simp only [view, Option.map_eq_some_iff, Prod.mk.injEq] at hv
      obtain ⟨⟨p, ls⟩, hv, rfl, rfl⟩ := hv
      have hlen := stackView_length hv
      simp only [missing, List.length_cons] at hsize
      cases hset : settle (stackWire io layers) (l, st) w with
      | mk r rest =>
        obtain ⟨⟨l', st'⟩, w'⟩ := rest
        apply Reaches.turn ((hio.stack layers).fillUntil hset) hv hw (by omega)
        intro ls' hv' hw'
        have hsize' : todo.length + (l' :: ls').length = m + 1 := by
          rw [List.length_cons, stackView_length hv']
          omega
        exact .afterSettle hv' hsize' hw' fun e he hv'' => .start hio now todo he hv'' hw'
    · rw [if_neg ho]
      exact .wait hv hsize hw

end Setup

end Wirebench

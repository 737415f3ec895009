import Mathlib.Data.List.Destutter
import Wirebench.Proofs.Telnet.Agreement

namespace Wirebench.Telnet

/-- What a word from the other side is about: what this side does, or what the other side does. -/
inductive Direction
  | own
  | peer
  deriving DecidableEq, Repr

namespace Direction

/-- The verb by which a side offers that a direction be used. -/
def offer : Direction → Verb
  | own => .willUse
  | peer => .doUse

/-- The verb by which the other side agrees to that. -/
def consent : Direction → Verb
  | own => .doUse
  | peer => .willUse

def refusal : Direction → Verb
  | own => .dontUse
  | peer => .wontUse

end Direction

namespace Verb

/-- The direction that the other side speaks of. -/
def direction : Verb → Direction
  | doUse | dontUse => .own
  | willUse | wontUse => .peer

def isConsent : Verb → Bool
  | doUse | willUse => true
  | dontUse | wontUse => false

/-- The verb by which the other side's verb is acknowledged. -/
def answer : Verb → Verb
  | doUse => willUse
  | dontUse => wontUse
  | willUse => doUse
  | wontUse => dontUse

theorem direction_eq_iff {v : Verb} {d : Direction} :
    v.direction = d ↔ v = d.consent ∨ v = d.refusal := by
  cases v <;> cases d <;> decide

theorem answer_answer (v : Verb) : v.answer.answer = v := by
  cases v <;> rfl

end Verb

namespace Mode

/-- The mode of a direction of which a side has been told this last. -/
def after : Option Verb → Mode
  | none => offered
  | some v => if v.isConsent then on else off

def hear (m : Mode) (v : Verb) : Mode × Bool := if v.isConsent then m.accept else m.refuse

/-- A change is to be answered, if it is not the answer to an offer. -/
theorem hear_after {last : Option Verb} {v : Verb} (h : ∀ u ∈ last, u.direction = v.direction) :
    (after last).hear v = (after (some v), decide (last ≠ none ∧ last ≠ some v)) := by
  cases last with
  | none => cases v <;> rfl
  | some u =>
    have hu := h u rfl
    cases u <;> cases v <;> cases hu <;> rfl

theorem after_eq_offered {last : Option Verb} : after last = offered ↔ last = none := by
  cases last with
  | none => exact iff_of_true rfl rfl
  | some v => cases v <;> exact iff_of_false nofun nofun

theorem after_eq_on {last : Option Verb} {d : Direction} (h : ∀ u ∈ last, u.direction = d) :
    after last = on ↔ last = some d.consent := by
  cases last with
  | none => exact iff_of_false nofun nofun
  | some v =>
    obtain rfl := h v rfl
    cases v <;> decide

end Mode

namespace OptionState

def mode (o : OptionState) : Direction → Mode
  | .own => o.own
  | .peer => o.peer

def withMode (o : OptionState) (m : Mode) : Direction → OptionState
  | .own => { o with own := m }
  | .peer => { o with peer := m }

end OptionState

theorem Negotiator.handle_of_find? {n : Negotiator} {v : Verb} {code : UInt8} {o : OptionState}
    (h : n.find? code = some o) :
    n.handle v code = (n.update (o.withMode ((o.mode v.direction).hear v).1 v.direction),
      if ((o.mode v.direction).hear v).2 then some (negotiation v.answer code) else none) := by
  rw [handle.eq_def, h]
  cases v <;> rfl

/-- The verbs of the words about a direction of an option, in their order. -/
def verbsAbout (d : Direction) (code : UInt8) (ws : List Word) : List Verb :=
  (ws.filter fun w => w.code = code ∧ w.verb.direction = d).map Word.verb

theorem verbsAbout_append (d : Direction) (code : UInt8) (ws vs : List Word) :
    verbsAbout d code (ws ++ vs) = verbsAbout d code ws ++ verbsAbout d code vs := by
  rw [verbsAbout, List.filter_append, List.map_append]
  rfl

theorem verbsAbout_cons (d : Direction) (code : UInt8) (w : Word) (ws : List Word) :
    verbsAbout d code (w :: ws) =
      if w.code = code ∧ w.verb.direction = d then w.verb :: verbsAbout d code ws
      else verbsAbout d code ws := by
  simp only [verbsAbout, List.filter_cons, decide_eq_true_eq]
  split <;> rfl

theorem verbsAbout_concat_self (w : Word) (ws : List Word) :
    verbsAbout w.verb.direction w.code (ws ++ [w]) =
      verbsAbout w.verb.direction w.code ws ++ [w.verb] := by
  rw [verbsAbout_append, verbsAbout_cons, if_pos ⟨rfl, rfl⟩]
  rfl

theorem verbsAbout_concat_of_ne {d : Direction} {code : UInt8} {w : Word}
    (h : ¬(w.code = code ∧ w.verb.direction = d)) (ws : List Word) :
    verbsAbout d code (ws ++ [w]) = verbsAbout d code ws := by
  rw [verbsAbout_append, verbsAbout_cons, if_neg h]
  exact List.append_nil _

theorem mem_verbsAbout {d : Direction} {code : UInt8} {ws : List Word} {v : Verb} :
    v ∈ verbsAbout d code ws ↔ v.direction = d ∧ ⟨v, code⟩ ∈ ws := by
  simp only [verbsAbout, List.mem_map, List.mem_filter, decide_eq_true_eq]
  constructor
  · rintro ⟨w, ⟨hw, rfl, rfl⟩, rfl⟩
    exact ⟨rfl, hw⟩
  · rintro ⟨hd, hw⟩
    exact ⟨_, ⟨hw, rfl, hd⟩, rfl⟩

theorem direction_of_getLast? {d : Direction} {code : UInt8} {ws : List Word} {v : Verb}
    (h : v ∈ (verbsAbout d code ws).getLast?) : v.direction = d :=
  (mem_verbsAbout.1 (List.mem_of_mem_getLast? h)).1

theorem verbsAbout_ne_nil {d : Direction} {code : UInt8} {ws : List Word} :
    verbsAbout d code ws ≠ [] ↔ ⟨d.consent, code⟩ ∈ ws ∨ ⟨d.refusal, code⟩ ∈ ws := by
  constructor
  · intro h
    obtain ⟨v, hv⟩ := List.exists_mem_of_ne_nil _ h
    obtain ⟨hdir, hmem⟩ := mem_verbsAbout.1 hv
    rcases Verb.direction_eq_iff.1 hdir with rfl | rfl
    · exact .inl hmem
    · exact .inr hmem
  · rintro (h | h)
    · exact List.ne_nil_of_mem (mem_verbsAbout.2 ⟨Verb.direction_eq_iff.2 (.inl rfl), h⟩)
    · exact List.ne_nil_of_mem (mem_verbsAbout.2 ⟨Verb.direction_eq_iff.2 (.inr rfl), h⟩)

namespace OptionState

def latest (ws : List Word) (code : UInt8) : OptionState :=
  ⟨code, .after (verbsAbout .own code ws).getLast?, .after (verbsAbout .peer code ws).getLast?⟩

variable {ws : List Word} {code : UInt8}

theorem mode_latest (d : Direction) :
    (latest ws code).mode d = .after (verbsAbout d code ws).getLast? := by
  cases d <;> rfl

theorem latest_of_ne {w : Word} (h : w.code ≠ code) : latest (ws ++ [w]) code = latest ws code := by
  have hne (d : Direction) : ¬(w.code = code ∧ w.verb.direction = d) := fun hw => h hw.1
  rw [latest, verbsAbout_concat_of_ne (hne _), verbsAbout_concat_of_ne (hne _), latest]

theorem withMode_latest (w : Word) (ws : List Word) :
    (latest ws w.code).withMode (.after (some w.verb)) w.verb.direction =
      latest (ws ++ [w]) w.code := by
  have hself := congrArg List.getLast? (verbsAbout_concat_self w ws)
  rw [List.getLast?_concat] at hself
  -- The other direction is left as it was.
  cases hd : w.verb.direction with
  | own =>
    have hne : ¬(w.code = w.code ∧ w.verb.direction = .peer) := by simp [hd]
    rw [hd] at hself
    rw [latest, latest, hself, verbsAbout_concat_of_ne hne, withMode]
  | peer =>
    have hne : ¬(w.code = w.code ∧ w.verb.direction = .own) := by simp [hd]
    rw [hd] at hself
    rw [latest, latest, hself, verbsAbout_concat_of_ne hne, withMode]

end OptionState

def Word.acknowledgement (w : Word) : List UInt8 := negotiation w.verb.answer w.code

/-- The reply of a side with the given options that has been told some words and is now told
another one. -/
def reply? (codes : List UInt8) (ws : List Word) (w : Word) : Option (List UInt8) :=
  if w.code ∈ codes then
    let last := (verbsAbout w.verb.direction w.code ws).getLast?
    if last ≠ none ∧ last ≠ some w.verb then some w.acknowledgement else none
  else (refusal? codes w).map Word.bytes

namespace Negotiator

/-- A side with the given options that has made its offers and has been told some words. -/
def latest (codes : List UInt8) (ws : List Word) : Negotiator := ⟨codes.map (.latest ws)⟩

theorem find?_latest (codes : List UInt8) (ws : List Word) (code : UInt8) :
    (latest codes ws).find? code = if code ∈ codes then some (.latest ws code) else none :=
  find?_map (fun _ => rfl) codes code

theorem update_latest (codes : List UInt8) (ws : List Word) (w : Word) :
    (latest codes ws).update (.latest (ws ++ [w]) w.code) = latest codes (ws ++ [w]) :=
  update_map (fun _ => rfl) (fun _ => rfl)
    (fun _ hc => (OptionState.latest_of_ne (Ne.symm hc)).symm) codes

theorem latest_of_notMem {codes : List UInt8} {w : Word} (h : w.code ∉ codes) (ws : List Word) :
    latest codes (ws ++ [w]) = latest codes ws := by
  rw [latest, latest]
  congr 1
  apply List.map_congr_left
  intro code hcode
  apply OptionState.latest_of_ne
  rintro rfl
  exact h hcode

theorem handle_latest (codes : List UInt8) (ws : List Word) (w : Word) :
    (latest codes ws).handle w.verb w.code = (latest codes (ws ++ [w]), reply? codes ws w) := by
  by_cases hc : w.code ∈ codes
  · have hfind := find?_latest codes ws w.code
    have hlast : ∀ u ∈ (verbsAbout w.verb.direction w.code ws).getLast?,
        u.direction = w.verb.direction := fun _ hu => direction_of_getLast? hu
    rw [if_pos hc] at hfind
    rw [handle_of_find? hfind, OptionState.mode_latest, Mode.hear_after hlast,
      OptionState.withMode_latest, update_latest, reply?, if_pos hc]
    simp only [decide_eq_true_eq]
    rfl
  · rw [latest_of_notMem hc, reply?, if_neg hc, handle.eq_def, find?_latest, if_neg hc, refusal?,
      if_neg hc]
    obtain ⟨v, code⟩ := w
    cases v <;> rfl

end Negotiator

/-- The word that a byte for the verb and a byte for the option make up, if there is such a verb. -/
def Word.ofBytes? (x : UInt8 × UInt8) : Option Word := (Verb.ofByte? x.1).map (⟨·, x.2⟩)

def wordsOf (heard : List (UInt8 × UInt8)) : List Word := heard.filterMap Word.ofBytes?

namespace Negotiator

/-- Take in a command by its two bytes. A verb that there is not says nothing. -/
def hear (n : Negotiator) (x : UInt8 × UInt8) : Negotiator × Option (List UInt8) :=
  match Word.ofBytes? x with
  | some w => n.handle w.verb w.code
  | none => (n, none)

def hearAll (n : Negotiator) (heard : List (UInt8 × UInt8)) : Negotiator :=
  heard.foldl (fun n x => (n.hear x).1) n

/-- A side with some options against a peer from which it has heard all this. -/
def against (codes : List UInt8) (heard : List (UInt8 × UInt8)) : Negotiator :=
  (offering codes).hearAll heard

/-- The replies to the words about a direction of an option, in their order. -/
def replies (n : Negotiator) (d : Direction) (code : UInt8) :
    List (UInt8 × UInt8) → List (List UInt8)
  | [] => []
  | x :: heard =>
    (if (Word.ofBytes? x).any fun w => w.code = code ∧ w.verb.direction = d
      then (n.hear x).2.toList else []) ++ (n.hear x).1.replies d code heard

/-- The offers that have not been answered, each as the word by which it was made. -/
def awaiting (n : Negotiator) : List Word :=
  n.options.flatMap fun o =>
    ([.own, .peer].filter fun d => o.mode d = .offered).map fun d => ⟨d.offer, o.code⟩

/-- The options that are in force in a direction. -/
def enabled (n : Negotiator) : Direction → List UInt8
  | .own => n.own
  | .peer => n.peer

variable {codes : List UInt8} {ws : List Word} {heard : List (UInt8 × UInt8)} {x : UInt8 × UInt8}
  {code : UInt8} {n : Negotiator} {w : Word}

theorem wordsOf_cons (x : UInt8 × UInt8) (heard : List (UInt8 × UInt8)) :
    wordsOf (x :: heard) = (Word.ofBytes? x).toList ++ wordsOf heard := by
  rw [wordsOf]
  cases hw : Word.ofBytes? x with
  | none => exact List.filterMap_cons_none hw
  | some w => exact List.filterMap_cons_some hw

theorem hear_latest (codes : List UInt8) (ws : List Word) (x : UInt8 × UInt8) :
    (latest codes ws).hear x =
      (latest codes (ws ++ (Word.ofBytes? x).toList),
        (Word.ofBytes? x).bind (reply? codes ws)) := by
  rw [hear]
  cases Word.ofBytes? x with
  | none =>
    rw [Option.toList_none, List.append_nil]
    rfl
  | some w => exact handle_latest codes ws w

/-- A side knows what it has been told, whatever it has been told. -/
theorem hearAll_latest (codes : List UInt8) (ws : List Word) (heard : List (UInt8 × UInt8)) :
    (latest codes ws).hearAll heard = latest codes (ws ++ wordsOf heard) := by
  induction heard generalizing ws with
  | nil => exact congrArg _ (List.append_nil ws).symm
  | cons x heard ih =>
    rw [hearAll, List.foldl_cons, hear_latest, ← hearAll, ih, List.append_assoc, wordsOf_cons]

theorem hearAll_offering (codes : List UInt8) (heard : List (UInt8 × UInt8)) :
    (offering codes).hearAll heard = latest codes (wordsOf heard) := hearAll_latest codes [] heard

theorem destutter'_eq_cons (v : Verb) (vs : List Verb) :
    vs.destutter' (· ≠ ·) v = v :: (vs.destutter' (· ≠ ·) v).tail := by
  induction vs with
  | nil => rfl
  | cons u vs ih =>
    rw [List.destutter'_cons]
    split
    · rfl
    · exact ih

/-- Without repetitions, a verb is left if it is not the first one and not the one before it. -/
theorem tail_destutter (last : Option Verb) (v : Verb) (vs : List Verb) :
    ((last.toList ++ v :: vs).destutter (· ≠ ·)).tail =
      (if last ≠ none ∧ last ≠ some v then [v] else []) ++
        ((v :: vs).destutter (· ≠ ·)).tail := by
  cases last with
  | none => rfl
  | some u =>
    rw [Option.toList_some, List.singleton_append, List.destutter_cons_cons]
    by_cases huv : u = v
    · subst huv
      simp only [ne_eq, not_true_eq_false, ↓reduceIte, and_false, List.nil_append]
      rfl
    · rw [if_pos huv, if_pos ⟨nofun, fun h => huv (Option.some.inj h)⟩, List.tail_cons,
        List.singleton_append]
      exact destutter'_eq_cons v vs

/-- A side acknowledges what it is told about a direction as often as that changes. -/
theorem replies_latest (hc : code ∈ codes) (d : Direction) (ws : List Word)
    (heard : List (UInt8 × UInt8)) :
    (latest codes ws).replies d code heard =
      (((verbsAbout d code ws).getLast?.toList ++ verbsAbout d code (wordsOf heard)).destutter
        (· ≠ ·)).tail.map fun v => negotiation v.answer code := by
  induction heard generalizing ws with
  | nil => cases (verbsAbout d code ws).getLast? <;> rfl
  | cons x heard ih =>
    rw [replies, hear_latest, ih, wordsOf_cons]
    cases hw : Word.ofBytes? x with
    | none => simp only [Option.any_none, Bool.false_eq_true, ↓reduceIte, Option.toList_none,
        List.nil_append, List.append_nil]
    | some w =>
      rw [Option.toList_some, List.singleton_append, verbsAbout_cons]
      by_cases habout : w.code = code ∧ w.verb.direction = d
      · rw [if_pos habout]
        obtain ⟨rfl, rfl⟩ := habout
        rw [verbsAbout_concat_self, List.getLast?_concat, tail_destutter, List.map_append]
        have hreply : (reply? codes ws w).toList =
            (if (verbsAbout w.verb.direction w.code ws).getLast? ≠ none ∧
                (verbsAbout w.verb.direction w.code ws).getLast? ≠ some w.verb
              then [w.verb] else []).map fun v => negotiation v.answer w.code := by
          rw [reply?, if_pos hc]
          dsimp only
          split <;> rfl
        simp only [Option.any_some, and_self, decide_true, ↓reduceIte, Option.bind_some, hreply]
        rfl
      · rw [verbsAbout_concat_of_ne habout, if_neg habout]
        simp only [Option.any_some, habout, decide_false, Bool.false_eq_true, ↓reduceIte,
          List.nil_append]

theorem mem_awaiting :
    w ∈ n.awaiting ↔ ∃ o ∈ n.options, ∃ d, o.mode d = .offered ∧ ⟨d.offer, o.code⟩ = w := by
  have hall (d : Direction) : d ∈ [Direction.own, .peer] := by cases d <;> decide
  simp only [awaiting, List.mem_flatMap, List.mem_map, List.mem_filter, hall, true_and,
    decide_eq_true_eq]

theorem mem_enabled {d : Direction} :
    code ∈ n.enabled d ↔ ∃ o ∈ n.options, o.mode d = .on ∧ o.code = code := by
  cases d <;>
    simp only [enabled, own, peer, OptionState.mode, List.mem_map, List.mem_filter,
      decide_eq_true_eq, and_assoc]

theorem mode_ne_offered_iff {o : OptionState} :
    (∀ d, o.mode d ≠ .offered) ↔ o.own ≠ .offered ∧ o.peer ≠ .offered := by
  constructor
  · exact fun h => ⟨h .own, h .peer⟩
  · rintro ⟨hown, hpeer⟩ d
    cases d with
    | own => exact hown
    | peer => exact hpeer

theorem isSettled_iff_awaiting : n.isSettled ↔ n.awaiting = [] := by
  simp only [isSettled_iff, ← mode_ne_offered_iff, List.eq_nil_iff_forall_not_mem, mem_awaiting,
    not_exists, not_and]
  constructor
  · intro h w o ho d hm
    exact (h o ho d hm).elim
  · intro h o ho d hm
    exact h _ o ho d hm rfl

theorem mem_awaiting_latest :
    w ∈ (latest codes ws).awaiting ↔
      ∃ code ∈ codes, ∃ d, verbsAbout d code ws = [] ∧ ⟨d.offer, code⟩ = w := by
  simp only [mem_awaiting, latest, List.mem_map, exists_exists_and_eq_and,
    OptionState.mode_latest, Mode.after_eq_offered, List.getLast?_eq_none_iff]
  rfl

theorem mem_enabled_latest {d : Direction} :
    code ∈ (latest codes ws).enabled d ↔
      code ∈ codes ∧ (verbsAbout d code ws).getLast? = some d.consent := by
  simp only [mem_enabled, latest, List.mem_map, exists_exists_and_eq_and,
    OptionState.mode_latest]
  constructor
  · rintro ⟨c, hc, hm, rfl⟩
    exact ⟨hc, (Mode.after_eq_on fun _ hu => direction_of_getLast? hu).1 hm⟩
  · rintro ⟨hc, hm⟩
    exact ⟨code, hc, (Mode.after_eq_on fun _ hu => direction_of_getLast? hu).2 hm, rfl⟩

theorem isSettled_latest : (latest codes ws).isSettled ↔ ∀ code ∈ codes, ∀ d : Direction,
    ⟨d.consent, code⟩ ∈ ws ∨ ⟨d.refusal, code⟩ ∈ ws := by
  rw [isSettled_iff_awaiting, List.eq_nil_iff_forall_not_mem]
  simp only [mem_awaiting_latest, ← verbsAbout_ne_nil]
  constructor
  · intro h code hc d hnil
    exact h _ ⟨code, hc, d, hnil, rfl⟩
  · rintro h w ⟨code, hc, d, hnil, -⟩
    exact h code hc d hnil

theorem isChain_replies (hc : code ∈ codes) (d : Direction) (ws : List Word)
    (heard : List (UInt8 × UInt8)) : ((latest codes ws).replies d code heard).IsChain (· ≠ ·) := by
  rw [replies_latest hc, List.isChain_map]
  apply (List.IsChain.tail (List.isChain_destutter _ _)).imp
  intro u v huv heq
  have hbyte : u.answer.byte = v.answer.byte := by simpa [negotiation] using heq
  have hanswer := congrArg Verb.ofByte? hbyte
  rw [Verb.ofByte?_byte, Verb.ofByte?_byte] at hanswer
  exact huv (Function.LeftInverse.injective Verb.answer_answer (Option.some.inj hanswer))

end Negotiator

end Wirebench.Telnet

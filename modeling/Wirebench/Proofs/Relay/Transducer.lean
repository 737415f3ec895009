import Wirebench.Relay.Escape

namespace Wirebench.Relay

/-- An effect on the far side, with the answer to it. -/
inductive Effect
  | byte (b : UInt8)
  | breakSignal (answer : Outcome Unit)
  | command (c : UInt8) (answer : Outcome Bool)
  | sequence (bytes : List UInt8) (answer : Outcome Unit)
  deriving DecidableEq, Repr

/-- The answers that are given after some effects. -/
structure Answers where
  breakSignal : List Effect → Outcome Unit
  command : List Effect → UInt8 → Outcome Bool
  sequence : List Effect → List UInt8 → Outcome Unit

/-- An effect after some others has the answer that is given to it. -/
def Answers.Give (answers : Answers) (before : List Effect) : Effect → Prop
  | .byte _ => True
  | .breakSignal r => answers.breakSignal before = r
  | .command c r => answers.command before c = r
  | .sequence bytes r => answers.sequence before bytes = r

def Answers.Agree (answers : Answers) (effects : List Effect) : Prop :=
  ∀ before x after, effects = before ++ x :: after → answers.Give before x

/-- Where the processing stands, and what it has done. -/
structure Transcript where
  state : EscapeState
  effects : List Effect
  deriving DecidableEq, Repr

namespace Transcript

def become (state : EscapeState) (t : Transcript) : Transcript := { t with state }

def add (x : Effect) (t : Transcript) : Transcript := { t with effects := t.effects ++ [x] }

end Transcript

def transduceCommand (answers : Answers) (hasHandler : Bool) (c : UInt8) (t : Transcript) :
    Outcome (Option Exit) × Transcript :=
  if c = quitCommand then (.ok (some .quit), t)
  else if c = breakCommand then
    let r := answers.breakSignal t.effects
    (r.map fun _ => none, t.add (.breakSignal r))
  else if hasHandler then
    let r := answers.command t.effects c
    let t := t.add (.command c r)
    (r.map fun _ => none, if r = .ok true then t.become (.collecting []) else t)
  else (.ok none, t)

def transduceSequence (answers : Answers) (hasHandler : Bool) (sequence : List UInt8)
    (t : Transcript) : Outcome (Option Exit) × Transcript :=
  if hasHandler then
    let r := answers.sequence t.effects sequence
    (r.map fun _ => none, t.add (.sequence sequence r))
  else (.ok none, t)

/-- Process one byte. Without an escape byte all of them are forwarded. -/
def transduceByte (answers : Answers) (escape : Option UInt8) (hasHandler : Bool) (c : UInt8)
    (t : Transcript) : Outcome (Option Exit) × Transcript :=
  match escape, t.state with
  | none, _ => (.ok none, t.add (.byte c))
  | some escape, .normal =>
    (.ok none, if c = escape then t.become .escaped else t.add (.byte c))
  | some escape, .escaped =>
    if c = escape then (.ok none, (t.become .normal).add (.byte escape))
    else transduceCommand answers hasHandler c (t.become .normal)
  | some _, .collecting sequence =>
    if isLineEnd c then transduceSequence answers hasHandler sequence (t.become .normal)
    else (.ok none, t.become (.collecting (sequence ++ [c])))

/-- Process bytes until one of them stops the relay. -/
def transduce (answers : Answers) (escape : Option UInt8) (hasHandler : Bool) :
    List UInt8 → Transcript → Outcome (Option Exit) × Transcript
  | [], t => (.ok none, t)
  | c :: cs, t =>
    match transduceByte answers escape hasHandler c t with
    | (.ok none, t) => transduce answers escape hasHandler cs t
    | r => r

def doubled (escape : UInt8) (data : List UInt8) : List UInt8 :=
  data.flatMap fun b => if b = escape then [escape, escape] else [b]

variable {answers : Answers} {escape : Option UInt8} {hasHandler : Bool} {c : UInt8}
variable {t : Transcript}

theorem transduce_cons (cs : List UInt8)
    (h : (transduceByte answers escape hasHandler c t).1 = .ok none) :
    transduce answers escape hasHandler (c :: cs) t =
      transduce answers escape hasHandler cs (transduceByte answers escape hasHandler c t).2 := by
  rw [transduce]
  cases hc : transduceByte answers escape hasHandler c t with
  | mk y t' =>
    rw [hc] at h
    cases h
    rfl

theorem transduce_cons_of_stop (cs : List UInt8)
    (h : (transduceByte answers escape hasHandler c t).1 ≠ .ok none) :
    transduce answers escape hasHandler (c :: cs) t =
      transduceByte answers escape hasHandler c t := by
  rw [transduce]
  split
  · next heq => exact (h (congrArg Prod.fst heq)).elim
  · rfl

theorem transduce_append (xs ys : List UInt8)
    (h : (transduce answers escape hasHandler xs t).1 = .ok none) :
    transduce answers escape hasHandler (xs ++ ys) t =
      transduce answers escape hasHandler ys (transduce answers escape hasHandler xs t).2 := by
  induction xs generalizing t with
  | nil => rfl
  | cons c cs ih =>
    by_cases hc : (transduceByte answers escape hasHandler c t).1 = .ok none
    · rw [transduce_cons cs hc] at h ⊢
      rw [List.cons_append, transduce_cons _ hc]
      exact ih h
    · rw [transduce_cons_of_stop cs hc] at h
      exact (hc h).elim

/-- Nothing that comes after the relay has stopped has an effect. -/
theorem transduce_append_of_stop (xs ys : List UInt8)
    (h : (transduce answers escape hasHandler xs t).1 ≠ .ok none) :
    transduce answers escape hasHandler (xs ++ ys) t =
      transduce answers escape hasHandler xs t := by
  induction xs generalizing t with
  | nil => exact (h rfl).elim
  | cons c cs ih =>
    rw [List.cons_append]
    by_cases hc : (transduceByte answers escape hasHandler c t).1 = .ok none
    · rw [transduce_cons cs hc] at h ⊢
      rw [transduce_cons _ hc]
      exact ih h
    · rw [transduce_cons_of_stop _ hc, transduce_cons_of_stop _ hc]

theorem effects_transduceCommand (c : UInt8) (t : Transcript) :
    t.effects <+: (transduceCommand answers hasHandler c t).2.effects := by
  have hadd (x : Effect) : t.effects <+: t.effects ++ [x] := List.prefix_append _ _
  have hrefl : t.effects <+: t.effects := List.prefix_refl _
  simp only [transduceCommand]
  split
  · exact hrefl
  · split
    · exact hadd _
    · split
      · split
        · exact hadd _
        · exact hadd _
      · exact hrefl

theorem effects_transduceSequence (sequence : List UInt8) (t : Transcript) :
    t.effects <+: (transduceSequence answers hasHandler sequence t).2.effects := by
  simp only [transduceSequence]
  split
  · exact List.prefix_append _ _
  · exact List.prefix_refl _

theorem effects_transduceByte (c : UInt8) (t : Transcript) :
    t.effects <+: (transduceByte answers escape hasHandler c t).2.effects := by
  have hadd (x : Effect) : t.effects <+: t.effects ++ [x] := List.prefix_append _ _
  have hrefl : t.effects <+: t.effects := List.prefix_refl _
  obtain ⟨state, effects⟩ := t
  cases escape with
  | none => exact hadd _
  | some escape =>
    cases state with
    | normal =>
      simp only [transduceByte]
      split
      · exact hrefl
      · exact hadd _
    | escaped =>
      simp only [transduceByte]
      split
      · exact hadd _
      · exact effects_transduceCommand c (.become .normal ⟨.escaped, effects⟩)
    | collecting sequence =>
      simp only [transduceByte]
      split
      · exact effects_transduceSequence sequence (.become .normal ⟨.collecting sequence, effects⟩)
      · exact hrefl

theorem effects_transduce (cs : List UInt8) (t : Transcript) :
    t.effects <+: (transduce answers escape hasHandler cs t).2.effects := by
  induction cs generalizing t with
  | nil => exact List.prefix_refl _
  | cons c cs ih =>
    have hbyte : t.effects <+: (transduceByte answers escape hasHandler c t).2.effects :=
      effects_transduceByte c t
    by_cases hc : (transduceByte answers escape hasHandler c t).1 = .ok none
    · rw [transduce_cons cs hc]
      exact hbyte.trans (ih _)
    · rw [transduce_cons_of_stop cs hc]
      exact hbyte

theorem transduce_none (cs : List UInt8) (t : Transcript) :
    transduce answers none hasHandler cs t =
      (.ok none, { t with effects := t.effects ++ cs.map .byte }) := by
  induction cs generalizing t with
  | nil =>
    rw [List.map_nil, List.append_nil]
    rfl
  | cons c cs ih =>
    show transduce answers none hasHandler cs (t.add (.byte c)) = _
    rw [ih, List.map_cons, List.append_cons]
    rfl

theorem transduceByte_escape (escape : UInt8) (effects : List Effect) :
    transduceByte answers (some escape) hasHandler escape ⟨.normal, effects⟩ =
      (.ok none, ⟨.escaped, effects⟩) := by
  simp only [transduceByte, ↓reduceIte]
  rfl

theorem transduceByte_escaped (escape : UInt8) (effects : List Effect) :
    transduceByte answers (some escape) hasHandler escape ⟨.escaped, effects⟩ =
      (.ok none, ⟨.normal, effects ++ [.byte escape]⟩) := by
  simp only [transduceByte, ↓reduceIte]
  rfl

theorem transduceByte_plain {escape : UInt8} (h : c ≠ escape) (effects : List Effect) :
    transduceByte answers (some escape) hasHandler c ⟨.normal, effects⟩ =
      (.ok none, ⟨.normal, effects ++ [.byte c]⟩) := by
  simp only [transduceByte, if_neg h]
  rfl

theorem transduceByte_command {escape : UInt8} (h : c ≠ escape) (effects : List Effect) :
    transduceByte answers (some escape) hasHandler c ⟨.escaped, effects⟩ =
      transduceCommand answers hasHandler c ⟨.normal, effects⟩ := by
  simp only [transduceByte, if_neg h]
  rfl

theorem transduceByte_lineEnd {escape : UInt8} (h : isLineEnd c = true) (sequence : List UInt8)
    (effects : List Effect) :
    transduceByte answers (some escape) hasHandler c ⟨.collecting sequence, effects⟩ =
      transduceSequence answers hasHandler sequence ⟨.normal, effects⟩ := by
  simp only [transduceByte, if_pos h]
  rfl

theorem transduceByte_collect {escape : UInt8} (h : ¬isLineEnd c = true) (sequence : List UInt8)
    (effects : List Effect) :
    transduceByte answers (some escape) hasHandler c ⟨.collecting sequence, effects⟩ =
      (.ok none, ⟨.collecting (sequence ++ [c]), effects⟩) := by
  simp only [transduceByte, if_neg h]
  rfl

variable {exit : Exit}

theorem map_none_ne {α : Type} (r : Outcome α) (exit : Exit) :
    (r.map fun _ => none) ≠ .ok (some exit) := by
  cases r <;> nofun

theorem quit_of_transduceCommand
    (h : (transduceCommand answers hasHandler c t).1 = .ok (some exit)) : exit = .quit := by
  rw [transduceCommand] at h
  split at h
  · cases h
    rfl
  · split at h
    · exact (map_none_ne _ exit h).elim
    · split at h
      · exact (map_none_ne _ exit h).elim
      · cases h

theorem quit_of_transduceByte
    (h : (transduceByte answers escape hasHandler c t).1 = .ok (some exit)) : exit = .quit := by
  obtain ⟨state, effects⟩ := t
  cases escape with
  | none => cases h
  | some escape =>
    cases state with
    | normal => cases h
    | escaped =>
      simp only [transduceByte] at h
      split at h
      · cases h
      · exact quit_of_transduceCommand h
    | collecting sequence =>
      simp only [transduceByte, transduceSequence] at h
      split at h
      · split at h
        · exact (map_none_ne _ exit h).elim
        · cases h
      · cases h

theorem quit_of_transduce {bytes : List UInt8}
    (h : (transduce answers escape hasHandler bytes t).1 = .ok (some exit)) : exit = .quit := by
  induction bytes generalizing t with
  | nil => cases h
  | cons c cs ih =>
    by_cases hc : (transduceByte answers escape hasHandler c t).1 = .ok none
    · rw [transduce_cons cs hc] at h
      exact ih h
    · rw [transduce_cons_of_stop cs hc] at h
      exact quit_of_transduceByte h

/-- The answers that some effects have got. -/
def Answers.recorded (effects : List Effect) : Answers where
  breakSignal before :=
    match effects[before.length]? with
    | some (.breakSignal r) => r
    | _ => .stalled
  command before _ :=
    match effects[before.length]? with
    | some (.command _ r) => r
    | _ => .stalled
  sequence before _ :=
    match effects[before.length]? with
    | some (.sequence _ r) => r
    | _ => .stalled

/-- For every list of effects there are answers that agree with it. -/
theorem agree_recorded (effects : List Effect) : (Answers.recorded effects).Agree effects := by
  rintro before x after rfl
  have hx : (before ++ x :: after)[before.length]? = some x := by
    rw [List.getElem?_append_right (Nat.le_refl _), Nat.sub_self]
    rfl
  cases x with
  | byte => trivial
  | breakSignal => simp only [Answers.Give, Answers.recorded, hx]
  | command => simp only [Answers.Give, Answers.recorded, hx]
  | sequence => simp only [Answers.Give, Answers.recorded, hx]

end Wirebench.Relay

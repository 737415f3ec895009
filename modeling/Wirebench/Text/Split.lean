namespace Wirebench.Text

/-- The fields between the occurrences of `sep`; there is always at least one. -/
def split (sep : Char) : List Char → List (List Char)
  | [] => [[]]
  | c :: cs =>
    if c = sep then [] :: split sep cs
    else
      match split sep cs with
      | [] => [[c]]
      | field :: fields => (c :: field) :: fields

theorem split_ne_nil (sep : Char) (cs : List Char) : split sep cs ≠ [] := by
  cases cs with
  | nil => simp [split]
  | cons c cs =>
    simp only [split]
    split
    · simp
    · split <;> simp

def splitFirst (sep : Char) : List Char → Option (List Char × List Char)
  | [] => none
  | c :: cs =>
    if c = sep then some ([], cs)
    else (splitFirst sep cs).map fun p => (c :: p.1, p.2)

def splitLast (sep : Char) : List Char → Option (List Char × List Char)
  | [] => none
  | c :: cs =>
    match splitLast sep cs with
    | some p => some (c :: p.1, p.2)
    | none => if c = sep then some ([], cs) else none

def join (sep : List Char) : List (List Char) → List Char
  | [] => []
  | [field] => field
  | field :: fields => field ++ sep ++ join sep fields

theorem split_eq_singleton {sep : Char} {cs : List Char} (h : sep ∉ cs) : split sep cs = [cs] := by
  induction cs with
  | nil => rfl
  | cons c cs ih =>
    have hc : c ≠ sep := fun e => h (by simp [e])
    have hcs : sep ∉ cs := fun e => h (by simp [e])
    simp [split, hc, ih hcs]

theorem split_append_cons {sep : Char} {field : List Char} (h : sep ∉ field) (rest : List Char) :
    split sep (field ++ sep :: rest) = field :: split sep rest := by
  induction field with
  | nil => simp [split]
  | cons c field ih =>
    have hc : c ≠ sep := fun e => h (by simp [e])
    have hf : sep ∉ field := fun e => h (by simp [e])
    simp [split, hc, ih hf]

end Wirebench.Text

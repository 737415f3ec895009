namespace Wirebench.Text

/-- The digit for a value below thirty-six, letters in lower case. -/
def digitChar (d : Nat) : Char :=
  if d < 10 then Char.ofNat (48 + d) else Char.ofNat (87 + d)

/-- The shortest numeral of `n` in a base of at least two. -/
def numeral (base n : Nat) : List Char :=
  if _h : 2 ≤ base ∧ base ≤ n then numeral base (n / base) ++ [digitChar (n % base)]
  else [digitChar n]
termination_by n
decreasing_by exact Nat.div_lt_self (by omega) (by omega)

def decimal (n : Nat) : List Char := numeral 10 n

def hexadecimal (n : Nat) : List Char := numeral 16 n

/-- The numeral of `n` with zeros in front up to the given width. -/
def padded (base width n : Nat) : List Char :=
  List.replicate (width - (numeral base n).length) '0' ++ numeral base n

/-- The value of an ASCII digit or letter, if it is below the base. -/
def digitValue? (base : Nat) (c : Char) : Option Nat :=
  let n := c.toNat
  let v :=
    if 48 ≤ n ∧ n ≤ 57 then n - 48
    else if 97 ≤ n ∧ n ≤ 122 then n - 87
    else if 65 ≤ n ∧ n ≤ 90 then n - 55
    else base
  if v < base then some v else none

inductive NumeralError
  | empty
  | badDigit
  | tooLarge
  deriving DecidableEq, Repr

/-- Read the remaining digits after the value read so far; the first fault decides. -/
def readDigits (base limit : Nat) : Nat → List Char → Except NumeralError Nat
  | value, [] => .ok value
  | value, c :: cs =>
    match digitValue? base c with
    | none => .error .badDigit
    | some d =>
      if limit < value * base + d then .error .tooLarge
      else readDigits base limit (value * base + d) cs

def readNumeral (base limit : Nat) : List Char → Except NumeralError Nat
  | [] => .error .empty
  | '+' :: [] => .error .badDigit
  | '+' :: cs => readDigits base limit 0 cs
  | cs => readDigits base limit 0 cs

def decimal? (limit : Nat) (cs : List Char) : Option Nat := (readNumeral 10 limit cs).toOption

theorem readDigits_append (base limit v : Nat) (cs ds : List Char) :
    readDigits base limit v (cs ++ ds) =
      (readDigits base limit v cs).bind fun w => readDigits base limit w ds := by
  induction cs generalizing v with
  | nil => rfl
  | cons c cs ih =>
    simp only [List.cons_append, readDigits]
    cases digitValue? base c with
    | none => rfl
    | some d =>
      simp only
      split
      · rfl
      · exact ih _

theorem numeral_ne_nil (base n : Nat) : numeral base n ≠ [] := by
  rw [numeral]
  split <;> simp

end Wirebench.Text

import Wirebench.Json.Basic

namespace Wirebench.Json

def skipBlanks : List Char → List Char
  | ' ' :: cs | '\t' :: cs | '\n' :: cs | '\r' :: cs => skipBlanks cs
  | cs => cs

def codeUnit? (cs : List Char) : Option Nat :=
  cs.foldlM (fun n c => (Text.digitValue? 16 c).map (n * 16 + ·)) 0

/-- The character of a code unit that is not half of a pair. -/
def charOfUnit? (n : Nat) : Option Char :=
  if 0xD800 ≤ n ∧ n < 0xE000 then none else some (Char.ofNat n)

def charOfPair? (high low : Nat) : Option Char :=
  if 0xD800 ≤ high ∧ high < 0xDC00 ∧ 0xDC00 ≤ low ∧ low < 0xE000 then
    some (Char.ofNat (0x10000 + (high - 0xD800) * 0x400 + (low - 0xDC00)))
  else none

def shortEscape? (c : Char) : Option Char :=
  if c = '"' ∨ c = '\\' ∨ c = '/' then some c
  else if c = 'n' then some '\n'
  else if c = 't' then some '\t'
  else if c = 'r' then some '\r'
  else if c = 'b' then some (Char.ofNat 8)
  else if c = 'f' then some (Char.ofNat 12)
  else none

/-- The rest of a string up to its closing quote, after the characters read so far in reverse. -/
def readString (read : List Char) : List Char → Option (String × List Char)
  | '"' :: cs => some (String.ofList read.reverse, cs)
  | '\\' :: 'u' :: a :: b :: c :: d :: '\\' :: 'u' :: e :: f :: g :: h :: cs => do
    let high ← codeUnit? [a, b, c, d]
    match charOfUnit? high with
    | some x => readString (x :: read) ('\\' :: 'u' :: e :: f :: g :: h :: cs)
    | none => readString ((← charOfPair? high (← codeUnit? [e, f, g, h])) :: read) cs
  | '\\' :: 'u' :: a :: b :: c :: d :: cs => do
    readString ((← charOfUnit? (← codeUnit? [a, b, c, d])) :: read) cs
  | '\\' :: c :: cs => do readString ((← shortEscape? c) :: read) cs
  | c :: cs => readString (c :: read) cs
  | [] => none
termination_by cs => cs.length

def isDigit (c : Char) : Bool := '0' ≤ c && c ≤ '9'

def isNumberChar (c : Char) : Bool :=
  isDigit c || c = '-' || c = '+' || c = '.' || c = 'e' || c = 'E'

/-- Digits without a needless zero in front. -/
def isWhole (cs : List Char) : Bool :=
  !cs.isEmpty && cs.all isDigit && (cs.head? ≠ some '0' || cs.length = 1)

def isExponent : List Char → Bool
  | [] => true
  | e :: sign :: cs =>
    (e = 'e' || e = 'E') &&
      (if sign = '+' ∨ sign = '-' then !cs.isEmpty && cs.all isDigit
      else (sign :: cs).all isDigit)
  | [_] => false

/-- A fraction and an exponent, of which one may be missing. -/
def isFraction : List Char → Bool
  | '.' :: cs => (cs.head?.any isDigit) && isExponent (cs.dropWhile isDigit)
  | cs => isExponent cs

def number? (cs : List Char) : Option Json :=
  let size := cs.dropWhile (· = '-')
  let whole := size.takeWhile isDigit
  let rest := size.dropWhile isDigit
  let negative := cs.head? = some '-'
  if cs.length - size.length ≤ 1 ∧ isWhole whole ∧ isFraction rest then
    if rest.isEmpty ∧ ¬(negative ∧ whole = ['0']) then
      let n : Nat := whole.foldl (fun n c => n * 10 + (c.toNat - 48)) 0
      some (.integer (if negative then -(n : Int) else n))
    else some (.real (String.ofList cs))
  else none

/-- Put a field into an object in the place of one with its key. -/
def setField (fields : List (String × Json)) (key : String) (v : Json) : List (String × Json) :=
  fields.filter (fun f => f.1 ≠ key) ++ [(key, v)]

mutual

/-- The value at the front of a text. The text must be shorter than the fuel. -/
def readValue (fuel : Nat) (cs : List Char) : Option (Json × List Char) :=
  match fuel with
  | 0 => none
  | fuel + 1 =>
    match skipBlanks cs with
    | '"' :: cs => (readString [] cs).map fun r => (.string r.1, r.2)
    | '{' :: cs =>
      match skipBlanks cs with
      | '}' :: cs => some (.object [], cs)
      | cs => readFields fuel [] cs
    | '[' :: cs =>
      match skipBlanks cs with
      | ']' :: cs => some (.array [], cs)
      | cs => readItems fuel [] cs
    | 't' :: 'r' :: 'u' :: 'e' :: cs => some (.bool true, cs)
    | 'f' :: 'a' :: 'l' :: 's' :: 'e' :: cs => some (.bool false, cs)
    | 'n' :: 'u' :: 'l' :: 'l' :: cs => some (.null, cs)
    | cs => (number? (cs.takeWhile isNumberChar)).map fun n => (n, cs.dropWhile isNumberChar)

def readFields (fuel : Nat) (fields : List (String × Json)) (cs : List Char) :
    Option (Json × List Char) :=
  match fuel with
  | 0 => none
  | fuel + 1 =>
    match skipBlanks cs with
    | '"' :: cs => do
      let (key, cs) ← readString [] cs
      match skipBlanks cs with
      | ':' :: cs =>
        let (v, cs) ← readValue fuel cs
        match skipBlanks cs with
        | ',' :: cs => readFields fuel (setField fields key v) cs
        | '}' :: cs => some (.object (setField fields key v), cs)
        | _ => none
      | _ => none
    | _ => none

/-- The items of an array from a value on, after the items read so far in reverse. -/
def readItems (fuel : Nat) (items : List Json) (cs : List Char) : Option (Json × List Char) :=
  match fuel with
  | 0 => none
  | fuel + 1 => do
    let (v, cs) ← readValue fuel cs
    match skipBlanks cs with
    | ',' :: cs => readItems fuel (v :: items) cs
    | ']' :: cs => some (.array (v :: items).reverse, cs)
    | _ => none

end

def parse? (s : String) : Option Json := do
  let cs := s.toList
  let (v, rest) ← readValue (cs.length + 1) cs
  if (skipBlanks rest).isEmpty then some v else none

end Wirebench.Json

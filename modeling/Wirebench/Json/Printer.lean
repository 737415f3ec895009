import Wirebench.Json.Basic

namespace Wirebench.Json

/-- The letter or mark that stands for a character behind a backslash. -/
def shortened? (c : Char) : Option Char :=
  if c = '"' ∨ c = '\\' then some c
  else if c = '\n' then some 'n'
  else if c = '\t' then some 't'
  else if c = '\r' then some 'r'
  else if c = Char.ofNat 8 then some 'b'
  else if c = Char.ofNat 12 then some 'f'
  else none

def escaped (c : Char) : List Char :=
  match shortened? c with
  | some mark => ['\\', mark]
  | none => if c.toNat < 32 then '\\' :: 'u' :: Text.padded 16 4 c.toNat else [c]

def quotedChars (s : String) : List Char := '"' :: s.toList.flatMap escaped ++ ['"']

def integerChars : Int → List Char
  | .ofNat n => Text.decimal n
  | .negSucc n => '-' :: Text.decimal (n + 1)

mutual

def chars : Json → List Char
  | null => "null".toList
  | bool b => (if b then "true" else "false").toList
  | integer n => integerChars n
  | real text => text.toList
  | string s => quotedChars s
  | array items => '[' :: itemChars items ++ [']']
  | object fields => '{' :: fieldChars fields ++ ['}']

def itemChars : List Json → List Char
  | [] => []
  | [v] => chars v
  | v :: vs => chars v ++ ',' :: itemChars vs

def fieldChars : List (String × Json) → List Char
  | [] => []
  | [(k, v)] => quotedChars k ++ ':' :: chars v
  | (k, v) :: fs => quotedChars k ++ ':' :: (chars v ++ ',' :: fieldChars fs)

end

def render (j : Json) : String := String.ofList j.chars

end Wirebench.Json

import Wirebench.Text.Numeral

namespace Wirebench.CommandLine

/-- Why a notation is rejected; the text is the whole argument. -/
inductive EscapeFault
  | noControlCharacter (text : String)
  | unknownNotation (text : String)
  | badNumber (text : String) (cause : Text.NumeralError)
  deriving DecidableEq, Repr

def numeralMessage : Text.NumeralError → String
  | .empty => "cannot parse integer from empty string"
  | .badDigit => "invalid digit found in string"
  | .tooLarge => "number too large to fit in target type"

def EscapeFault.message : EscapeFault → String
  | noControlCharacter text => "'" ++ text ++ "' is not a control character"
  | unknownNotation text => "invalid escape '" ++ text ++ "'"
  | badNumber text cause => "invalid escape '" ++ text ++ "': " ++ numeralMessage cause

/-- The value of a character that is written as one byte. -/
def byteOf? (c : Char) : Option UInt8 := if c.toNat < 128 then some (UInt8.ofNat c.toNat) else none

/-- The upper case of an ASCII letter; any other byte stays. -/
def upperCase (b : UInt8) : UInt8 := if 97 ≤ b ∧ b ≤ 122 then b - 32 else b

/-- The control character that belongs to a byte, of either case, between `@` and `_`. -/
def controlOf? (b : UInt8) : Option UInt8 :=
  if 64 ≤ upperCase b ∧ upperCase b ≤ 95 then some (upperCase b - 64) else none

def escapeNumber (text : List Char) : Except EscapeFault UInt8 :=
  match text with
  | '0' :: 'x' :: digits =>
    match Text.readNumeral 16 255 digits with
    | .ok n => .ok (UInt8.ofNat n)
    | .error cause => .error (.badNumber (String.ofList text) cause)
  | _ => .error (.unknownNotation (String.ofList text))

/-- The character itself, a caret before a letter or one of a few signs for a control character, or a
number after `0x`. -/
def parseEscape (text : List Char) : Except EscapeFault UInt8 :=
  match text with
  | [c] =>
    match byteOf? c with
    | some b => .ok b
    | none => escapeNumber text
  | ['^', c] =>
    match byteOf? c with
    | some b =>
      match controlOf? b with
      | some v => .ok v
      | none => .error (.noControlCharacter (String.ofList text))
    | none => escapeNumber text
  | _ => escapeNumber text

end Wirebench.CommandLine

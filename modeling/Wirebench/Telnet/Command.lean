namespace Wirebench.Telnet

/-- Interpret as command: the byte that begins every command. -/
def iac : UInt8 := 255

/-- Subnegotiation begin. -/
def sb : UInt8 := 250

/-- Subnegotiation end. -/
def se : UInt8 := 240

/-- Break. -/
def brk : UInt8 := 243

/-- The option of binary transmission. -/
def optionBinary : UInt8 := 0

/-- The option to suppress go-ahead. -/
def optionSuppressGoAhead : UInt8 := 3

/-- What one side says about an option: what it will do itself, or what the other side is to do. -/
inductive Verb
  | willUse
  | wontUse
  | doUse
  | dontUse
  deriving DecidableEq, Repr

namespace Verb

def byte : Verb → UInt8
  | willUse => 251
  | wontUse => 252
  | doUse => 253
  | dontUse => 254

def ofByte? (b : UInt8) : Option Verb :=
  if b = 251 then some willUse
  else if b = 252 then some wontUse
  else if b = 253 then some doUse
  else if b = 254 then some dontUse
  else none

@[simp] theorem ofByte?_byte (v : Verb) : ofByte? v.byte = some v := by
  cases v <;> decide

theorem byte_of_ofByte? {b : UInt8} {v : Verb} (h : ofByte? b = some v) : v.byte = b := by
  unfold ofByte? at h
  split at h
  · cases h; simp_all [byte]
  split at h
  · cases h; simp_all [byte]
  split at h
  · cases h; simp_all [byte]
  split at h
  · cases h; simp_all [byte]
  · cases h

end Verb

inductive Command
  | negotiate (verb : Verb) (option : UInt8)
  | breakSignal
  | subnegotiation (payload : List UInt8)
  | other (code : UInt8)
  deriving DecidableEq, Repr

inductive Event
  | data (byte : UInt8)
  | command (c : Command)
  deriving DecidableEq, Repr

def dataOf : List Event → List UInt8
  | [] => []
  | .data b :: es => b :: dataOf es
  | .command _ :: es => dataOf es

def commandsOf : List Event → List Command
  | [] => []
  | .data _ :: es => commandsOf es
  | .command c :: es => c :: commandsOf es

@[simp] theorem dataOf_append (es fs : List Event) :
    dataOf (es ++ fs) = dataOf es ++ dataOf fs := by
  induction es with
  | nil => rfl
  | cons e es ih => cases e <;> simp [dataOf, ih]

@[simp] theorem commandsOf_append (es fs : List Event) :
    commandsOf (es ++ fs) = commandsOf es ++ commandsOf fs := by
  induction es with
  | nil => rfl
  | cons e es ih => cases e <;> simp [commandsOf, ih]

def negotiation (verb : Verb) (option : UInt8) : List UInt8 := [iac, verb.byte, option]

def breakBytes : List UInt8 := [iac, brk]

/-- The data as it is sent, with every byte of value 255 doubled. -/
def escape : List UInt8 → List UInt8
  | [] => []
  | b :: bs => if b = iac then iac :: iac :: escape bs else b :: escape bs

@[simp] theorem escape_append (xs ys : List UInt8) :
    escape (xs ++ ys) = escape xs ++ escape ys := by
  induction xs with
  | nil => rfl
  | cons b bs ih => by_cases h : b = iac <;> simp [escape, h, ih]

theorem length_le_length_escape (bs : List UInt8) : bs.length ≤ (escape bs).length := by
  induction bs with
  | nil => simp [escape]
  | cons b bs ih => by_cases h : b = iac <;> simp [escape, h] <;> omega

end Wirebench.Telnet

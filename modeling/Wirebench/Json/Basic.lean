import Wirebench.Text.Numeral

namespace Wirebench

inductive Json
  | null
  | bool (b : Bool)
  | integer (n : Int)
  | real (text : String)
  | string (s : String)
  | array (items : List Json)
  | object (fields : List (String × Json))
  deriving Repr, Inhabited

namespace Json

def field? (key : String) : Json → Option Json
  | object fields => (fields.find? fun f => f.1 = key).map (·.2)
  | _ => none

/-- The field of an object, where null is as good as no field. -/
def given? (key : String) (j : Json) : Option Json :=
  match j.field? key with
  | some null | none => none
  | some v => some v

def nat (n : Nat) : Json := integer n

def ofString? : Option String → Json
  | some s => string s
  | none => null

def ofNat? : Option Nat → Json
  | some n => nat n
  | none => null

def bool? : Json → Option Bool
  | bool b => some b
  | _ => none

def string? : Json → Option String
  | string s => some s
  | _ => none

def nat? : Json → Option Nat
  | integer n => if 0 ≤ n then some n.toNat else none
  | _ => none

def array? : Json → Option (List Json)
  | array items => some items
  | _ => none

def natUpTo? (limit : Nat) (j : Json) : Option Nat :=
  j.nat?.bind fun n => if n ≤ limit then some n else none

def uint8? (j : Json) : Option UInt8 := (j.natUpTo? 255).map UInt8.ofNat

def uint16? (j : Json) : Option UInt16 := (j.natUpTo? 65535).map UInt16.ofNat

def uint64? (j : Json) : Option UInt64 := (j.natUpTo? (UInt64.size - 1)).map UInt64.ofNat

/-- A field that must be there. -/
def get {α : Type} (decode : Json → Option α) (j : Json) (key : String) : Option α :=
  (j.field? key).bind decode

/-- A field that may be missing, but not malformed. -/
def get? {α : Type} (decode : Json → Option α) (j : Json) (key : String) : Option (Option α) :=
  match j.given? key with
  | none => some none
  | some v => (decode v).map some

def getD {α : Type} (decode : Json → Option α) (j : Json) (key : String) (value : α) : Option α :=
  (j.get? decode key).map (·.getD value)

def list? {α : Type} (decode : Json → Option α) (j : Json) : Option (List α) :=
  j.array?.bind fun items => items.mapM decode

mutual

/-- Change all strings of a value; the keys of its objects stay. -/
def mapStrings (f : String → String) : Json → Json
  | string s => string (f s)
  | array items => array (mapItems f items)
  | object fields => object (mapFields f fields)
  | null => null
  | bool b => bool b
  | integer n => integer n
  | real text => real text

def mapItems (f : String → String) : List Json → List Json
  | [] => []
  | v :: vs => mapStrings f v :: mapItems f vs

def mapFields (f : String → String) : List (String × Json) → List (String × Json)
  | [] => []
  | (k, v) :: fs => (k, mapStrings f v) :: mapFields f fs

end

end Json

/-- The form in which values are written to texts and read from them. -/
structure JsonText where
  render : Json → String
  parse : String → Option Json

end Wirebench

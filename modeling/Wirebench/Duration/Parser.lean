import Wirebench.Duration.Basic
import Wirebench.Text.Blank

namespace Wirebench

namespace Duration

def scale? (name : String) : Option Scale :=
  if name ∈ ["nanos", "nsec", "ns"] then some (.nanoseconds 1)
  else if name ∈ ["usec", "us", "µs"] then some (.nanoseconds 1000)
  else if name ∈ ["millis", "msec", "ms"] then some (.nanoseconds 1000000)
  else if name ∈ ["seconds", "second", "secs", "sec", "s"] then some (.seconds 1)
  else if name ∈ ["minutes", "minute", "min", "mins", "m"] then some (.seconds 60)
  else if name ∈ ["hours", "hour", "hr", "hrs", "h"] then some (.seconds 3600)
  else if name ∈ ["days", "day", "d"] then some (.seconds 86400)
  else if name ∈ ["weeks", "week", "wk", "wks", "w"] then some (.seconds (86400 * 7))
  else if name ∈ ["months", "month", "M"] then some (.seconds secondsPerMonth)
  else if name ∈ ["years", "year", "yr", "yrs", "y"] then some (.seconds secondsPerYear)
  else none

/-- A number that still fits into sixty-four bits. -/
def word? (n : Nat) : Option Nat := if n < UInt64.size then some n else none

/-- The digits after the point of a count: their value over a power of ten. -/
structure Fraction where
  numerator : Nat
  denominator : Nat
  deriving DecidableEq, Repr

def Fraction.extend? (f : Fraction) (digit : Nat) : Option Fraction := do
  let denominator ← word? (f.denominator * 10)
  let numerator ← word? (f.numerator * 10 + digit)
  return ⟨numerator, denominator⟩

/-- The fraction of an amount, if it is a whole number. -/
def Fraction.of? (f : Fraction) (amount : Nat) : Option Nat := do
  let product ← word? (f.numerator * amount)
  if product % f.denominator = 0 then some (product / f.denominator) else none

def add? (d : Duration) (seconds nanos : Nat) : Option Duration := do
  let nanos ← word? (d.nanos + nanos)
  let seconds ← word? (seconds + nanos / 1000000000)
  ofNanoseconds? ((d.seconds + seconds) * 1000000000 + nanos % 1000000000)

def addCount? (d : Duration) (count : Nat) : Scale → Option Duration
  | .nanoseconds n => do d.add? 0 (← word? (count * n))
  | .seconds n => do d.add? (← word? (count * n)) 0

/-- Add a fraction of a unit. Nanoseconds have none; seconds and minutes are cut to nanoseconds,
longer units to seconds. -/
def addFraction? (d : Duration) (f : Fraction) : Scale → Option Duration
  | .nanoseconds n => if n = 1 then none else do d.add? 0 (← f.of? n)
  | .seconds n =>
    if n < 3600 then do d.add? 0 (← f.of? (n * 1000000000)) else do d.add? (← f.of? n) 0

inductive ReaderState
  | start
  | count (n : Nat)
  | fraction (n : Nat) (f : Fraction)
  | unit (n : Nat) (f : Option Fraction) (name : List Char)
  | gap
  deriving Repr

def isUnitChar (c : Char) : Bool :=
  let n := c.toNat
  (97 ≤ n && n ≤ 122) || (65 ≤ n && n ≤ 90) || n == 0xb5

def addItem? (d : Duration) (n : Nat) (f : Option Fraction) (name : List Char) :
    Option Duration := do
  let scale ← scale? (String.ofList name)
  let d ← d.addCount? n scale
  match f with
  | none => some d
  | some f => d.addFraction? f scale

def step (s : ReaderState) (d : Duration) (c : Char) : Option (ReaderState × Duration) :=
  let digit := Text.digitValue? 10 c
  match s, digit with
  | .start, some v | .gap, some v => some (.count v, d)
  | .start, none => if Text.isBlank c then some (.start, d) else none
  | .gap, none => if Text.isBlank c then some (.gap, d) else none
  | .count n, some v => do return (.count (← word? (n * 10 + v)), d)
  | .count n, none =>
    if Text.isBlank c then some (.count n, d)
    else if isUnitChar c then some (.unit n none [c], d)
    else if c = '.' then some (.fraction n ⟨0, 1⟩, d)
    else none
  | .fraction n f, some v => do return (.fraction n (← f.extend? v), d)
  | .fraction n f, none =>
    if Text.isBlank c then some (.fraction n f, d)
    else if isUnitChar c ∧ f.denominator ≠ 1 then some (.unit n (some f) [c], d)
    else none
  | .unit n f name, some v => do return (.count v, ← d.addItem? n f name)
  | .unit n f name, none =>
    if Text.isBlank c then do return (.gap, ← d.addItem? n f name)
    else if isUnitChar c then some (.unit n f (name ++ [c]), d)
    else none

def read (s : ReaderState) (d : Duration) : List Char → Option Duration
  | [] =>
    match s with
    | .gap => some d
    | .unit n f name => d.addItem? n f name
    | .start | .count _ | .fraction _ _ => none
  | c :: cs =>
    match step s d c with
    | some (s, d) => read s d cs
    | none => none

def parse? (s : String) : Option Duration :=
  if s = "0" then some zero else read .start zero s.toList

/-- Add a span of time. No number on the way may run over. -/
def Span.add? (s : Span) (d : Duration) : Option Duration := do
  d.addCount? (← word? s.count) s.unit.scale

/-- The sum of spans, added up one after the other. -/
def sum? (spans : List Span) : Option Duration := spans.foldlM (fun d s => s.add? d) zero

end Duration

/-- The form in which durations are written and read. -/
structure Humantime where
  format : Duration → String
  parse : String → Option Duration

def Humantime.standard : Humantime := ⟨Duration.text, Duration.parse?⟩

end Wirebench

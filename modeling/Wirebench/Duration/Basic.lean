import Wirebench.Text.Numeral
import Wirebench.Text.Split

namespace Wirebench

/-- Seconds of sixty-four bits and nanoseconds below one second. -/
structure Duration where
  seconds : Nat
  nanos : Nat
  seconds_lt : seconds < UInt64.size := by decide
  nanos_lt : nanos < 1000000000 := by decide
  deriving DecidableEq, Repr

namespace Duration

def zero : Duration := { seconds := 0, nanos := 0 }

def ofMilliseconds (ms : UInt64) : Duration where
  seconds := ms.toNat / 1000
  nanos := ms.toNat % 1000 * 1000000
  seconds_lt := by have := ms.toNat_lt; unfold UInt64.size; omega
  nanos_lt := by omega

def toNanoseconds (d : Duration) : Nat := d.seconds * 1000000000 + d.nanos

def toMilliseconds (d : Duration) : Nat := d.toNanoseconds / 1000000

/-- The duration of a number of nanoseconds, if its seconds fit. -/
def ofNanoseconds? (n : Nat) : Option Duration :=
  if h : n / 1000000000 < UInt64.size then
    some ⟨n / 1000000000, n % 1000000000, h, Nat.mod_lt _ (by decide)⟩
  else none

def secondsPerYear : Nat := 31557600

def secondsPerMonth : Nat := 2630016

def secondsPerDay : Nat := 86400

/-- The size of a unit: a number of nanoseconds, or a number of seconds. -/
inductive Scale
  | nanoseconds (n : Nat)
  | seconds (n : Nat)
  deriving DecidableEq, Repr

/-- A unit of time. A year has 365.25 days, a month 30.44 days. -/
inductive TimeUnit
  | year
  | month
  | week
  | day
  | hour
  | minute
  | second
  | millisecond
  | microsecond
  | nanosecond
  deriving DecidableEq, Repr

namespace TimeUnit

def scale : TimeUnit → Scale
  | year => .seconds secondsPerYear
  | month => .seconds secondsPerMonth
  | week => .seconds (7 * secondsPerDay)
  | day => .seconds secondsPerDay
  | hour => .seconds 3600
  | minute => .seconds 60
  | second => .seconds 1
  | millisecond => .nanoseconds 1000000
  | microsecond => .nanoseconds 1000
  | nanosecond => .nanoseconds 1

/-- The names by which a unit may follow a count. -/
def suffixes : TimeUnit → List String
  | year => ["years", "year", "y"]
  | month => ["months", "month", "M"]
  | week => ["weeks", "week", "w"]
  | day => ["days", "day", "d"]
  | hour => ["hours", "hour", "hr", "h"]
  | minute => ["minutes", "minute", "min", "m"]
  | second => ["seconds", "second", "sec", "s"]
  | millisecond => ["msec", "ms"]
  | microsecond => ["usec", "us"]
  | nanosecond => ["nsec", "ns"]

/-- The name that is written after a count. -/
def suffix (count : Nat) : TimeUnit → String
  | year => if 1 < count then "years" else "year"
  | month => if 1 < count then "months" else "month"
  | week => if 1 < count then "weeks" else "week"
  | day => if 1 < count then "days" else "day"
  | hour => "h"
  | minute => "m"
  | second => "s"
  | millisecond => "ms"
  | microsecond => "us"
  | nanosecond => "ns"

end TimeUnit

structure Span where
  count : Nat
  unit : TimeUnit
  deriving DecidableEq, Repr

def Span.chars (s : Span) : List Char := Text.decimal s.count ++ (s.unit.suffix s.count).toList

/-- The counts of all units in a duration, as long as each unit has as much as it can. -/
def allSpans (d : Duration) : List Span :=
  let inYear := d.seconds % secondsPerYear
  let inMonth := inYear % secondsPerMonth
  let inDay := inMonth % secondsPerDay
  [⟨d.seconds / secondsPerYear, .year⟩, ⟨inYear / secondsPerMonth, .month⟩,
    ⟨inMonth / secondsPerDay, .day⟩, ⟨inDay / 3600, .hour⟩, ⟨inDay % 3600 / 60, .minute⟩,
    ⟨inDay % 60, .second⟩, ⟨d.nanos / 1000000, .millisecond⟩,
    ⟨d.nanos / 1000 % 1000, .microsecond⟩, ⟨d.nanos % 1000, .nanosecond⟩]

/-- The spans that are written for a duration: those that are not zero, or zero seconds. -/
def spans (d : Duration) : List Span :=
  if d.seconds = 0 ∧ d.nanos = 0 then [⟨0, .second⟩] else d.allSpans.filter (·.count ≠ 0)

/-- The text of a duration. -/
def text (d : Duration) : String := String.ofList (Text.join [' '] (d.spans.map Span.chars))

end Duration

end Wirebench

import Mathlib.Algebra.Ring.Nat
import Mathlib.Data.List.Forall2
import Wirebench.Duration.Parser
import Wirebench.Proofs.Text.Fields
import Wirebench.Proofs.Text.Numerals

namespace Wirebench

namespace Duration

open Text (decimal digitValue? isBlank)

variable {d d' : Duration} {s : ReaderState} {n : Nat} {c : Char} {name : List Char}
  {spans spans' : List Span} {fields : List (List Char)}

theorem word?_of_lt (hn : n < UInt64.size) : word? n = some n := if_pos hn

theorem ofNanoseconds?_of_lt {seconds nanos : Nat} (hs : seconds < UInt64.size)
    (hn : nanos < 1000000000) :
    ofNanoseconds? (seconds * 1000000000 + nanos) = some ⟨seconds, nanos, hs, hn⟩ := by
  have hwhole : (seconds * 1000000000 + nanos) / 1000000000 = seconds := by omega
  have hpart : (seconds * 1000000000 + nanos) % 1000000000 = nanos := by omega
  simp only [ofNanoseconds?, hwhole, hpart, dif_pos hs]

theorem add?_of_lt {seconds nanos : Nat} (hs : d.seconds + seconds < UInt64.size)
    (hn : d.nanos + nanos < 1000000000) :
    d.add? seconds nanos = some ⟨d.seconds + seconds, d.nanos + nanos, hs, hn⟩ := by
  have hword : d.nanos + nanos < UInt64.size := Nat.lt_trans hn (by decide)
  have hseconds : seconds < UInt64.size := Nat.lt_of_le_of_lt (Nat.le_add_left _ _) hs
  have hsum := ofNanoseconds?_of_lt hs hn
  rw [add?, word?_of_lt hword, Option.bind_eq_bind, Option.bind_some, Nat.div_eq_of_lt hn,
    Nat.mod_eq_of_lt hn, Nat.add_zero, word?_of_lt hseconds, Option.bind_some, hsum]

namespace Span

/-- The seconds in a span of a longer unit. -/
def seconds (s : Span) : Nat :=
  match s.unit.scale with
  | .seconds k => s.count * k
  | .nanoseconds _ => 0

/-- The nanoseconds in a span of a shorter unit. -/
def nanos (s : Span) : Nat :=
  match s.unit.scale with
  | .seconds _ => 0
  | .nanoseconds k => s.count * k

theorem scale_cases (s : Span) :
    (∃ k, 0 < k ∧ s.unit.scale = .seconds k) ∨ ∃ k, 0 < k ∧ s.unit.scale = .nanoseconds k := by
  obtain ⟨count, unit⟩ := s
  cases unit with
  | year => exact .inl ⟨secondsPerYear, by decide, rfl⟩
  | month => exact .inl ⟨secondsPerMonth, by decide, rfl⟩
  | week => exact .inl ⟨7 * secondsPerDay, by decide, rfl⟩
  | day => exact .inl ⟨secondsPerDay, by decide, rfl⟩
  | hour => exact .inl ⟨3600, by decide, rfl⟩
  | minute => exact .inl ⟨60, by decide, rfl⟩
  | second => exact .inl ⟨1, by decide, rfl⟩
  | millisecond => exact .inr ⟨1000000, by decide, rfl⟩
  | microsecond => exact .inr ⟨1000, by decide, rfl⟩
  | nanosecond => exact .inr ⟨1, by decide, rfl⟩

theorem add?_of_lt {s : Span} (hs : d.seconds + s.seconds < UInt64.size)
    (hn : d.nanos + s.nanos < 1000000000) :
    s.add? d = some ⟨d.seconds + s.seconds, d.nanos + s.nanos, hs, hn⟩ := by
  have hsize : 1000000000 < UInt64.size := by decide
  have hsum := Duration.add?_of_lt hs hn
  rcases s.scale_cases with ⟨k, hk, hscale⟩ | ⟨k, hk, hscale⟩
  · have hseconds : s.seconds = s.count * k := by rw [seconds, hscale]
    have hnanos : s.nanos = 0 := by rw [nanos, hscale]
    have hword : s.count * k < UInt64.size := by omega
    have hcount : s.count < UInt64.size :=
      Nat.lt_of_le_of_lt (Nat.le_mul_of_pos_right _ hk) hword
    rw [add?, word?_of_lt hcount, Option.bind_eq_bind, Option.bind_some, hscale, addCount?,
      word?_of_lt hword, Option.bind_eq_bind, Option.bind_some, ← hsum, hseconds, hnanos]
  · have hseconds : s.seconds = 0 := by rw [seconds, hscale]
    have hnanos : s.nanos = s.count * k := by rw [nanos, hscale]
    have hword : s.count * k < UInt64.size := by omega
    have hcount : s.count < UInt64.size :=
      Nat.lt_of_le_of_lt (Nat.le_mul_of_pos_right _ hk) hword
    rw [add?, word?_of_lt hcount, Option.bind_eq_bind, Option.bind_some, hscale, addCount?,
      word?_of_lt hword, Option.bind_eq_bind, Option.bind_some, ← hsum, hseconds, hnanos]

theorem add?_of_zero {s : Span} (hs : s.count = 0) (d : Duration) : s.add? d = some d := by
  have hamount : s.seconds = 0 ∧ s.nanos = 0 := by
    rw [seconds, nanos, hs]
    cases s.unit.scale with
    | seconds k => exact ⟨Nat.zero_mul k, rfl⟩
    | nanoseconds k => exact ⟨rfl, Nat.zero_mul k⟩
  obtain ⟨hseconds, hnanos⟩ := hamount
  rw [add?_of_lt (by rw [hseconds]; exact d.seconds_lt) (by rw [hnanos]; exact d.nanos_lt)]
  simp only [hseconds, hnanos, Nat.add_zero]

end Span

/-- Spans are added up without overflow if their sum is a duration: no sum on the way is larger. -/
theorem foldlM_add? (spans : List Span) (d : Duration)
    (hs : d.seconds + (spans.map Span.seconds).sum < UInt64.size)
    (hn : d.nanos + (spans.map Span.nanos).sum < 1000000000) :
    spans.foldlM (fun d s => s.add? d) d =
      some ⟨d.seconds + (spans.map Span.seconds).sum, d.nanos + (spans.map Span.nanos).sum,
        hs, hn⟩ := by
  induction spans generalizing d with
  | nil => rfl
  | cons s spans ih =>
    simp only [List.map_cons, List.sum_cons, ← Nat.add_assoc] at hs hn
    have hadd : s.add? d = some ⟨d.seconds + s.seconds, d.nanos + s.nanos, by omega, by omega⟩ :=
      Span.add?_of_lt _ _
    rw [List.foldlM_cons, hadd, Option.bind_eq_bind, Option.bind_some, ih _ hs hn]
    simp only [List.map_cons, List.sum_cons, Nat.add_assoc]

theorem sum_allSpans (d : Duration) : (d.allSpans.map Span.seconds).sum = d.seconds ∧
    (d.allSpans.map Span.nanos).sum = d.nanos := by
  have hclock (n : Nat) : n / 3600 * 3600 + (n % 3600 / 60 * 60 + n % 60) = n := by omega
  have hnanos (n : Nat) : n / 1000000 * 1000000 + (n / 1000 % 1000 * 1000 + n % 1000) = n := by
    omega
  unfold allSpans
  simp only [List.map_cons, List.map_nil, Span.seconds, Span.nanos, TimeUnit.scale, Nat.mul_one]
  repeat rw [List.sum_cons]
  rw [List.sum_nil]
  refine ⟨?_, ?_⟩
  · rw [Nat.add_zero, Nat.add_zero, hclock, Nat.div_add_mod', Nat.div_add_mod', Nat.div_add_mod']
  · rw [Nat.add_zero, hnanos, Nat.zero_add, Nat.zero_add, Nat.zero_add, Nat.zero_add,
      Nat.zero_add, Nat.zero_add]

theorem foldlM_filter (spans : List Span) (d : Duration) :
    (spans.filter (·.count ≠ 0)).foldlM (fun d s => s.add? d) d =
      spans.foldlM (fun d s => s.add? d) d := by
  induction spans generalizing d with
  | nil => rfl
  | cons s spans ih =>
    by_cases hs : s.count = 0
    · rw [List.filter_cons_of_neg (by simpa using hs), List.foldlM_cons, Span.add?_of_zero hs,
        Option.bind_eq_bind, Option.bind_some, ih]
    · rw [List.filter_cons_of_pos (by simpa using hs), List.foldlM_cons, List.foldlM_cons]
      exact congrArg _ (funext ih)

/-- The spans that are written for a duration add up to it, and nothing overflows. -/
theorem sum?_spans (d : Duration) : sum? d.spans = some d := by
  rw [sum?, spans]
  split
  · next hzero =>
    obtain ⟨seconds, nanos, _, _⟩ := d
    obtain ⟨rfl, rfl⟩ : seconds = 0 ∧ nanos = 0 := hzero
    rfl
  · obtain ⟨hseconds, hnanos⟩ := d.sum_allSpans
    have hs : zero.seconds + (d.allSpans.map Span.seconds).sum < UInt64.size := by
      rw [zero, Nat.zero_add, hseconds]
      exact d.seconds_lt
    have hn : zero.nanos + (d.allSpans.map Span.nanos).sum < 1000000000 := by
      rw [zero, Nat.zero_add, hnanos]
      exact d.nanos_lt
    rw [foldlM_filter, foldlM_add? _ _ hs hn]
    simp only [zero, Nat.zero_add, hseconds, hnanos]

theorem spans_ne_nil (d : Duration) : d.spans ≠ [] := by
  intro hnil
  have hsum := sum?_spans d
  rw [hnil] at hsum
  rw [spans] at hnil
  split at hnil
  · cases hnil
  · next hzero =>
    cases hsum
    exact hzero ⟨rfl, rfl⟩

/-- A text for a span: its count and one of the names of its unit. -/
def Span.Spelled (s : Span) (field : List Char) : Prop :=
  ∃ suffix ∈ s.unit.suffixes, field = decimal s.count ++ suffix.toList

end Duration

/-- What a form of durations is documented to do. The text of a duration is made up of spans with
blanks between them, where each unit has as much as it can and nothing is written for zero; and a
text made up of spans is read as their sum, as long as no number on the way runs over. -/
structure Humantime.Documented (form : Humantime) : Prop where
  format : ∀ d : Duration, ∃ fields, List.Forall₂ Duration.Span.Spelled d.spans fields ∧
    form.format d = String.ofList (Text.join [' '] fields)
  parse : ∀ spans fields d, spans ≠ [] → List.Forall₂ Duration.Span.Spelled spans fields →
    Duration.sum? spans = some d → form.parse (String.ofList (Text.join [' '] fields)) = some d

namespace Humantime

/-- A duration is read back from its text, whatever its size. -/
theorem Documented.parse_format {form : Humantime} (h : form.Documented) (d : Duration) :
    form.parse (form.format d) = some d := by
  obtain ⟨fields, hfields, htext⟩ := h.format d
  rw [htext]
  exact h.parse d.spans fields d d.spans_ne_nil hfields d.sum?_spans

/-- The longest duration. -/
example : standard.parse "584542046090years 7months 15days 17h 5m 3s 999ms 999us 999ns" =
    some { seconds := UInt64.size - 1, nanos := 999999999 } := by
  decide +kernel

end Humantime

end Wirebench

import Wirebench.Telnet.Negotiator
import Wirebench.Telnet.Parser

namespace Wirebench.Telnet

inductive Message
  | data (bytes : List UInt8)
  | negotiation (verb : Verb) (option : UInt8)
  | breakSignal
  deriving DecidableEq, Repr

namespace Message

def bytes : Message → List UInt8
  | data bs => escape bs
  | negotiation v o => Telnet.negotiation v o
  | breakSignal => breakBytes

/-- What the other side finds in the stream. -/
def events : Message → List Event
  | data bs => bs.map .data
  | negotiation v o => [.command (.negotiate v o)]
  | breakSignal => [.command .breakSignal]

def payload : Message → List UInt8
  | data bs => bs
  | negotiation .. | breakSignal => []

/-- Neither data nor a break. -/
def IsNegotiation : Message → Prop
  | negotiation .. => True
  | data _ | breakSignal => False

end Message

def encode (ms : List Message) : List UInt8 := ms.flatMap Message.bytes

def payload (ms : List Message) : List UInt8 := ms.flatMap Message.payload

def breakCount (ms : List Message) : Nat := ms.count .breakSignal

/-- The breaks whose last byte is among the first `n` bytes of the stream. -/
def breaksWithin : List Message → Nat → Nat
  | [], _ => 0
  | m :: ms, n =>
    if m.bytes.length ≤ n then breakCount [m] + breaksWithin ms (n - m.bytes.length) else 0

def breaksIn (es : List Event) : Nat := (commandsOf es).count .breakSignal

@[simp] theorem encode_nil : encode [] = [] := rfl

@[simp] theorem payload_nil : payload [] = [] := rfl

@[simp] theorem encode_cons (m : Message) (ms : List Message) :
    encode (m :: ms) = m.bytes ++ encode ms := rfl

@[simp] theorem payload_cons (m : Message) (ms : List Message) :
    payload (m :: ms) = m.payload ++ payload ms := rfl

@[simp] theorem encode_append (ms ns : List Message) :
    encode (ms ++ ns) = encode ms ++ encode ns := List.flatMap_append

@[simp] theorem payload_append (ms ns : List Message) :
    payload (ms ++ ns) = payload ms ++ payload ns := List.flatMap_append

@[simp] theorem breakCount_append (ms ns : List Message) :
    breakCount (ms ++ ns) = breakCount ms + breakCount ns := List.count_append

@[simp] theorem breaksIn_append (es fs : List Event) :
    breaksIn (es ++ fs) = breaksIn es + breaksIn fs := by
  simp only [breaksIn, commandsOf_append, List.count_append]

def Negotiations (ms : List Message) : Prop := ∀ m ∈ ms, m.IsNegotiation

namespace Negotiations

variable {ms ns : List Message}

theorem nil : Negotiations [] := by
  intro m hm
  exact (List.not_mem_nil hm).elim

theorem single (v : Verb) (o : UInt8) : Negotiations [.negotiation v o] := by
  intro m hm
  rw [List.mem_singleton.1 hm]
  trivial

theorem append (h : Negotiations ms) (h' : Negotiations ns) : Negotiations (ms ++ ns) := by
  intro m hm
  rcases List.mem_append.1 hm with hm | hm
  · exact h m hm
  · exact h' m hm

theorem payload (h : Negotiations ms) : Telnet.payload ms = [] := by
  rw [Telnet.payload, List.flatMap_eq_nil_iff]
  intro m hm
  cases m with
  | data => exact (h _ hm).elim
  | negotiation => rfl
  | breakSignal => rfl

theorem breakCount (h : Negotiations ms) : Telnet.breakCount ms = 0 := by
  rw [Telnet.breakCount, List.count_eq_zero]
  intro hm
  exact h _ hm

end Negotiations

namespace Negotiator

def offerMessages (codes : List UInt8) : List Message :=
  codes.flatMap fun code => [.negotiation .willUse code, .negotiation .doUse code]

theorem encode_offerMessages (codes : List UInt8) :
    encode (offerMessages codes) = offers codes := by
  induction codes with
  | nil => rfl
  | cons code codes ih =>
    rw [offerMessages, List.flatMap_cons, encode_append, offers, List.flatMap_cons]
    exact congrArg _ ih

theorem offerMessages_negotiations (codes : List UInt8) :
    Negotiations (offerMessages codes) := by
  induction codes with
  | nil => exact .nil
  | cons code codes ih =>
    exact ((Negotiations.single .willUse code).append (.single .doUse code)).append ih

end Negotiator

namespace Parser

theorem feed_escape (bs : List UInt8) :
    Parser.data.feed (escape bs) = (.data, bs.map .data) := by
  induction bs with
  | nil => rfl
  | cons b bs ih =>
    by_cases hb : b = iac
    · subst b
      simp only [escape, ↓reduceIte, feed_cons, step, ih, List.map_cons, List.nil_append,
        List.singleton_append]
    · simp only [escape, hb, ↓reduceIte, feed_cons, step, ih, List.map_cons,
        List.singleton_append]

theorem feed_negotiation (v : Verb) (o : UInt8) :
    Parser.data.feed (Telnet.negotiation v o) = (.data, [.command (.negotiate v o)]) := by
  cases v <;> rfl

theorem feed_breakBytes :
    Parser.data.feed breakBytes = (.data, [.command .breakSignal]) := rfl

theorem feed_message (m : Message) : Parser.data.feed m.bytes = (.data, m.events) := by
  cases m with
  | data bs => exact feed_escape bs
  | negotiation v o => exact feed_negotiation v o
  | breakSignal => exact feed_breakBytes

theorem feed_encode (ms : List Message) :
    Parser.data.feed (encode ms) = (.data, ms.flatMap Message.events) := by
  induction ms with
  | nil => rfl
  | cons m ms ih => simp only [encode_cons, feed_append, feed_message, ih, List.flatMap_cons]

end Parser

theorem dataOf_map_data (bs : List UInt8) : dataOf (bs.map .data) = bs := by
  induction bs with
  | nil => rfl
  | cons b bs ih => simp only [List.map_cons, dataOf, ih]

theorem commandsOf_map_data (bs : List UInt8) : commandsOf (bs.map .data) = [] := by
  induction bs with
  | nil => rfl
  | cons b bs ih => simp only [List.map_cons, commandsOf, ih]

theorem dataOf_events (ms : List Message) : dataOf (ms.flatMap Message.events) = payload ms := by
  induction ms with
  | nil => rfl
  | cons m ms ih =>
    rw [List.flatMap_cons, dataOf_append, ih, payload_cons]
    cases m with
    | data bs => rw [Message.events, dataOf_map_data, Message.payload]
    | negotiation => rfl
    | breakSignal => rfl

theorem breaksIn_message (m : Message) : breaksIn m.events = breakCount [m] := by
  cases m with
  | data bs => rw [breaksIn, Message.events, commandsOf_map_data]; rfl
  | negotiation => rfl
  | breakSignal => rfl

theorem breaksIn_of_incomplete {m : Message} {xs ys : List UInt8} (h : m.bytes = xs ++ ys)
    (hlt : xs.length < m.bytes.length) : breaksIn (Parser.data.feed xs).2 = 0 := by
  have hle : breaksIn (Parser.data.feed xs).2 ≤ breakCount [m] := by
    have hm := Parser.feed_message m
    rw [h, Parser.feed_append] at hm
    have he := congrArg (breaksIn ∘ Prod.snd) hm
    simp only [Function.comp_apply, breaksIn_append, breaksIn_message] at he
    omega
  cases m with
  | data => exact Nat.le_zero.1 hle
  | negotiation => exact Nat.le_zero.1 hle
  | breakSignal =>
    -- One byte at most, and a first byte is no command by itself.
    cases xs with
    | nil => rfl
    | cons x xs =>
      simp only [Message.bytes, breakBytes, List.cons_append, List.cons.injEq,
        List.length_cons, List.length_nil] at h hlt
      obtain ⟨rfl, -⟩ := h
      have hxs : xs = [] := List.length_eq_zero_iff.1 (by omega)
      subst xs
      rfl

/-- The breaks found in the first part of a stream are those that end in it. -/
theorem breaksIn_feed_of_encode {ms : List Message} {xs ys : List UInt8}
    (h : encode ms = xs ++ ys) :
    breaksIn (Parser.data.feed xs).2 = breaksWithin ms xs.length := by
  induction ms generalizing xs with
  | nil =>
    have hxs : xs = [] := (List.append_eq_nil_iff.1 h.symm).1
    subst xs
    rfl
  | cons m ms ih =>
    rw [encode_cons] at h
    by_cases hlen : m.bytes.length ≤ xs.length
    · obtain ⟨zs, rfl, hzs⟩ : ∃ zs, xs = m.bytes ++ zs ∧ encode ms = zs ++ ys := by
        rcases List.append_eq_append_iff.1 h with ⟨zs, hx, he⟩ | ⟨zs, hm, hy⟩
        · exact ⟨zs, hx, he⟩
        · have hzs : zs = [] := by
            rw [hm, List.length_append] at hlen
            exact List.length_eq_zero_iff.1 (by omega)
          subst zs
          exact ⟨[], by simpa using hm.symm, by simpa using hy.symm⟩
      simp only [Parser.feed_append, Parser.feed_message, breaksIn_append, breaksIn_message,
        ih hzs, breaksWithin, List.length_append, Nat.le_add_right, ↓reduceIte,
        Nat.add_sub_cancel_left]
    · obtain ⟨zs, hm⟩ : ∃ zs, m.bytes = xs ++ zs := by
        rcases List.append_eq_append_iff.1 h with ⟨zs, hx, -⟩ | ⟨zs, hm, -⟩
        · rw [hx, List.length_append] at hlen
          omega
        · exact ⟨zs, hm⟩
      rw [breaksWithin, if_neg hlen]
      exact breaksIn_of_incomplete hm (Nat.lt_of_not_le hlen)

/-- The data that `n` layers, each of which starts afresh, read out of a stream. -/
def decode : Nat → List UInt8 → List UInt8
  | 0, bytes => bytes
  | n + 1, bytes => dataOf (Parser.data.feed (decode n bytes)).2

/-- None of `n` layers is left in the middle of a command at the end of a stream. -/
def EndsWhole : Nat → List UInt8 → Prop
  | 0, _ => True
  | n + 1, bytes => EndsWhole n bytes ∧ (Parser.data.feed (decode n bytes)).1 = .data

/-- Data as `n` layers send it. -/
def wrap : Nat → List UInt8 → List UInt8
  | 0, bytes => bytes
  | n + 1, bytes => wrap n (escape bytes)

@[simp] theorem decode_nil (n : Nat) : decode n [] = [] := by
  induction n with
  | zero => rfl
  | succ n ih => rw [decode, ih]; rfl

@[simp] theorem wrap_nil (n : Nat) : wrap n [] = [] := by
  induction n with
  | zero => rfl
  | succ n ih => exact ih

theorem wrap_append (n : Nat) (xs ys : List UInt8) :
    wrap n (xs ++ ys) = wrap n xs ++ wrap n ys := by
  induction n generalizing xs ys with
  | zero => rfl
  | succ n ih => rw [wrap, escape_append, ih, wrap, wrap]

theorem EndsWhole.nil (n : Nat) : EndsWhole n [] := by
  induction n with
  | zero => trivial
  | succ n ih => exact ⟨ih, by rw [decode_nil]; rfl⟩

theorem decode_append {n : Nat} {xs : List UInt8} (h : EndsWhole n xs) (ys : List UInt8) :
    decode n (xs ++ ys) = decode n xs ++ decode n ys := by
  induction n with
  | zero => rfl
  | succ n ih => simp only [decode, ih h.1, Parser.feed_append, h.2, dataOf_append]

theorem EndsWhole.append {n : Nat} {xs ys : List UInt8} (hx : EndsWhole n xs)
    (hy : EndsWhole n ys) : EndsWhole n (xs ++ ys) := by
  induction n with
  | zero => trivial
  | succ n ih =>
    apply And.intro (ih hx.1 hy.1)
    rw [decode_append hx.1, Parser.feed_append, hx.2]
    exact hy.2

theorem decode_add (m n : Nat) (bytes : List UInt8) :
    decode (m + n) bytes = decode m (decode n bytes) := by
  induction m with
  | zero => rw [Nat.zero_add, decode]
  | succ m ih => rw [Nat.succ_add, decode, decode, ih]

theorem decode_wrap (n : Nat) (bytes : List UInt8) : decode n (wrap n bytes) = bytes := by
  induction n generalizing bytes with
  | zero => rfl
  | succ n ih => rw [decode, wrap, ih, Parser.feed_escape, dataOf_map_data]

theorem EndsWhole.wrap (n : Nat) (bytes : List UInt8) : EndsWhole n (wrap n bytes) := by
  induction n generalizing bytes with
  | zero => trivial
  | succ n ih =>
    apply And.intro (ih _)
    rw [Telnet.wrap, decode_wrap, Parser.feed_escape]

theorem EndsWhole.add {m n : Nat} {bytes : List UInt8} (hn : EndsWhole n bytes)
    (hm : EndsWhole m (decode n bytes)) : EndsWhole (m + n) bytes := by
  induction m with
  | zero => rwa [Nat.zero_add]
  | succ m ih =>
    rw [Nat.succ_add]
    exact ⟨ih hm.1, by rw [decode_add]; exact hm.2⟩

/-- The bytes are the messages of a layer as they leave the `n` layers below it. -/
structure Says (n : Nat) (bytes : List UInt8) (ms : List Message) : Prop where
  endsWhole : EndsWhole n bytes
  decode : decode n bytes = encode ms

theorem Says.nil (n : Nat) : Says n [] [] := ⟨.nil n, decode_nil n⟩

theorem Says.wrap (n : Nat) (ms : List Message) : Says n (wrap n (encode ms)) ms :=
  ⟨.wrap n _, decode_wrap n _⟩

theorem Says.single (n : Nat) (m : Message) : Says n (Telnet.wrap n m.bytes) [m] := by
  simpa only [encode_cons, encode_nil, List.append_nil] using Says.wrap n [m]

theorem Says.append {n : Nat} {xs ys : List UInt8} {ms ns : List Message} (hx : Says n xs ms)
    (hy : Says n ys ns) : Says n (xs ++ ys) (ms ++ ns) where
  endsWhole := hx.endsWhole.append hy.endsWhole
  decode := by rw [decode_append hx.endsWhole, hx.decode, hy.decode, encode_append]

theorem Says.decode_succ {n : Nat} {bytes : List UInt8} {ms : List Message}
    (h : Says n bytes ms) : Telnet.decode (n + 1) bytes = payload ms := by
  rw [Telnet.decode, h.decode, Parser.feed_encode, dataOf_events]

theorem Says.endsWhole_succ {n : Nat} {bytes : List UInt8} {ms : List Message}
    (h : Says n bytes ms) : EndsWhole (n + 1) bytes :=
  ⟨h.endsWhole, by rw [h.decode, Parser.feed_encode]⟩

theorem Says.above {m n : Nat} {bytes : List UInt8} {ms : List Message} (h : Says n bytes ms)
    (hp : payload ms = []) (hlt : n < m) : Says m bytes [] := by
  obtain ⟨k, rfl⟩ := Nat.exists_eq_add_of_lt hlt
  have he : Telnet.decode (n + 1) bytes = [] := by rw [h.decode_succ, hp]
  have hk : n + k + 1 = k + (n + 1) := by omega
  rw [hk]
  have habove : EndsWhole k (Telnet.decode (n + 1) bytes) := by
    rw [he]
    exact .nil k
  constructor
  · exact h.endsWhole_succ.add habove
  · rw [decode_add, he, decode_nil, encode_nil]

end Wirebench.Telnet

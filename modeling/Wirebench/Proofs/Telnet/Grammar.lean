import Mathlib.Logic.ExistsUnique
import Wirebench.Telnet.Parser

namespace Wirebench.Telnet

/-- A byte of a subnegotiation as it stands in the stream: by itself, or after IAC. -/
inductive Enclosed
  | plain (b : UInt8) (h : b ≠ iac)
  | marked (b : UInt8) (h : b ≠ se)
  deriving DecidableEq

namespace Enclosed

def bytes : Enclosed → List UInt8
  | plain b _ => [b]
  | marked b _ => [iac, b]

def byte : Enclosed → UInt8
  | plain b _ | marked b _ => b

/-- A byte of a payload as it is sent. -/
def ofByte (b : UInt8) : Enclosed :=
  if h : b = iac then marked iac (by decide) else plain b h

theorem byte_comp_ofByte : byte ∘ ofByte = id := by
  funext b
  simp only [Function.comp_apply, ofByte]
  split
  · next h => exact h.symm
  · rfl

theorem flatMap_bytes_ofByte (payload : List UInt8) :
    (payload.map ofByte).flatMap bytes = escape payload := by
  induction payload with
  | nil => rfl
  | cons b bs ih => by_cases h : b = iac <;> simp [ofByte, bytes, escape, h, ← ih]

end Enclosed

/-- A byte that makes up a command by itself, and one that has no meaning of its own here. -/
def IsOther (b : UInt8) : Prop := b ≠ iac ∧ Verb.ofByte? b = none ∧ b ≠ sb ∧ b ≠ brk

instance (b : UInt8) : Decidable (IsOther b) := inferInstanceAs (Decidable (_ ∧ _))

/-- What a stream is made of. -/
inductive Item
  | plain (b : UInt8) (h : b ≠ iac)
  | doubled
  | negotiate (verb : Verb) (option : UInt8)
  | breakSignal
  | subnegotiation (body : List Enclosed)
  | other (b : UInt8) (h : IsOther b)
  deriving DecidableEq

namespace Item

def bytes : Item → List UInt8
  | plain b _ => [b]
  | doubled => [iac, iac]
  | negotiate v o => [iac, v.byte, o]
  | breakSignal => [iac, brk]
  | subnegotiation body => iac :: sb :: body.flatMap Enclosed.bytes ++ [iac, se]
  | other b _ => [iac, b]

/-- The data or the command that an item stands for. -/
def event : Item → Event
  | plain b _ => .data b
  | doubled => .data iac
  | negotiate v o => .command (.negotiate v o)
  | breakSignal => .command .breakSignal
  | subnegotiation body => .command (.subnegotiation (body.map Enclosed.byte))
  | other b _ => .command (.other b)

end Item

/-- How far an item has come that is not finished. -/
inductive Unfinished
  | nothing
  | command
  | verb (v : Verb)
  | sub (body : List Enclosed)
  | subCommand (body : List Enclosed)
  deriving DecidableEq

namespace Unfinished

def bytes : Unfinished → List UInt8
  | nothing => []
  | command => [iac]
  | verb v => [iac, v.byte]
  | sub body => iac :: sb :: body.flatMap Enclosed.bytes
  | subCommand body => iac :: sb :: body.flatMap Enclosed.bytes ++ [iac]

/-- Where the parser stands at the end of it. -/
def parser : Unfinished → Parser
  | nothing => .data
  | command => .command
  | verb v => .verb v
  | sub body => .sub (body.map Enclosed.byte)
  | subCommand body => .subCommand (body.map Enclosed.byte)

end Unfinished

/-- A stream split into items. -/
structure Split where
  items : List Item
  rest : Unfinished
  deriving DecidableEq

namespace Split

def bytes (s : Split) : List UInt8 := s.items.flatMap Item.bytes ++ s.rest.bytes

def events (s : Split) : List Event := s.items.map Item.event

/-- The items that are there, and one more. -/
def finish (s : Split) (i : Item) : Split := ⟨s.items ++ [i], .nothing⟩

/-- What becomes of a command of which only IAC was there. -/
def lead (s : Split) (b : UInt8) : Split :=
  if h : IsOther b then s.finish (.other b h)
  else if b = iac then s.finish .doubled
  else
    match Verb.ofByte? b with
    | some v => { s with rest := .verb v }
    | none => if b = sb then { s with rest := .sub [] } else s.finish .breakSignal

/-- The split of a stream that goes on by one byte. -/
def push (s : Split) (b : UInt8) : Split :=
  match s.rest with
  | .nothing => if h : b = iac then { s with rest := .command } else s.finish (.plain b h)
  | .command => s.lead b
  | .verb v => s.finish (.negotiate v b)
  | .sub body =>
    if h : b = iac then { s with rest := .subCommand body }
    else { s with rest := .sub (body ++ [.plain b h]) }
  | .subCommand body =>
    if h : b = se then s.finish (.subnegotiation body)
    else { s with rest := .sub (body ++ [.marked b h]) }

def ofBytes (bytes : List UInt8) : Split := bytes.foldl push ⟨[], .nothing⟩

theorem lead_verb (s : Split) (v : Verb) : s.lead v.byte = { s with rest := .verb v } := by
  cases v <;> rfl

theorem lead_other (s : Split) {b : UInt8} (h : IsOther b) : s.lead b = s.finish (.other b h) :=
  dif_pos h

/-- The five things that IAC can lead to. -/
theorem lead_cases (s : Split) (b : UInt8) :
    (b = iac ∧ s.lead b = s.finish .doubled) ∨
      (∃ v : Verb, b = v.byte ∧ s.lead b = { s with rest := .verb v }) ∨
      (b = sb ∧ s.lead b = { s with rest := .sub [] }) ∨
      (b = brk ∧ s.lead b = s.finish .breakSignal) ∨
      ∃ h : IsOther b, s.lead b = s.finish (.other b h) := by
  by_cases ho : IsOther b
  · exact .inr (.inr (.inr (.inr ⟨ho, lead_other s ho⟩)))
  by_cases hi : b = iac
  · subst hi
    exact .inl ⟨rfl, rfl⟩
  cases hv : Verb.ofByte? b with
  | some v =>
    obtain rfl := Verb.byte_of_ofByte? hv
    exact .inr (.inl ⟨v, rfl, lead_verb s v⟩)
  | none =>
    by_cases hs : b = sb
    · subst hs
      exact .inr (.inr (.inl ⟨rfl, rfl⟩))
    · have hb : b = brk := Decidable.not_not.1 fun hb => ho ⟨hi, hv, hs, hb⟩
      subst hb
      exact .inr (.inr (.inr (.inl ⟨rfl, rfl⟩)))

theorem bytes_push (s : Split) (b : UInt8) : (s.push b).bytes = s.bytes ++ [b] := by
  obtain ⟨items, rest⟩ := s
  cases rest with
  | nothing =>
    by_cases h : b = iac <;> simp [push, h, finish, bytes, Unfinished.bytes, Item.bytes]
  | command =>
    simp only [push]
    rcases lead_cases ⟨items, .command⟩ b with
      ⟨rfl, h⟩ | ⟨v, rfl, h⟩ | ⟨rfl, h⟩ | ⟨rfl, h⟩ | ⟨ho, h⟩ <;>
      simp [h, finish, bytes, Unfinished.bytes, Item.bytes]
  | verb v => simp [push, finish, bytes, Unfinished.bytes, Item.bytes]
  | sub body => by_cases h : b = iac <;> simp [push, h, bytes, Unfinished.bytes, Enclosed.bytes]
  | subCommand body =>
    by_cases h : b = se <;>
      simp [push, h, finish, bytes, Unfinished.bytes, Item.bytes, Enclosed.bytes]

theorem bytes_foldl_push (s : Split) (bytes : List UInt8) :
    (bytes.foldl push s).bytes = s.bytes ++ bytes := by
  induction bytes generalizing s with
  | nil => exact (List.append_nil _).symm
  | cons b bs ih => rw [List.foldl_cons, ih, bytes_push, List.append_assoc, List.singleton_append]

/-- The parser stands where the unfinished item is, and gives out what gets finished. -/
structure Tracks (s s' : Split) (r : Parser × List Event) : Prop where
  parser : r.1 = s'.rest.parser
  events : s'.events = s.events ++ r.2

theorem step_push (s : Split) (b : UInt8) : Tracks s (s.push b) (s.rest.parser.step b) := by
  obtain ⟨items, rest⟩ := s
  cases rest with
  | nothing =>
    by_cases h : b = iac <;> constructor <;>
      simp [push, h, finish, events, Item.event, Unfinished.parser, Parser.step]
  | command =>
    simp only [push, Unfinished.parser]
    rcases lead_cases ⟨items, .command⟩ b with
      ⟨rfl, h⟩ | ⟨v, rfl, h⟩ | ⟨rfl, h⟩ | ⟨rfl, h⟩ | ⟨ho, h⟩
    · constructor <;> simp [h, finish, events, Item.event, Unfinished.parser, Parser.step]
    · rw [h]
      cases v <;> exact ⟨rfl, (List.append_nil _).symm⟩
    · rw [h]
      exact ⟨rfl, (List.append_nil _).symm⟩
    · rw [h]
      exact ⟨rfl, List.map_append⟩
    · obtain ⟨hi, hv, hs, hb⟩ := ho
      constructor <;>
        simp [h, finish, events, Item.event, Unfinished.parser, Parser.step, hi, hv, hs, hb]
  | verb v => exact ⟨rfl, List.map_append⟩
  | sub body =>
    by_cases h : b = iac <;> constructor <;>
      simp [push, h, events, Unfinished.parser, Parser.step, Enclosed.byte]
  | subCommand body =>
    by_cases h : b = se <;> constructor <;>
      simp [push, h, finish, events, Item.event, Unfinished.parser, Parser.step, Enclosed.byte]

theorem feed_foldl_push (s : Split) (bytes : List UInt8) :
    Tracks s (bytes.foldl push s) (s.rest.parser.feed bytes) := by
  induction bytes generalizing s with
  | nil => exact ⟨rfl, (List.append_nil _).symm⟩
  | cons b bs ih =>
    obtain ⟨hp, he⟩ := step_push s b
    obtain ⟨hp', he'⟩ := ih (s.push b)
    rw [Parser.feed_cons, hp, List.foldl_cons]
    exact ⟨hp', by rw [he', he, List.append_assoc]⟩

theorem foldl_push_body (items : List Item) (done body : List Enclosed) :
    (body.flatMap Enclosed.bytes).foldl push ⟨items, .sub done⟩ = ⟨items, .sub (done ++ body)⟩ := by
  induction body generalizing done with
  | nil => rw [List.append_nil]; rfl
  | cons x body ih =>
    have hx : x.bytes.foldl push ⟨items, .sub done⟩ = ⟨items, .sub (done ++ [x])⟩ := by
      cases x with
      | plain b h => simp [Enclosed.bytes, push, h]
      | marked b h => simp [Enclosed.bytes, push, h]
    rw [List.flatMap_cons, List.foldl_append, hx, ih, List.append_assoc, List.singleton_append]

theorem foldl_push_item (items : List Item) (i : Item) :
    i.bytes.foldl push ⟨items, .nothing⟩ = ⟨items ++ [i], .nothing⟩ := by
  cases i with
  | plain b h => simp [Item.bytes, push, h, finish]
  | doubled => rfl
  | negotiate v o => simp [Item.bytes, push, lead_verb, finish]
  | breakSignal => rfl
  | subnegotiation body =>
    have hsub : push (push ⟨items, .nothing⟩ iac) sb = ⟨items, .sub []⟩ := rfl
    rw [Item.bytes, List.cons_append, List.cons_append, List.foldl_cons, List.foldl_cons, hsub,
      List.foldl_append, foldl_push_body]
    rfl
  | other b h => simp [Item.bytes, push, lead_other _ h, finish]

theorem foldl_push_items (items rest : List Item) :
    (rest.flatMap Item.bytes).foldl push ⟨items, .nothing⟩ = ⟨items ++ rest, .nothing⟩ := by
  induction rest generalizing items with
  | nil => rw [List.append_nil]; rfl
  | cons i rest ih =>
    rw [List.flatMap_cons, List.foldl_append, foldl_push_item, ih, List.append_assoc,
      List.singleton_append]

theorem foldl_push_unfinished (items : List Item) (u : Unfinished) :
    u.bytes.foldl push ⟨items, .nothing⟩ = ⟨items, u⟩ := by
  have hsub : push (push ⟨items, .nothing⟩ iac) sb = ⟨items, .sub []⟩ := rfl
  cases u with
  | nothing => rfl
  | command => rfl
  | verb v => exact lead_verb _ v
  | sub body => rw [Unfinished.bytes, List.foldl_cons, List.foldl_cons, hsub, foldl_push_body]; rfl
  | subCommand body =>
    rw [Unfinished.bytes, List.cons_append, List.cons_append, List.foldl_cons, List.foldl_cons,
      hsub, List.foldl_append, foldl_push_body]
    rfl

theorem ofBytes_bytes (s : Split) : ofBytes s.bytes = s := by
  rw [ofBytes, bytes, List.foldl_append, foldl_push_items, foldl_push_unfinished]
  rfl

theorem bytes_ofBytes (bytes : List UInt8) : (ofBytes bytes).bytes = bytes :=
  bytes_foldl_push _ bytes

theorem existsUnique (bytes : List UInt8) : ∃! s : Split, s.bytes = bytes := by
  refine ⟨ofBytes bytes, bytes_ofBytes bytes, ?_⟩
  intro s hs
  rw [← hs, ofBytes_bytes]

theorem feed_bytes (s : Split) : Parser.data.feed s.bytes = (s.rest.parser, s.events) := by
  have h := feed_foldl_push ⟨[], .nothing⟩ s.bytes
  have hs : s.bytes.foldl push ⟨[], .nothing⟩ = s := ofBytes_bytes s
  rw [hs] at h
  exact Prod.ext h.parser h.events.symm

end Split

def Command.bytes : Command → List UInt8
  | negotiate v o => negotiation v o
  | breakSignal => breakBytes
  | subnegotiation payload => iac :: sb :: escape payload ++ [iac, se]
  | other b => [iac, b]

def Event.bytes : Event → List UInt8
  | data b => escape [b]
  | command c => c.bytes

/-- Only a byte without a meaning of its own can be a command of one byte. -/
def Event.IsSendable : Event → Prop
  | command (.other b) => IsOther b
  | data _ | command _ => True

theorem Event.IsSendable.item {e : Event} (h : e.IsSendable) :
    ∃ i : Item, i.bytes = e.bytes ∧ i.event = e := by
  cases e with
  | data b =>
    by_cases hb : b = iac
    · subst hb
      exact ⟨.doubled, rfl, rfl⟩
    · exact ⟨.plain b hb, by simp [Item.bytes, Event.bytes, escape, hb], rfl⟩
  | command c =>
    cases c with
    | negotiate v o => exact ⟨.negotiate v o, rfl, rfl⟩
    | breakSignal => exact ⟨.breakSignal, rfl, rfl⟩
    | subnegotiation payload =>
      refine ⟨.subnegotiation (payload.map .ofByte), ?_, ?_⟩
      · rw [Item.bytes, Enclosed.flatMap_bytes_ofByte]
        rfl
      · rw [Item.event, List.map_map, Enclosed.byte_comp_ofByte, List.map_id]
    | other b => exact ⟨.other b h, rfl, rfl⟩

theorem exists_items {es : List Event} (h : ∀ e ∈ es, e.IsSendable) :
    ∃ items : List Item, items.flatMap Item.bytes = es.flatMap Event.bytes ∧
      items.map Item.event = es := by
  induction es with
  | nil => exact ⟨[], rfl, rfl⟩
  | cons e es ih =>
    obtain ⟨i, hb, he⟩ := (h e List.mem_cons_self).item
    obtain ⟨items, hbs, hes⟩ := ih fun e he => h e (List.mem_cons_of_mem _ he)
    exact ⟨i :: items, by rw [List.flatMap_cons, List.flatMap_cons, hb, hbs],
      by rw [List.map_cons, he, hes]⟩

namespace Parser

/-- Feed one piece after the other. -/
def feedAll (p : Parser) : List (List UInt8) → Parser × List Event
  | [] => (p, [])
  | bytes :: pieces =>
    let (p, es) := p.feed bytes
    let (p, fs) := p.feedAll pieces
    (p, es ++ fs)

theorem feedAll_eq (p : Parser) (pieces : List (List UInt8)) :
    p.feedAll pieces = p.feed pieces.flatten := by
  induction pieces generalizing p with
  | nil => rfl
  | cons bytes pieces ih => rw [List.flatten_cons, feed_append, ← ih]; rfl

end Parser

/-- However a stream is cut into pieces: there is one split of it, the parser finds that split, and
what was written down as data and commands is read back. -/
theorem grammar_exact (pieces : List (List UInt8)) :
    (∃! s : Split, s.bytes = pieces.flatten) ∧
      (∀ s : Split, s.bytes = pieces.flatten →
        Parser.data.feedAll pieces = (s.rest.parser, s.events)) ∧
      ∀ es : List Event, (∀ e ∈ es, e.IsSendable) → es.flatMap Event.bytes = pieces.flatten →
        Parser.data.feedAll pieces = (.data, es) := by
  have hsplit (s : Split) (hs : s.bytes = pieces.flatten) :
      Parser.data.feedAll pieces = (s.rest.parser, s.events) := by
    rw [Parser.feedAll_eq, ← hs, s.feed_bytes]
  refine ⟨Split.existsUnique _, hsplit, ?_⟩
  intro es hsend hes
  obtain ⟨items, hbytes, hevents⟩ := exists_items hsend
  have hs : (⟨items, .nothing⟩ : Split).bytes = pieces.flatten := by
    rw [← hes, ← hbytes]
    exact List.append_nil _
  rw [hsplit _ hs, Split.events, hevents]
  rfl

/-- A subnegotiation with a byte of value 255 in it, cut in three places, and a command that has
only begun. -/
theorem grammar_exact_cut :
    Parser.data.feedAll [[65, 255], [250, 24, 255], [255, 255], [240, 255]] =
        (.command, [.data 65, .command (.subnegotiation [24, 255])]) ∧
      Parser.data.feedAll [[65, 255], [250, 24, 255], [255, 255], [240]] =
        (.data, [.data 65, .command (.subnegotiation [24, 255])]) :=
  ⟨(grammar_exact _).2.1 ⟨[.plain 65 (by decide), .subnegotiation
      [.plain 24 (by decide), .marked 255 (by decide)]], .command⟩ rfl,
    (grammar_exact _).2.2 [.data 65, .command (.subnegotiation [24, 255])]
      (by simp [Event.IsSendable]) rfl⟩

end Wirebench.Telnet

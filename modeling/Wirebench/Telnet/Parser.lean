import Wirebench.Telnet.Command

namespace Wirebench.Telnet

/-- What the parser has seen of the command it is in. -/
inductive Parser
  | data
  | command
  | verb (v : Verb)
  | sub (payload : List UInt8)
  | subCommand (payload : List UInt8)
  deriving DecidableEq, Repr

namespace Parser

def step : Parser → UInt8 → Parser × List Event
  | data, b => if b = iac then (command, []) else (data, [.data b])
  | command, b =>
    if b = iac then (data, [.data iac])
    else
      match Verb.ofByte? b with
      | some v => (verb v, [])
      | none =>
        if b = sb then (sub [], [])
        else if b = brk then (data, [.command .breakSignal])
        else (data, [.command (.other b)])
  | verb v, b => (data, [.command (.negotiate v b)])
  | sub payload, b => if b = iac then (subCommand payload, []) else (sub (payload ++ [b]), [])
  | subCommand payload, b =>
    if b = se then (data, [.command (.subnegotiation payload)]) else (sub (payload ++ [b]), [])

def feed (p : Parser) : List UInt8 → Parser × List Event
  | [] => (p, [])
  | b :: bs =>
    let (p, es) := p.step b
    let (p, fs) := p.feed bs
    (p, es ++ fs)

@[simp] theorem feed_nil (p : Parser) : p.feed [] = (p, []) := rfl

theorem feed_cons (p : Parser) (b : UInt8) (bs : List UInt8) :
    p.feed (b :: bs) =
      (((p.step b).1.feed bs).1, (p.step b).2 ++ ((p.step b).1.feed bs).2) := rfl

theorem feed_append (p : Parser) (xs ys : List UInt8) :
    p.feed (xs ++ ys) =
      (((p.feed xs).1.feed ys).1, (p.feed xs).2 ++ ((p.feed xs).1.feed ys).2) := by
  induction xs generalizing p with
  | nil => simp
  | cons b bs ih => simp [feed_cons, ih]

end Parser

end Wirebench.Telnet

import Wirebench.CommandLine.Escape

namespace Wirebench.CommandLine

inductive ArgumentError
  | missingDescriptor
  | unknownArgument
  | repeatedOption
  | invalidValue
  | missingValue
  | surplusValue
  | helpRequested
  deriving DecidableEq, Repr

structure Arguments where
  nearSide : String
  farSide : String
  accept : Bool
  escape : Option UInt8
  timeoutMilliseconds : UInt64
  verbose : Bool
  deriving DecidableEq, Repr

def defaultTimeoutMilliseconds : UInt64 := 5000

inductive Flag
  | accept
  | verbose
  | help
  deriving DecidableEq, Repr

inductive ValueOption
  | escape
  | timeout
  deriving DecidableEq, Repr

inductive Opt
  | flag (f : Flag)
  | value (v : ValueOption)
  deriving DecidableEq, Repr

def longOption? (name : List Char) : Option Opt :=
  if name = "accept".toList then some (.flag .accept)
  else if name = "verbose".toList then some (.flag .verbose)
  else if name = "help".toList then some (.flag .help)
  else if name = "escape".toList then some (.value .escape)
  else if name = "timeout-ms".toList then some (.value .timeout)
  else none

def shortOption? (c : Char) : Option Opt :=
  if c = 'a' then some (.flag .accept)
  else if c = 'v' then some (.flag .verbose)
  else if c = 'h' then some (.flag .help)
  else if c = 'e' then some (.value .escape)
  else none

/-- What has been read so far. An option that waits for its value, or whose value has not been
looked at, is `pending`. -/
structure Reading where
  descriptors : List String
  accept : Bool
  verbose : Bool
  escape : Option UInt8
  timeout : Option UInt64
  pending : Option (ValueOption × Option (List Char))
  deriving DecidableEq, Repr

namespace Reading

def start : Reading := ⟨[], false, false, none, none, none⟩

/-- Take the value of an option, which may be given once. -/
def setValue (r : Reading) (v : ValueOption) (text : List Char) : Except ArgumentError Reading :=
  match v with
  | .escape =>
    if r.escape.isSome then .error .repeatedOption
    else
      match parseEscape text with
      | .ok b => .ok { r with escape := some b }
      | .error _ => .error .invalidValue
  | .timeout =>
    if r.timeout.isSome then .error .repeatedOption
    else
      match Text.decimal? (UInt64.size - 1) text with
      | some n => .ok { r with timeout := some (UInt64.ofNat n) }
      | none => .error .invalidValue

def resolve (r : Reading) : Except ArgumentError Reading :=
  match r.pending with
  | none => .ok r
  | some (_, none) => .error .missingValue
  | some (v, some text) => { r with pending := none }.setValue v text

def setFlag (r : Reading) (f : Flag) : Except ArgumentError Reading := do
  let r ← r.resolve
  match f with
  | .accept => if r.accept then .error .repeatedOption else .ok { r with accept := true }
  | .verbose => if r.verbose then .error .repeatedOption else .ok { r with verbose := true }
  | .help => .error .helpRequested

def setOption (r : Reading) (v : ValueOption) (attached : Option (List Char)) :
    Except ArgumentError Reading := do
  let r ← r.resolve
  match attached with
  | some text => r.setValue v text
  | none => .ok { r with pending := some (v, none) }

def long (r : Reading) (text : List Char) : Except ArgumentError Reading :=
  let name := text.takeWhile (· ≠ '=')
  let attached : Option (List Char) :=
    match text.dropWhile (· ≠ '=') with
    | [] => none
    | _ :: value => some value
  match longOption? name, attached with
  | none, _ => .error .unknownArgument
  | some (.flag _), some _ => .error .surplusValue
  | some (.flag f), none => r.setFlag f
  | some (.value v), _ => r.setOption v attached

/-- Options with one dash; the first that takes a value takes the rest as its value. -/
def short (r : Reading) : List Char → Except ArgumentError Reading
  | [] => .ok r
  | c :: cs =>
    match shortOption? c with
    | none => .error .unknownArgument
    | some (.flag f) => do (← r.setFlag f).short cs
    | some (.value v) =>
      r.setOption v
        (match cs with
          | [] => none
          | '=' :: value => some value
          | value => some value)

/-- A descriptor; there is room for two. -/
def descriptor (r : Reading) (text : List Char) : Except ArgumentError Reading :=
  if 2 ≤ r.descriptors.length then .error .unknownArgument
  else do
    let r ← r.resolve
    .ok { r with descriptors := r.descriptors ++ [String.ofList text] }

def argument (r : Reading) (text : List Char) : Except ArgumentError Reading :=
  match text with
  | '-' :: '-' :: name => r.long name
  | '-' :: c :: cs => r.short (c :: cs)
  | _ =>
    match r.pending with
    | some (v, none) => .ok { r with pending := some (v, some text) }
    | _ => r.descriptor text

/-- All arguments; after `--` each one is a descriptor. -/
def all : Reading → List (List Char) → Except ArgumentError Reading
  | r, [] => r.resolve
  | r, ['-', '-'] :: rest => do (← rest.foldlM descriptor r).resolve
  | r, text :: rest => do (← r.argument text).all rest

end Reading

def parseArguments (args : List String) : Except ArgumentError Arguments := do
  let r ← Reading.start.all (args.map String.toList)
  match r.descriptors with
  | [nearSide, farSide] =>
    .ok { nearSide, farSide, accept := r.accept, escape := r.escape,
          timeoutMilliseconds := r.timeout.getD defaultTimeoutMilliseconds, verbose := r.verbose }
  | _ => .error .missingDescriptor

end Wirebench.CommandLine

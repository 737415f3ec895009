import Wirebench.Script.Step

namespace Wirebench.Script

def portMark : String := "PORT"

def lastShownPort : Nat := 1023

def shownNumeral (digits : List Char) : List Char :=
  if (Text.decimal? lastShownPort digits).isSome then digits else portMark.toList

/-- Hide the ports that come right after one of the leads. The leads, and what has been shown so
far, are written backwards. -/
def maskChars (leads : List (List Char)) (seen : List Char) (cs : List Char) : List Char :=
  match cs with
  | [] => seen.reverse
  | c :: rest =>
    if c.isDigit ∧ leads.any (·.isPrefixOf seen) then
      let digits := rest.takeWhile Char.isDigit
      maskChars leads ((shownNumeral (c :: digits)).reverse ++ seen) (rest.drop digits.length)
    else maskChars leads (c :: seen) rest
termination_by cs.length
decreasing_by all_goals simp only [List.length_cons, List.length_drop]; omega

/-- What comes before the ports of a host's own addresses. -/
def addressLeads : List String :=
  ["127.0.0.1,", "127.0.0.1:", "0.0.0.0,", "0.0.0.0:", "localhost,", "localhost:"]

/-- Hide the ports of addresses in all texts of a report, and those after some more leads. -/
def maskReport (more : List String) (j : Json) : Json :=
  let leads := (addressLeads ++ more).map (·.toList.reverse)
  j.mapStrings fun s => String.ofList (maskChars leads [] s.toList)

/-- The fields of a report, in which a given port is shown by the mark. -/
def hidePort (port : Option UInt16) (fields : List (String × Json)) : List (String × Json) :=
  match port with
  | none => fields
  | some p => fields.map fun (key, v) =>
    match v with
    | .integer n => (key, if key = "port" ∧ n = p.toNat then .string portMark else .integer n)
    | .string s =>
      let own : Bool := key = "value" ∧ s = String.ofList (Text.decimal p.toNat)
      (key, .string (if own then portMark else s))
    | v => (key, v)

end Wirebench.Script

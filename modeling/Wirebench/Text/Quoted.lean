import Wirebench.Text.Numeral
import Wirebench.Text.Printed

namespace Wirebench.Text

def quotedChar (c : Char) : List Char :=
  if c = Char.ofNat 0 then ['\\', '0']
  else if c = '\t' then ['\\', 't']
  else if c = '\n' then ['\\', 'n']
  else if c = '\r' then ['\\', 'r']
  else if c = '"' then ['\\', '"']
  else if c = '\\' then ['\\', '\\']
  else if isPrinted c then [c]
  else "\\u\x7b".toList ++ hexadecimal c.toNat ++ "\x7d".toList

def quoted (cs : List Char) : List Char := '"' :: cs.flatMap quotedChar ++ ['"']

end Wirebench.Text

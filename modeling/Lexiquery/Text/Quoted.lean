import Lexiquery.Text.Extending
import Lexiquery.Text.Unprintable

/-! Texts between double quotes: what cannot be seen or would change what is before it is written as
an escape. -/

namespace Lexiquery.Quoted

def numbered (c : Char) : List Char :=
  ['\\', 'u', '\x7b'] ++ Nat.toDigits 16 c.toNat ++ ['\x7d']

def encode (c : Char) : List Char :=
  if c = '"' then ['\\', '"']
  else if c = '\\' then ['\\', '\\']
  else if c = '\n' then ['\\', 'n']
  else if c = '\r' then ['\\', 'r']
  else if c = '\t' then ['\\', 't']
  else if c.toNat = 0 then ['\\', '0']
  else if CharSet.extending.contains c || CharSet.unprintable.contains c then numbered c
  else [c]

def text (s : String) : String :=
  String.ofList ('"' :: s.toList.flatMap encode ++ ['"'])

end Lexiquery.Quoted

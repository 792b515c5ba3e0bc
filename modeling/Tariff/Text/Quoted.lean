import Tariff.Text.Hex
import Tariff.Text.Hidden

namespace Tariff.Text.Quoted

-- `mark` is the quote around the text. The other kind of quote stands for itself.
def escape (mark c : Char) : List Char :=
  if c = '\x00' then ['\\', '0']
  else if c = '\t' then ['\\', 't']
  else if c = '\r' then ['\\', 'r']
  else if c = '\n' then ['\\', 'n']
  else if c = '\\' then ['\\', '\\']
  else if c = mark then ['\\', c]
  else if isHidden c then
    ['\\', 'u', '\x7b'] ++ Nat.toDigits 16 c.toNat ++ ['\x7d']
  else [c]

def text (s : String) : String :=
  String.ofList (['"'] ++ s.toList.flatMap (escape '"') ++ ['"'])

def char (c : Char) : String :=
  String.ofList (['\''] ++ escape '\'' c ++ ['\''])

end Tariff.Text.Quoted

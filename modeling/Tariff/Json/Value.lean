import Tariff.Text.Decimal
import Tariff.Text.Hex

namespace Tariff.Json

inductive Value
  | null
  | natural (n : Nat)
  | text (s : String)
  | list (items : List Value)
  | object (members : List (String × Value))

namespace Value

-- A quote, a backslash and control characters are escaped, nothing else is.
def escape (c : Char) : List Char :=
  if c = '"' then ['\\', '"']
  else if c = '\\' then ['\\', '\\']
  else if c = '\x08' then ['\\', 'b']
  else if c = '\t' then ['\\', 't']
  else if c = '\n' then ['\\', 'n']
  else if c = '\x0c' then ['\\', 'f']
  else if c = '\r' then ['\\', 'r']
  else if c.toNat < 0x20 then
    ['\\', 'u', '0', '0', Text.Hex.digit (c.toNat / 16), Text.Hex.digit (c.toNat % 16)]
  else [c]

def quoted (s : String) : List Char :=
  '"' :: s.toList.flatMap escape ++ ['"']

mutual

-- The text without any white space.
def compact : Value → List Char
  | .null => ['n', 'u', 'l', 'l']
  | .natural n => Text.Decimal.ofNat n
  | .text s => quoted s
  | .list items => '[' :: compactItems items ++ [']']
  | .object members => '\x7b' :: compactMembers members ++ ['\x7d']

def compactItems : List Value → List Char
  | [] => []
  | [item] => item.compact
  | item :: next :: rest => item.compact ++ ',' :: compactItems (next :: rest)

def compactMembers : List (String × Value) → List Char
  | [] => []
  | [(key, value)] => quoted key ++ ':' :: value.compact
  | (key, value) :: next :: rest =>
    quoted key ++ ':' :: value.compact ++ ',' :: compactMembers (next :: rest)

end

-- A new line, two spaces deeper for each container that is open.
def newLine (depth : Nat) : List Char :=
  '\n' :: List.replicate (2 * depth) ' '

mutual

-- The text with each item and each member on a line of its own. Empty containers stay short.
def pretty (depth : Nat) : Value → List Char
  | .list [] => ['[', ']']
  | .list (item :: items) =>
    '[' :: newLine (depth + 1) ++ prettyItems (depth + 1) (item :: items) ++ newLine depth ++ [']']
  | .object [] => ['\x7b', '\x7d']
  | .object (member :: members) =>
    '\x7b' :: newLine (depth + 1) ++ prettyMembers (depth + 1) (member :: members) ++
      newLine depth ++ ['\x7d']
  | .null => ['n', 'u', 'l', 'l']
  | .natural n => Text.Decimal.ofNat n
  | .text s => quoted s

def prettyItems (depth : Nat) : List Value → List Char
  | [] => []
  | [item] => item.pretty depth
  | item :: next :: rest =>
    item.pretty depth ++ ',' :: newLine depth ++ prettyItems depth (next :: rest)

def prettyMembers (depth : Nat) : List (String × Value) → List Char
  | [] => []
  | [(key, value)] => quoted key ++ ':' :: ' ' :: value.pretty depth
  | (key, value) :: next :: rest =>
    quoted key ++ ':' :: ' ' :: value.pretty depth ++ ',' :: newLine depth ++
      prettyMembers depth (next :: rest)

end

def compactText (v : Value) : String :=
  String.ofList v.compact

def prettyText (v : Value) : String :=
  String.ofList (v.pretty 0)

end Value

end Tariff.Json

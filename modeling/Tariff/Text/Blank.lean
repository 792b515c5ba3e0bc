namespace Tariff.Text

-- The characters with the Unicode property `White_Space`. The zero-width characters and the
-- byte order mark are not among them.
def isBlank (c : Char) : Bool :=
  let n := c.toNat
  (9 ≤ n && n ≤ 13) || n == 0x20 || n == 0x85 || n == 0xA0 || n == 0x1680 ||
    (0x2000 ≤ n && n ≤ 0x200A) || n == 0x2028 || n == 0x2029 || n == 0x202F ||
    n == 0x205F || n == 0x3000

def trimLeft (cs : List Char) : List Char :=
  cs.dropWhile isBlank

-- Blanks are dropped at both ends and kept inside.
def trim (cs : List Char) : List Char :=
  (trimLeft (trimLeft cs).reverse).reverse

-- The pieces between separators. There is always one more piece than there are separators, so
-- the empty text is one empty piece.
def splitOn (sep : Char → Bool) : List Char → List (List Char)
  | [] => [[]]
  | c :: cs =>
    if sep c then [] :: splitOn sep cs
    else
      match splitOn sep cs with
      | [] => [[c]]
      | piece :: pieces => (c :: piece) :: pieces

-- The maximal runs of characters that are not blank.
def words (cs : List Char) : List (List Char) :=
  (splitOn isBlank cs).filter (!·.isEmpty)

-- A line ends at a line feed, and a carriage return right before it belongs to the ending.
def chomp (line : List Char) : List Char :=
  match line.reverse with
  | '\r' :: rest => rest.reverse
  | _ => line

-- Every piece but the last was ended by a line feed. A last piece that is empty is no line.
def chompAll : List (List Char) → List (List Char)
  | [] => []
  | [last] => if last.isEmpty then [] else [last]
  | line :: next :: rest => chomp line :: chompAll (next :: rest)

def lines (cs : List Char) : List (List Char) :=
  chompAll (splitOn (· == '\n') cs)

end Tariff.Text

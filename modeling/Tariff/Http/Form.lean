import Tariff.Text.Blank
import Tariff.Text.Decimal
import Tariff.Text.Hex
import Tariff.Text.Utf8

namespace Tariff.Http

-- An escape is a percent sign and two hexadecimal digits. Anything else stands for itself.
def unescape : List UInt8 → List UInt8
  | [] => []
  | 0x25 :: high :: low :: rest =>
    match Text.Hex.value? (Char.ofNat high.toNat), Text.Hex.value? (Char.ofNat low.toNat) with
    | some h, some l => UInt8.ofNat (16 * h + l) :: unescape rest
    | _, _ => 0x25 :: unescape (high :: low :: rest)
  | b :: rest => b :: unescape rest

-- A part of a path. Escapes have to give text.
def pathPart? (cs : List Char) : Option String :=
  Text.Utf8.decode? (unescape (Text.Utf8.encode (String.ofList cs)))

-- A part of a query: a plus sign is a blank, and bytes that are no text are replaced.
def queryPart (cs : List Char) : String :=
  let spaced := cs.map fun c => if c = '+' then ' ' else c
  Text.Utf8.decodeLossy (unescape (Text.Utf8.encode (String.ofList spaced)))

-- The pairs of a query, in their order. Empty pieces are skipped, and a piece without an equals
-- sign has an empty value.
def pairs (query : List Char) : List (String × String) :=
  ((Text.splitOn (· == '&') query).filter (!·.isEmpty)).map fun piece =>
    (queryPart (piece.takeWhile (· != '=')), queryPart ((piece.dropWhile (· != '=')).drop 1))

-- Who buys how much, as a query says it.
structure Query where
  buyer : Option String
  units : Option String
deriving DecidableEq, Repr

namespace Query

-- The value of a name that may be given once at most: the outer option is the rule, the inner one
-- says whether it was given.
def single? (name : String) (ps : List (String × String)) : Option (Option String) :=
  match ps.filter (·.1 == name) with
  | [] => some none
  | [(_, value)] => some (some value)
  | _ => none

-- Buyer and units, both optional. Other names do not matter.
def read? (query : List Char) : Option Query := do
  let ps := pairs query
  let buyer ← single? "buyer" ps
  let units ← single? "units" ps
  some ⟨buyer, units⟩

-- The same with the index of a currency, which has to be given.
def readIndexed? (query : List Char) : Option (Nat × Query) := do
  let given ← single? "currency_index" (pairs query)
  let value ← given
  let index ← Text.Decimal.unsigned? (Nat.pow 2 64) value.toList
  let q ← read? query
  some (index, q)

end Query

end Tariff.Http

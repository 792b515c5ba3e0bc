import Tariff.Text.Blank

namespace Tariff.Http

-- The number of an asset is kept as it is written.
inductive Route
  | health
  | assets
  | asset (id : List Char)
  | price (id : List Char)
  | cost (id : List Char)
  | quote (id : List Char)
deriving DecidableEq, Repr

namespace Route

-- Parts are compared before escapes are read, so an escaped name is no name. A path that ends in a
-- slash leads nowhere, but in front of a name the number may be missing, and then it is no number.
def ofParts : List String → Option Route
  | ["", "health"] => some .health
  | ["", "api", "assets"] => some .assets
  | ["", "api", "assets", id] => if id.isEmpty then none else some (.asset id.toList)
  | ["", "api", "assets", id, "price"] => some (.price id.toList)
  | ["", "api", "assets", id, "cost"] => some (.cost id.toList)
  | ["", "api", "assets", id, "quote"] => some (.quote id.toList)
  | _ => none

def ofPath (path : List Char) : Option Route :=
  ofParts ((Text.splitOn (· == '/') path).map String.ofList)

-- The methods of a route, as its responses list them.
def allow : Route → String
  | .assets => "GET,HEAD,POST"
  | _ => "GET,HEAD"

end Route

end Tariff.Http

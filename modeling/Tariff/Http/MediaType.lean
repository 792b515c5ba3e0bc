namespace Tariff.Http.MediaType

-- The characters of names.
def isToken (c : Char) : Bool :=
  c.isAlphanum || "!#$%&'*+-.^_`|~".toList.contains c

-- What a quoted value may hold.
def isQuotable (c : Char) : Bool :=
  31 < c.toNat && c.toNat != 127

-- Where the reading of a parameter stands.
inductive Stage
  -- Before a name; blanks are skipped.
  | start
  | name
  -- Right after the equals sign.
  | valueStart
  | value
  -- Inside quotes; the flag says whether anything has been read.
  | quoted (begun : Bool)
  -- After a closing quote.
  | closed
deriving DecidableEq, Repr

-- The parameters after the first semicolon. A name needs a value, and a value may not be empty
-- unless it ends the text.
def parametersOk : Stage → List Char → Bool
  | .start, [] => true
  | .name, [] => false
  | .valueStart, [] => true
  | .value, [] => true
  | .quoted _, [] => false
  | .closed, [] => true
  | .start, c :: rest =>
    if c = ' ' then parametersOk .start rest
    else if isToken c then parametersOk .name rest
    else false
  | .name, c :: rest =>
    if isToken c then parametersOk .name rest
    else if c = '=' then parametersOk .valueStart rest
    else false
  | .valueStart, c :: rest =>
    if c = '"' then parametersOk (.quoted false) rest
    else if isToken c then parametersOk .value rest
    else false
  | .value, c :: rest =>
    if isToken c then parametersOk .value rest
    else if c = ';' then parametersOk .start rest
    else false
  | .quoted begun, c :: rest =>
    if c = '"' && begun then parametersOk .closed rest
    else if isQuotable c then parametersOk (.quoted true) rest
    else false
  | .closed, c :: rest =>
    if c = ';' then parametersOk .start rest
    else if c = ' ' then parametersOk .closed rest
    else false

-- The subtype up to its last plus sign, and the suffix after it. A plus sign in front is part of
-- the name.
def splitSuffix (subtype : List Char) : List Char × Option (List Char) :=
  let suffix := (subtype.reverse.takeWhile (· != '+')).reverse
  let stem := subtype.take (subtype.length - suffix.length - 1)
  if suffix.length < subtype.length ∧ !stem.isEmpty then (stem, some suffix) else (subtype, none)

-- `application/json`, or a type of application with the suffix `json`, in any letter case.
def isJson (s : String) : Bool :=
  let cs := s.toList
  let type := cs.takeWhile isToken
  let afterSlash := (cs.dropWhile isToken).drop 1
  let subtype := afterSlash.takeWhile isToken
  let tail := afterSlash.dropWhile isToken
  let shapeOk := cs.all (fun c => 32 ≤ c.toNat && c.toNat < 127) &&
    (cs.dropWhile isToken).head? == some '/' && !type.isEmpty && !subtype.isEmpty &&
    match tail with
    | [] => true
    | ';' :: rest => parametersOk .start rest
    | _ => false
  let (stem, suffix) := splitSuffix (subtype.map Char.toLower)
  shapeOk && type.map Char.toLower == "application".toList &&
    (stem == "json".toList || suffix == some "json".toList)

end Tariff.Http.MediaType

import Tariff.Json.Value

namespace Tariff.Http

structure Request where
  method : String
  -- A path and what follows it, with or without a scheme and an authority in front.
  target : String
  contentType : Option String
  body : String
deriving DecidableEq, Repr

inductive Body
  | empty
  | text (s : String)
  | json (value : Json.Value)

structure Response where
  status : Nat
  -- By lower-case names.
  headers : List (String × String)
  body : Body

namespace Request

def isSchemeChar (c : Char) : Bool :=
  c.isAlphanum || c == '+' || c == '-' || c == '.' || c == '~'

def endsAuthority (c : Char) : Bool :=
  c == '/' || c == '?' || c == '#'

-- The target from its path on: a target that names a scheme and an authority has them in front.
-- Without a scheme a target that starts with no slash is an authority and nothing else.
def fromPath (target : List Char) : Option (List Char) :=
  match target with
  | '/' :: _ => some target
  | ['*'] => some target
  | _ =>
    match target.dropWhile isSchemeChar with
    | ':' :: '/' :: '/' :: rest => some (rest.dropWhile (!endsAuthority ·))
    | _ => none

-- The path and the query. A fragment is not part of what is asked for.
def visible (r : Request) : Option (List Char) :=
  (fromPath r.target.toList).map (·.takeWhile (· != '#'))

-- Behind an authority an empty path is the same as a slash.
def path (r : Request) : List Char :=
  match r.visible with
  | none => []
  | some cs =>
    match cs.takeWhile (· != '?') with
    | [] => ['/']
    | path => path

-- Without a question mark the query is empty.
def query (r : Request) : List Char :=
  ((r.visible.getD []).dropWhile (· != '?')).drop 1

end Request

namespace Response

-- Every origin may read every response.
def anyOrigin : String × String :=
  ("access-control-allow-origin", "*")

def plain (status : Nat) (s : String) : Response :=
  ⟨status, [("content-type", "text/plain; charset=utf-8"), anyOrigin], .text s⟩

def json (status : Nat) (value : Json.Value) : Response :=
  ⟨status, [("content-type", "application/json"), anyOrigin], .json value⟩

def error (status : Nat) (reason : String) : Response :=
  json status (.object [("error", .text reason)])

def withoutBody (r : Response) : Response :=
  { r with body := .empty }

end Response

end Tariff.Http

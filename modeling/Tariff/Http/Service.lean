import Tariff.Document.Price
import Tariff.Document.Registration
import Tariff.Http.Form
import Tariff.Http.MediaType
import Tariff.Http.Message
import Tariff.Http.Route
import Tariff.Journal

namespace Tariff.Http.Service

open Json (Value)

-- An unknown asset is not found, everything else is a bad request.
def refusal (e : PricingError) : Response :=
  match e with
  | .unknownAsset _ => .error 404 e.message
  | _ => .error 400 e.message

def contextRefusal : Context.Error → Response
  | .buyer error => .error 400 ("Invalid buyer: " ++ error.message)
  | .units text => .error 400 ("Invalid units: " ++ text)

def assetMembers (a : Asset) : List (String × Value) :=
  [("id", .natural a.id), ("loot_box_id", .natural a.details.lootBoxId),
    ("name", .text a.details.name), ("description", .text a.details.description),
    ("recipient", Document.ofAddress a.details.recipient),
    ("token_uri", .text a.details.tokenUri),
    ("currencies", .list (a.currencies.map Document.ofCurrency)),
    ("source_count", .natural a.program.sources.length),
    ("constant_count", .natural a.program.constants.length),
    ("script_hash", .text a.fingerprint), ("registered_at", .text a.registeredAt.offsetText)]

def listAssets (c : Catalogue) : Response :=
  .json 200 (.list (c.assets.map fun a => .object (assetMembers a)))

def showAsset (c : Catalogue) (id : Nat) : Response :=
  match c.find id with
  | .ok asset => .json 200 (.object (assetMembers asset))
  | .error e => refusal e

def showPrice (c : Catalogue) (id index : Nat) (context : Context) : Response :=
  match c.price id index context with
  | .error e => refusal e
  | .ok price =>
    match (c.get? id).bind (·.currencies[index]?) with
    | none => refusal (.unknownAsset id)
    | some currency =>
      .json 200 (.object [("asset_id", .natural id), ("currency_index", .natural index),
        ("currency", Document.ofCurrency currency), ("price", .text price.text)])

def showCost (c : Catalogue) (id : Nat) (context : Context) : Response :=
  match c.cost id context with
  | .error e => refusal e
  | .ok cost => .json 200 (.object (("asset_id", .natural id) :: Document.costMembers cost))

def showQuote (c : Catalogue) (id index : Nat) (context : Context) : Response :=
  match c.quote id index context with
  | .error e => refusal e
  | .ok quote => .json 200 (.object (("asset_id", .natural id) :: Document.quoteMembers quote))

-- What a `GET` request asks for, once its path and its query have been read.
inductive Question
  | health
  | list
  | asset (id : Nat)
  | price (id index : Nat) (query : Query)
  | cost (id : Nat) (query : Query)
  | quote (id index : Nat) (query : Query)
deriving DecidableEq, Repr

def readId? (id : List Char) : Option Nat := do
  let text ← pathPart? id
  Text.Decimal.unsigned? (Nat.pow 2 64) text.toList

def question? (route : Route) (query : List Char) : Option Question :=
  match route with
  | .health => some .health
  | .assets => some .list
  | .asset id => (readId? id).map .asset
  | .price id => do
    let id ← readId? id
    let (index, q) ← Query.readIndexed? query
    some (.price id index q)
  | .cost id => do
    let id ← readId? id
    let q ← Query.read? query
    some (.cost id q)
  | .quote id => do
    let id ← readId? id
    let (index, q) ← Query.readIndexed? query
    some (.quote id index q)

-- The buyer and the units are read before the asset is looked up.
def withContext (q : Query) (answer : Context → Response) : Response :=
  match Context.ofTexts q.buyer q.units with
  | .error e => contextRefusal e
  | .ok context => answer context

def answer (c : Catalogue) : Question → Response
  | .health => .plain 200 "OK"
  | .list => listAssets c
  | .asset id => showAsset c id
  | .price id index q => withContext q (showPrice c id index)
  | .cost id q => withContext q (showCost c id)
  | .quote id index q => withContext q (showQuote c id index)

def get (c : Catalogue) (route : Route) (query : List Char) : Response :=
  match question? route query with
  | some question => answer c question
  | none => .plain 400 "Invalid path or query"

-- Bodies may not be longer than this, in bytes.
def bodyLimit : Nat := 2097152

-- A body that asks for a registration, or the response to one that does not.
def readBody (r : Request) : Except Response Registration :=
  if !(r.contentType.any MediaType.isJson) then
    .error (.plain 415 "Expected request with `Content-Type: application/json`")
  else if bodyLimit < r.body.utf8ByteSize then .error (.plain 413 "Body too large")
  else
    match Json.Reader.document Document.registration r.body with
    | .error .malformed => .error (.plain 400 "Malformed JSON")
    | .error (.mismatch m) => .error (.plain 422 m.message)
    | .ok registration => .ok registration

def offerOf (r : Request) : Except Response Offer := do
  let registration ← readBody r
  registration.toOffer.mapError fun e => .error 400 e.message

def post (c : Catalogue) (now : Timestamp) (r : Request) : Response × Catalogue :=
  match offerOf r with
  | .error response => (response, c)
  | .ok offer =>
    match c.register offer now with
    | .error e => (refusal e, c)
    | .ok (asset, c) =>
      -- the new asset is looked up for its fingerprint
      let fingerprint := ((c.get? asset.id).map (·.fingerprint)).getD ""
      (.json 201 (.object [("id", .natural asset.id), ("script_hash", .text fingerprint)]), c)

def notFound : Response :=
  .error 404 "Not Found"

def notAllowed (route : Route) : Response :=
  ⟨405, [("allow", route.allow), Response.anyOrigin], .empty⟩

-- Any method and any header may be used from anywhere.
def preflight (route : Option Route) : Response :=
  ⟨200, [Response.anyOrigin, ("access-control-allow-methods", "*"),
    ("access-control-allow-headers", "*")] ++
      (route.map fun r => ("allow", r.allow)).toList, .empty⟩

-- `HEAD` is `GET` without the body. A path that is not served is not found, whatever the method.
def respond (c : Catalogue) (now : Timestamp) (r : Request) : Response × Catalogue :=
  let route := Route.ofPath r.path
  if r.method = "OPTIONS" then (preflight route, c)
  else
    match route with
    | none => (if r.method = "HEAD" then notFound.withoutBody else notFound, c)
    | some route =>
      if r.method = "GET" then (get c route r.query, c)
      else if r.method = "HEAD" then ((get c route r.query).withoutBody, c)
      else if r.method = "POST" ∧ route = .assets then post c now r
      else (notAllowed route, c)

-- Responses to requests that are made one after the other.
def respondAll (now : Timestamp) : Catalogue → List Request → List Response × Catalogue
  | c, [] => ([], c)
  | c, r :: rest =>
    let (response, c) := respond c now r
    let (responses, c) := respondAll now c rest
    (response :: responses, c)

def questionJournal (c : Catalogue) (question : Question) : Journal :=
  let within (q : Query) (id : Nat) (notes : Context → Asset → Journal) : Journal :=
    match Context.ofTexts q.buyer q.units with
    | .error _ => []
    | .ok context => Journal.ofAsset c id (notes context)
  match question with
  | .health | .list | .asset _ => []
  | .price id index q => within q id fun context a => Journal.ofPrice a index context
  | .cost id q => within q id fun context a => Journal.ofEvaluation a context
  | .quote id index q => within q id fun context a => Journal.ofQuote a index context

-- What is noted while a request is answered.
def journal (c : Catalogue) (now : Timestamp) (r : Request) : Journal :=
  if r.method = "OPTIONS" then []
  else
    match Route.ofPath r.path with
    | none => [⟨.debug, "No route for " ++ String.ofList r.path⟩]
    | some route =>
      if r.method = "GET" ∨ r.method = "HEAD" then
        match question? route r.query with
        | some question => questionJournal c question
        | none => []
      else if r.method = "POST" ∧ route = .assets then
        match offerOf r with
        | .error _ => []
        | .ok offer => Journal.ofRegister c offer now
      else []

end Tariff.Http.Service

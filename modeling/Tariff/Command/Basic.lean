import Tariff.Command.Files
import Tariff.Document.Registration
import Tariff.Journal

namespace Tariff.Command

-- Why a command fails.
inductive Error
  | file (error : Files.Error)
  | document (error : Json.Error)
  | assembly (error : Assembly.Error)
  | address (error : Address.Error)
  | pricing (error : PricingError)
  | other (reason : String)
deriving DecidableEq

-- How a failed command is reported at the end. Faults of documents are not told apart.
def Error.report : Error → String
  | .file error => error.inspect
  | .document _ => "JSON"
  | .assembly error => error.inspect
  | .address error => error.inspect
  | .pricing error => error.inspect
  | .other reason => Text.Quoted.text reason

-- What was printed stays printed when a command fails.
structure Outcome (α : Type) where
  printed : String
  files : Files
  result : Except Error α

def printLines (lines : List String) : String :=
  String.join (lines.map (· ++ "\n"))

-- The buyer and the units of a command line.
def contextOf (buyer units : Option String) : Except Error Context :=
  (Context.ofTexts buyer units).mapError fun
    | .buyer error => .address error
    | .units text => .other ("Invalid units: " ++ text)

def loadOffers (files : Files) (path : String) : Except Error (List Offer) := do
  let text ← (files.readText path).mapError .file
  (Json.Reader.document Document.offers text).mapError .document

-- Registers offers in their order. The first refusal ends it, with the position of the offer.
def registerAll (now : Timestamp) : Nat → Catalogue → List Offer → Except Error Catalogue
  | _, c, [] => .ok c
  | position, c, o :: rest =>
    match c.register o now with
    | .error e => .error (.other (s!"Asset #{position} ({o.name}) rejected: " ++ e.message))
    | .ok (_, c) => registerAll now (position + 1) c rest

def load (files : Files) (path : String) (now : Timestamp) : Except Error Catalogue := do
  let offers ← loadOffers files path
  registerAll now 0 .empty offers

def compile (files : Files) (input : String) (output : Option String) : Outcome Program :=
  let start := "🔧 Compiling " ++ Text.Quoted.text input ++ "..."
  let assembled : Except Error Program := do
    let text ← (files.readText input).mapError .file
    (Assembly.assemble text).mapError .assembly
  match assembled with
  | .error e => ⟨printLines [start], files, .error e⟩
  | .ok program =>
    let json := (Document.ofProgram program).prettyText
    let sources := program.sources.length
    let constants := program.constants.length
    let counted := s!"   Compiled {sources} source(s), {constants} constant(s)"
    match output with
    | none => ⟨printLines [start, counted, json], files, .ok program⟩
    | some path =>
      match files.writeText path json with
      | .error e => ⟨printLines [start, counted], files, .error (.file e)⟩
      | .ok files =>
        let written := "✅ State config written to " ++ Text.Quoted.text path
        ⟨printLines [start, counted, written], files, .ok program⟩

def disassemble (files : Files) (input : String) : Outcome String :=
  let read : Except Error Program := do
    let text ← (files.readText input).mapError .file
    (Json.Reader.document Document.program text).mapError .document
  match read with
  | .error e => ⟨"", files, .error e⟩
  | .ok program =>
    let listing := program.listing
    let lines := (Text.lines listing.toList).map fun line => "   " ++ String.ofList line
    ⟨printLines (("📜 " ++ Text.Quoted.text input) :: lines), files, .ok listing⟩

def priceLines (currency : Option Currency) (id index : Nat) (context : Context)
    (price : Amount) : List String :=
  [s!"💰 Asset {id} price"] ++
    (currency.map fun c =>
      s!"   ├─ Currency #{index}: " ++ c.kind.name ++ " " ++ c.token.text ++ " (id " ++
        c.tokenId.text ++ ")").toList ++
    ["   ├─ Buyer: " ++ context.buyer.text, "   └─ Price: " ++ price.text]

def price (files : Files) (c : Catalogue) (id index : Nat) (context : Context) : Outcome Amount :=
  match c.price id index context with
  | .error e => ⟨"", files, .error (.pricing e)⟩
  | .ok price =>
    let currency := (c.get? id).bind (·.currencies[index]?)
    ⟨printLines (priceLines currency id index context price), files, .ok price⟩

def costLines (id : Nat) (cost : Cost) : List String :=
  [s!"💰 Asset {id} cost", "   ├─ Max units: " ++ cost.maxUnits.text] ++
    cost.pairs.mapIdx fun i pair =>
      let branch := if i + 1 = cost.pairs.length then "└─" else "├─"
      s!"   {branch} #{i}: price " ++ pair.price.text ++ " (max " ++ pair.maxUnits.text ++ ")"

def cost (files : Files) (c : Catalogue) (id : Nat) (context : Context) : Outcome Cost :=
  match c.cost id context with
  | .error e => ⟨"", files, .error (.pricing e)⟩
  | .ok cost => ⟨printLines (costLines id cost), files, .ok cost⟩

def quoteLines (id : Nat) (q : Quote) : List String :=
  [s!"🧾 Quote for asset {id}", s!"   ├─ Currency #{q.currencyIndex}",
    "   ├─ Units: " ++ q.units.text ++ " (max " ++ q.maxUnits.text ++ ")",
    "   ├─ Unit price: " ++ q.price.text, "   └─ Total: " ++ q.total.text]

def quote (files : Files) (c : Catalogue) (id index : Nat) (context : Context) : Outcome Quote :=
  match c.quote id index context with
  | .error e => ⟨"", files, .error (.pricing e)⟩
  | .ok quote => ⟨printLines (quoteLines id quote), files, .ok quote⟩

-- The notes of `registerAll`.
def registerJournal (now : Timestamp) : Catalogue → List Offer → Journal
  | _, [] => []
  | c, o :: rest =>
    match c.register o now with
    | .error _ => []
    | .ok (asset, c) => Journal.ofRegistration asset ++ registerJournal now c rest

def loadJournal (files : Files) (path : String) (now : Timestamp) : Journal :=
  match loadOffers files path with
  | .error _ => []
  | .ok offers =>
    registerJournal now .empty offers ++
      match registerAll now 0 .empty offers with
      | .error _ => []
      | .ok c => [⟨.info, s!"Loaded {c.size} assets from " ++ Text.Quoted.text path⟩]

end Tariff.Command

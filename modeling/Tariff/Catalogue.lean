import Tariff.Pricing

namespace Tariff

-- The assets under their numbers, the latest first, and the number that comes next. Numbers have no
-- bound here; a counter of 64 bits gives the same ones to the first 2^64 - 1 assets.
structure Catalogue where
  entries : List (Nat × Asset)
  nextId : Nat
deriving DecidableEq

namespace Catalogue

def firstId : Nat := 1

def empty : Catalogue := ⟨[], firstId⟩

instance : Inhabited Catalogue := ⟨empty⟩

def size (c : Catalogue) : Nat :=
  c.entries.length

def get? (c : Catalogue) (id : Nat) : Option Asset :=
  c.entries.lookup id

def contains (c : Catalogue) (id : Nat) : Bool :=
  c.entries.any (·.1 == id)

-- All assets by their own numbers, whatever the order of the entries.
def assets (c : Catalogue) : List Asset :=
  (c.entries.map (·.2)).mergeSort fun a b => decide (a.id ≤ b.id)

-- An entry with the same number would be replaced.
def insert (c : Catalogue) (id : Nat) (asset : Asset) : Catalogue :=
  { c with entries := (id, asset) :: c.entries.filter (·.1 != id) }

-- Offers are checked under a number that no asset has.
def unassignedId : Nat := 0

-- A number is taken only once the offer is accepted, so a refused offer uses up none.
def register (c : Catalogue) (o : Offer) (now : Timestamp) :
    Except PricingError (Asset × Catalogue) :=
  match o.accept unassignedId now with
  | .error error => .error error
  | .ok asset =>
    let asset := { asset with id := c.nextId }
    .ok (asset, { c.insert c.nextId asset with nextId := c.nextId + 1 })

def find (c : Catalogue) (id : Nat) : Except PricingError Asset :=
  match c.get? id with
  | some asset => .ok asset
  | none => .error (.unknownAsset id)

-- An unknown number is reported before anything else.
def price (c : Catalogue) (id index : Nat) (context : Context) : Except PricingError Amount := do
  let asset ← c.find id
  asset.price index context

def cost (c : Catalogue) (id : Nat) (context : Context) : Except PricingError Cost := do
  let asset ← c.find id
  asset.cost context

def quote (c : Catalogue) (id index : Nat) (context : Context) : Except PricingError Quote := do
  let asset ← c.find id
  asset.quote index context

end Catalogue

end Tariff

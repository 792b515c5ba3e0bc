import Tariff.Document.Basic
import Tariff.Pricing

namespace Tariff.Document

open Json (Reader Value Schema)

inductive PairField
  | maxUnits
  | price
deriving DecidableEq, Repr

def pairSchema : Schema where
  name := "PricePair"
  Field := PairField
  decEq := inferInstance
  fields := [.maxUnits, .price]
  mem_fields f := by cases f <;> decide
  key
    | .maxUnits => "max_units"
    | .price => "price"
  Content _ := Amount
  read _ := amount
  absent _ := .missing

def pair : Reader PricePair :=
  pairSchema.readerOf fun m => ⟨m .maxUnits, m .price⟩

def ofPair (p : PricePair) : Value :=
  .object [("max_units", ofAmount p.maxUnits), ("price", ofAmount p.price)]

inductive CostField
  | maxUnits
  | prices
  | pairs
deriving DecidableEq, Repr

def costSchema : Schema where
  name := "AssetCost"
  Field := CostField
  decEq := inferInstance
  fields := [.maxUnits, .prices, .pairs]
  mem_fields f := by cases f <;> decide
  key
    | .maxUnits => "max_units"
    | .prices => "prices"
    | .pairs => "pairs"
  Content
    | .maxUnits => Amount
    | .prices => List Amount
    | .pairs => List PricePair
  read
    | .maxUnits => amount
    | .prices => amounts
    | .pairs => Reader.list pair
  absent
    | .maxUnits => .missing
    | .prices => .missing
    | .pairs => .missing

def cost : Reader Cost :=
  costSchema.readerOf fun m => ⟨m .maxUnits, m .prices, m .pairs⟩

def costMembers (c : Cost) : List (String × Value) :=
  [("max_units", ofAmount c.maxUnits), ("prices", ofAmounts c.prices),
    ("pairs", .list (c.pairs.map ofPair))]

def ofCost (c : Cost) : Value :=
  .object (costMembers c)

inductive QuoteField
  | currencyIndex
  | units
  | maxUnits
  | price
  | total
deriving DecidableEq, Repr

def quoteSchema : Schema where
  name := "PurchaseQuote"
  Field := QuoteField
  decEq := inferInstance
  fields := [.currencyIndex, .units, .maxUnits, .price, .total]
  mem_fields f := by cases f <;> decide
  key
    | .currencyIndex => "currency_index"
    | .units => "units"
    | .maxUnits => "max_units"
    | .price => "price"
    | .total => "total"
  Content
    | .currencyIndex => Nat
    | .units => Amount
    | .maxUnits => Amount
    | .price => Amount
    | .total => Amount
  read
    | .currencyIndex => Reader.natural "usize"
    | .units => amount
    | .maxUnits => amount
    | .price => amount
    | .total => amount
  absent
    | .currencyIndex => .missing
    | .units => .missing
    | .maxUnits => .missing
    | .price => .missing
    | .total => .missing

def quote : Reader Quote :=
  quoteSchema.readerOf fun m =>
    ⟨m .currencyIndex, m .units, m .maxUnits, m .price, m .total⟩

def quoteMembers (q : Quote) : List (String × Value) :=
  [("currency_index", .natural q.currencyIndex), ("units", ofAmount q.units),
    ("max_units", ofAmount q.maxUnits), ("price", ofAmount q.price), ("total", ofAmount q.total)]

def ofQuote (q : Quote) : Value :=
  .object (quoteMembers q)

end Tariff.Document

import Tariff.Asset

namespace Tariff

-- How many units may be bought, and what one of them costs.
structure PricePair where
  maxUnits : Amount
  price : Amount
deriving DecidableEq

-- The prices in all currencies. The cap is the smallest of their caps.
structure Cost where
  maxUnits : Amount
  prices : List Amount
  pairs : List PricePair
deriving DecidableEq

-- What a purchase comes to.
structure Quote where
  currencyIndex : Nat
  units : Amount
  maxUnits : Amount
  price : Amount
  total : Amount
deriving DecidableEq

namespace PricePair

def pairUp : List Amount → List PricePair
  | maxUnits :: price :: rest => ⟨maxUnits, price⟩ :: pairUp rest
  | _ => []

-- Reads a final stack, bottom first. It has to hold exactly two values for each currency.
def ofStack (stack : List Amount) (count : Nat) : Except PricingError (List PricePair) :=
  if stack.length = 2 * count then .ok (pairUp stack)
  else .error (.malformedResult (2 * count) stack.length)

end PricePair

-- The smallest cap, zero when there is none.
def smallestCap : List PricePair → Amount
  | [] => .zero
  | pair :: rest => rest.foldl (fun cap pair => cap.min pair.maxUnits) pair.maxUnits

namespace Asset

-- The source that computes prices. It leaves a cap and a price for each currency, in their order.
def pricingSource : Nat := 0

def currency (a : Asset) (index : Nat) : Except PricingError Currency :=
  match a.currencies[index]? with
  | some currency => .ok currency
  | none => .error (.invalidCurrency index a.currencies.length)

def stack (a : Asset) (context : Context) : Except PricingError (List Amount) :=
  (a.program.run pricingSource context).mapError .run

def evaluate (a : Asset) (context : Context) : Except PricingError (List PricePair) := do
  let stack ← a.stack context
  PricePair.ofStack stack a.currencies.length

-- The index is checked before anything is run. A run that succeeds has a pair for every
-- currency, so the last case does not arise.
def pricePair (a : Asset) (index : Nat) (context : Context) : Except PricingError PricePair := do
  let _ ← a.currency index
  let pairs ← a.evaluate context
  match pairs[index]? with
  | some pair => .ok pair
  | none => .error (.invalidCurrency index a.currencies.length)

def price (a : Asset) (index : Nat) (context : Context) : Except PricingError Amount := do
  let pair ← a.pricePair index context
  .ok pair.price

def cost (a : Asset) (context : Context) : Except PricingError Cost := do
  let pairs ← a.evaluate context
  .ok ⟨smallestCap pairs, pairs.map (·.price), pairs⟩

def quote (a : Asset) (index : Nat) (context : Context) : Except PricingError Quote := do
  if context.units.isZero then throw .noUnits
  let pair ← a.pricePair index context
  if pair.maxUnits.toNat < context.units.toNat then
    throw (.insufficientStock context.units pair.maxUnits)
  match pair.price.mul? context.units with
  | none => .error (.paymentOverflow pair.price context.units)
  | some total => .ok ⟨index, context.units, pair.maxUnits, pair.price, total⟩

end Asset

end Tariff

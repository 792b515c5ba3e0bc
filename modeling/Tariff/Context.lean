import Tariff.Address

namespace Tariff

structure Context where
  buyer : Address
  units : Amount
deriving DecidableEq

namespace Context

-- The slots that a script can read, by their index.
def slot? (c : Context) (index : UInt8) : Option Amount :=
  if index = 0 then some c.buyer.toAmount
  else if index = 1 then some c.units
  else none

-- Which of the two texts is wrong.
inductive Error
  | buyer (error : Address.Error)
  | units (text : String)
deriving DecidableEq, Repr

def buyerOf : Option String → Except Error Address
  | none => .ok .zero
  | some s => (Address.ofText s).mapError .buyer

def unitsOf : Option String → Except Error Amount
  | none => .ok .one
  | some s =>
    match Amount.ofText? s with
    | some units => .ok units
    | none => .error (.units s)

-- Without a buyer the zero address buys, without units one is bought. The buyer is read first.
def ofTexts (buyer units : Option String) : Except Error Context := do
  let buyer ← buyerOf buyer
  let units ← unitsOf units
  .ok ⟨buyer, units⟩

end Context

end Tariff

import Tariff.Currency
import Tariff.Program.Fingerprint
import Tariff.Timestamp

namespace Tariff

-- Why a price cannot be given, or an offer cannot be accepted.
inductive PricingError
  | unknownAsset (id : Nat)
  | invalidCurrency (index count : Nat)
  | malformedResult (expected actual : Nat)
  | scriptBounds (source position : Nat) (index : UInt8) (poolSize : Nat)
  | noCurrencies
  | currencyMismatch (tokens tokenIds kinds : Nat)
  | noSource
  | insufficientStock (requested cap : Amount)
  | noUnits
  | paymentOverflow (price units : Amount)
  | run (error : Program.RunError)
deriving DecidableEq

namespace PricingError

def message : PricingError → String
  | .unknownAsset id => s!"Unknown asset: {id}"
  | .invalidCurrency _ _ => "invalid payment token"
  | .malformedResult expected actual =>
    s!"Malformed pricing script: expected {expected} stack values, got {actual}"
  | .scriptBounds source position index poolSize =>
    s!"Invalid script bounds: source {source} step {position} reads constant {index} " ++
      s!"(pool size {poolSize})"
  | .noCurrencies => "Empty currency list"
  | .currencyMismatch tokens tokenIds kinds =>
    s!"Currency list mismatch: {tokens} tokens, {tokenIds} ids, {kinds} types"
  | .noSource => "Asset has no pricing source"
  | .insufficientStock requested cap =>
    "Insufficient stock: requested " ++ requested.text ++ ", max " ++ cap.text
  | .noUnits => "Invalid units: must be greater than 0"
  | .paymentOverflow price units => "Payment overflow: " ++ price.text ++ " x " ++ units.text
  | .run error => "VM error: " ++ error.message

def inspect : PricingError → String
  | .unknownAsset id => s!"UnknownAsset({id})"
  | .invalidCurrency index count =>
    s!"InvalidPaymentToken \x7b index: {index}, count: {count} \x7d"
  | .malformedResult expected actual =>
    s!"MalformedPricingScript \x7b expected: {expected}, actual: {actual} \x7d"
  | .scriptBounds source position index poolSize =>
    s!"InvalidScriptBounds \x7b source_index: {source}, position: {position}, " ++
      s!"index: {index}, len: {poolSize} \x7d"
  | .noCurrencies => "EmptyCurrencyList"
  | .currencyMismatch tokens tokenIds kinds =>
    s!"CurrencyLengthMismatch \x7b tokens: {tokens}, ids: {tokenIds}, types: {kinds} \x7d"
  | .noSource => "MissingSource"
  | .insufficientStock requested cap =>
    "InsufficientStock \x7b requested: " ++ requested.text ++ ", max: " ++ cap.text ++ " \x7d"
  | .noUnits => "InvalidUnits"
  | .paymentOverflow price units =>
    "PaymentOverflow \x7b price: " ++ price.text ++ ", units: " ++ units.text ++ " \x7d"
  | .run error => "Vm(" ++ error.inspect ++ ")"

end PricingError

-- What is handed in for registration.
structure Offer where
  lootBoxId : Nat
  name : String
  description : String
  recipient : Address
  currencies : CurrencyTable
  tokenUri : String
  program : Program
deriving DecidableEq

-- What is said about an asset and plays no part in its price.
structure Details where
  lootBoxId : Nat
  name : String
  description : String
  recipient : Address
  tokenUri : String
deriving DecidableEq

structure Asset where
  id : Nat
  details : Details
  currencies : List Currency
  program : Program
  fingerprint : String
  registeredAt : Timestamp
deriving DecidableEq

namespace Offer

def details (o : Offer) : Details :=
  ⟨o.lootBoxId, o.name, o.description, o.recipient, o.tokenUri⟩

-- The first thing that is wrong with an offer: its currencies, then its program.
def problem? (o : Offer) : Option PricingError :=
  let t := o.currencies
  if !t.isConsistent then
    some (.currencyMismatch t.tokens.length t.tokenIds.length t.kinds.length)
  else if t.tokens.isEmpty then some .noCurrencies
  else if o.program.sources.isEmpty then some .noSource
  else
    o.program.outOfPool?.map fun (source, position, index) =>
      .scriptBounds source position index o.program.constants.length

-- The asset that an offer describes.
def toAsset (o : Offer) (id : Nat) (now : Timestamp) : Asset :=
  ⟨id, o.details, o.currencies.rows, o.program, o.program.fingerprint, now⟩

def accept (o : Offer) (id : Nat) (now : Timestamp) : Except PricingError Asset :=
  match o.problem? with
  | some error => .error error
  | none => .ok (o.toAsset id now)

theorem accept_eq_ok {o : Offer} {id : Nat} {now : Timestamp} {asset : Asset} :
    o.accept id now = .ok asset ↔ o.problem? = none ∧ o.toAsset id now = asset := by
  unfold accept
  cases o.problem? <;> simp

theorem accept_eq_error {o : Offer} {id : Nat} {now : Timestamp} {error : PricingError} :
    o.accept id now = .error error ↔ o.problem? = some error := by
  unfold accept
  cases o.problem? <;> simp

end Offer

end Tariff

import Tariff.Asset
import Tariff.Document.Currency
import Tariff.Document.Program

namespace Tariff.Document

open Json (Reader Value Schema)

inductive OfferField
  | lootBoxId
  | name
  | description
  | recipient
  | currencies
  | tokenUri
  | program
deriving DecidableEq, Repr

def OfferField.key : OfferField → String
  | .lootBoxId => "loot_box_id"
  | .name => "name"
  | .description => "description"
  | .recipient => "recipient"
  | .currencies => "currencies"
  | .tokenUri => "token_uri"
  | .program => "vm_state_config"

def OfferField.all : List OfferField :=
  [.lootBoxId, .name, .description, .recipient, .currencies, .tokenUri, .program]

def offerSchema : Schema where
  name := "AssetConfig"
  Field := OfferField
  decEq := inferInstance
  fields := OfferField.all
  mem_fields f := by cases f <;> decide
  key := OfferField.key
  Content
    | .lootBoxId => Nat
    | .name => String
    | .description => String
    | .recipient => Address
    | .currencies => CurrencyTable
    | .tokenUri => String
    | .program => Program
  read
    | .lootBoxId => Reader.natural "u64"
    | .name => Reader.text
    | .description => Reader.text
    | .recipient => address
    | .currencies => currencyTable
    | .tokenUri => Reader.text
    | .program => program
  absent
    | .lootBoxId => .default (0 : Nat)
    | .name => .missing
    | .description => .default ""
    | .recipient => .missing
    | .currencies => .missing
    | .tokenUri => .default ""
    | .program => .missing

def offer : Reader Offer :=
  offerSchema.readerOf fun m =>
    ⟨m .lootBoxId, m .name, m .description, m .recipient, m .currencies, m .tokenUri, m .program⟩

-- The file form of a list of offers.
def offers : Reader (List Offer) :=
  Reader.list offer

def ofOffer (o : Offer) : Value :=
  .object [("loot_box_id", .natural o.lootBoxId), ("name", .text o.name),
    ("description", .text o.description), ("recipient", ofAddress o.recipient),
    ("currencies", ofCurrencyTable o.currencies), ("token_uri", .text o.tokenUri),
    ("vm_state_config", ofProgram o.program)]

inductive DetailsField
  | lootBoxId
  | name
  | description
  | recipient
  | tokenUri
deriving DecidableEq, Repr

def detailsSchema : Schema where
  name := "AssetMetadata"
  Field := DetailsField
  decEq := inferInstance
  fields := [.lootBoxId, .name, .description, .recipient, .tokenUri]
  mem_fields f := by cases f <;> decide
  key
    | .lootBoxId => "loot_box_id"
    | .name => "name"
    | .description => "description"
    | .recipient => "recipient"
    | .tokenUri => "token_uri"
  Content
    | .lootBoxId => Nat
    | .name => String
    | .description => String
    | .recipient => Address
    | .tokenUri => String
  read
    | .lootBoxId => Reader.natural "u64"
    | .name => Reader.text
    | .description => Reader.text
    | .recipient => address
    | .tokenUri => Reader.text
  absent
    | .lootBoxId => .missing
    | .name => .missing
    | .description => .missing
    | .recipient => .missing
    | .tokenUri => .missing

def details : Reader Details :=
  detailsSchema.readerOf fun m =>
    ⟨m .lootBoxId, m .name, m .description, m .recipient, m .tokenUri⟩

def ofDetails (d : Details) : Value :=
  .object [("loot_box_id", .natural d.lootBoxId), ("name", .text d.name),
    ("description", .text d.description), ("recipient", ofAddress d.recipient),
    ("token_uri", .text d.tokenUri)]

def timestamp : Reader Timestamp
  | room, tokens =>
    match tokens with
    | .text (some _) :: _ => Reader.parsed Timestamp.ofText Timestamp.Error.message room tokens
    | _ => .error (Json.wrongType "an RFC 3339 formatted date and time string" tokens)

inductive AssetField
  | id
  | details
  | currencies
  | program
  | fingerprint
  | registeredAt
deriving DecidableEq, Repr

def assetSchema : Schema where
  name := "Asset"
  Field := AssetField
  decEq := inferInstance
  fields := [.id, .details, .currencies, .program, .fingerprint, .registeredAt]
  mem_fields f := by cases f <;> decide
  key
    | .id => "id"
    | .details => "metadata"
    | .currencies => "currencies"
    | .program => "state"
    | .fingerprint => "script_hash"
    | .registeredAt => "registered_at"
  Content
    | .id => Nat
    | .details => Details
    | .currencies => List Currency
    | .program => Program
    | .fingerprint => String
    | .registeredAt => Timestamp
  read
    | .id => Reader.natural "u64"
    | .details => details
    | .currencies => Reader.list currency
    | .program => program
    | .fingerprint => Reader.text
    | .registeredAt => timestamp
  absent
    | .id => .missing
    | .details => .missing
    | .currencies => .missing
    | .program => .missing
    | .fingerprint => .missing
    | .registeredAt => .missing

def asset : Reader Asset :=
  assetSchema.readerOf fun m =>
    ⟨m .id, m .details, m .currencies, m .program, m .fingerprint, m .registeredAt⟩

def ofAsset (a : Asset) : Value :=
  .object [("id", .natural a.id), ("metadata", ofDetails a.details),
    ("currencies", .list (a.currencies.map ofCurrency)), ("state", ofProgram a.program),
    ("script_hash", .text a.fingerprint), ("registered_at", .text a.registeredAt.text)]

end Tariff.Document

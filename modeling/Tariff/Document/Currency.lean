import Tariff.Document.Basic

namespace Tariff.Document

open Json (Reader Value Schema)

inductive CurrencyField
  | token
  | tokenId
  | kind
deriving DecidableEq, Repr

def CurrencyField.key : CurrencyField → String
  | .token => "token"
  | .tokenId => "token_id"
  | .kind => "token_type"

def currencySchema : Schema where
  name := "CurrencyEntry"
  Field := CurrencyField
  decEq := inferInstance
  fields := [.token, .tokenId, .kind]
  mem_fields f := by cases f <;> decide
  key := CurrencyField.key
  Content
    | .token => Address
    | .tokenId => Amount
    | .kind => TokenKind
  read
    | .token => address
    | .tokenId => amount
    | .kind => tokenKind
  absent
    | .token => .missing
    | .tokenId => .missing
    | .kind => .missing

def currency : Reader Currency :=
  currencySchema.readerOf fun m => ⟨m .token, m .tokenId, m .kind⟩

def ofCurrency (c : Currency) : Value :=
  .object [("token", ofAddress c.token), ("token_id", ofAmount c.tokenId),
    ("token_type", ofTokenKind c.kind)]

-- The same names, with a whole column for each.
def currencyTableSchema : Schema where
  name := "Currencies"
  Field := CurrencyField
  decEq := inferInstance
  fields := [.token, .tokenId, .kind]
  mem_fields f := by cases f <;> decide
  key := CurrencyField.key
  Content
    | .token => List Address
    | .tokenId => List Amount
    | .kind => List TokenKind
  read
    | .token => Reader.list address
    | .tokenId => amounts
    | .kind => Reader.list tokenKind
  absent
    | .token => .missing
    | .tokenId => .missing
    | .kind => .missing

def currencyTable : Reader CurrencyTable :=
  currencyTableSchema.readerOf fun m => ⟨m .token, m .tokenId, m .kind⟩

def ofCurrencyTable (t : CurrencyTable) : Value :=
  .object [("token", .list (t.tokens.map ofAddress)), ("token_id", ofAmounts t.tokenIds),
    ("token_type", .list (t.kinds.map ofTokenKind))]

end Tariff.Document

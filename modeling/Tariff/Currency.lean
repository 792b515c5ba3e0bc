import Tariff.Address

namespace Tariff

inductive TokenKind
  | erc20
  | erc1155
deriving DecidableEq, Repr

namespace TokenKind

def all : List TokenKind := [.erc20, .erc1155]

-- The name in documents.
def tag : TokenKind → String
  | .erc20 => "erc20"
  | .erc1155 => "erc1155"

def name : TokenKind → String
  | .erc20 => "ERC20"
  | .erc1155 => "ERC1155"

end TokenKind

structure Currency where
  token : Address
  tokenId : Amount
  kind : TokenKind
deriving DecidableEq

-- A list of currencies given column by column. The columns need not fit together.
structure CurrencyTable where
  tokens : List Address
  tokenIds : List Amount
  kinds : List TokenKind
deriving DecidableEq

namespace CurrencyTable

def empty : CurrencyTable := ⟨[], [], []⟩

def push (t : CurrencyTable) (c : Currency) : CurrencyTable :=
  ⟨t.tokens ++ [c.token], t.tokenIds ++ [c.tokenId], t.kinds ++ [c.kind]⟩

-- All columns have the same length.
def isConsistent (t : CurrencyTable) : Bool :=
  t.tokens.length == t.tokenIds.length && t.tokens.length == t.kinds.length

-- Row by row, up to the end of the shortest column.
def rows (t : CurrencyTable) : List Currency :=
  ((t.tokens.zip t.tokenIds).zip t.kinds).map fun ((token, tokenId), kind) =>
    ⟨token, tokenId, kind⟩

end CurrencyTable

end Tariff

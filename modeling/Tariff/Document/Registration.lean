import Tariff.Assembly
import Tariff.Document.Asset

namespace Tariff

-- An offer whose program is given either compiled or as assembly text.
structure Registration where
  lootBoxId : Nat
  name : String
  description : String
  recipient : Address
  currencies : CurrencyTable
  tokenUri : String
  program : Option Program
  source : Option String
deriving DecidableEq

namespace Registration

-- Why a request is not an offer.
inductive Error
  | assembly (error : Assembly.Error)
  | both
  | neither
deriving DecidableEq, Repr

def Error.message : Error → String
  | .assembly error => "Compilation failed: " ++ error.message
  | .both => "Provide either vm_state_config or source, not both"
  | .neither => "Missing vm_state_config or source"

def theProgram : Option Program → Option String → Except Error Program
  | some program, none => .ok program
  | none, some source => (Assembly.assemble source).mapError .assembly
  | some _, some _ => .error .both
  | none, none => .error .neither

def toOffer (r : Registration) : Except Error Offer :=
  (theProgram r.program r.source).map fun program =>
    ⟨r.lootBoxId, r.name, r.description, r.recipient, r.currencies, r.tokenUri, program⟩

end Registration

namespace Document

open Json (Reader Schema)

inductive RegistrationField
  | lootBoxId
  | name
  | description
  | recipient
  | currencies
  | tokenUri
  | program
  | source
deriving DecidableEq, Repr

-- Either form of the program may be left out of an object or be `null`.
def registrationSchema : Schema where
  name := "CreateAssetRequest"
  Field := RegistrationField
  decEq := inferInstance
  fields :=
    [.lootBoxId, .name, .description, .recipient, .currencies, .tokenUri, .program, .source]
  mem_fields f := by cases f <;> decide
  key
    | .lootBoxId => "loot_box_id"
    | .name => "name"
    | .description => "description"
    | .recipient => "recipient"
    | .currencies => "currencies"
    | .tokenUri => "token_uri"
    | .program => "vm_state_config"
    | .source => "source"
  Content
    | .lootBoxId => Nat
    | .name => String
    | .description => String
    | .recipient => Address
    | .currencies => CurrencyTable
    | .tokenUri => String
    | .program => Option Program
    | .source => Option String
  read
    | .lootBoxId => Reader.natural "u64"
    | .name => Reader.text
    | .description => Reader.text
    | .recipient => address
    | .currencies => currencyTable
    | .tokenUri => Reader.text
    | .program => Reader.optional program
    | .source => Reader.optional Reader.text
  absent
    | .lootBoxId => .default (0 : Nat)
    | .name => .missing
    | .description => .default ""
    | .recipient => .missing
    | .currencies => .missing
    | .tokenUri => .default ""
    | .program => .optional none
    | .source => .optional none

def registration : Reader Registration :=
  registrationSchema.readerOf fun m =>
    ⟨m .lootBoxId, m .name, m .description, m .recipient, m .currencies, m .tokenUri, m .program,
      m .source⟩

end Document

end Tariff

import Tariff.Currency
import Tariff.Json.Record
import Tariff.Json.Value
import Tariff.Script

namespace Tariff.Document

open Json (Reader Value Token)

-- How an amount is spelled: a machine integer, or a string to be read as an amount.
inductive Literal
  | number (n : Nat)
  | text (s : String)
deriving DecidableEq, Repr

-- Any other value is read to its end before it is refused.
def literal : Reader Literal
  | _, .number n :: rest =>
    match n.value? with
    | some (.natural k) => .ok (.number k, rest)
    | some _ => .error (.mismatch .noAmount)
    | none => .error .malformed
  | _, .text (some s) :: rest => .ok (.text s, rest)
  | room, tokens =>
    match Reader.pass (.full room) .value [] tokens with
    | some _ => .error (.mismatch .noAmount)
    | none => .error .malformed

def Literal.amount? : Literal → Option Amount
  | .number n => Amount.ofNat? n
  | .text s => Amount.ofText? s

def Literal.shown : Literal → String
  | .number n => String.ofList (Text.Decimal.ofNat n)
  | .text s => s

def Literal.amount (l : Literal) : Except Json.Error Amount :=
  match l.amount? with
  | some a => .ok a
  | none => .error (.mismatch (.refused ("invalid value: " ++ l.shown)))

def amount : Reader Amount
  | room, tokens =>
    match literal room tokens with
    | .error e => .error e
    | .ok (l, rest) => l.amount.map (·, rest)

-- All spellings are read before the first of them is turned into an amount.
def amounts : Reader (List Amount)
  | room, tokens =>
    match Reader.list literal room tokens with
    | .error e => .error e
    | .ok (ls, rest) => (ls.mapM Literal.amount).map (·, rest)

def address : Reader Address :=
  Reader.parsed Address.ofText Address.Error.message

def script : Reader Script :=
  Reader.parsed Script.ofText Script.TextError.message

def tokenKind : Reader TokenKind :=
  Reader.choice (TokenKind.all.map fun k => (k.tag, k))

def opcode : Reader Opcode :=
  Reader.choice (Opcode.all.map fun op => (op.tag, op))

def ofAmount (a : Amount) : Value :=
  .text a.text

def ofAmounts (as : List Amount) : Value :=
  .list (as.map ofAmount)

def ofAddress (a : Address) : Value :=
  .text a.text

def ofScript (s : Script) : Value :=
  .text s.text

def ofTokenKind (k : TokenKind) : Value :=
  .text k.tag

def ofOpcode (op : Opcode) : Value :=
  .text op.tag

end Tariff.Document

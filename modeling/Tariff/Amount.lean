import Tariff.Text.Blank
import Tariff.Text.Decimal
import Tariff.Text.Hex

namespace Tariff

structure Amount where
  toNat : Nat
  isLt : toNat < Nat.pow 2 256
deriving DecidableEq

namespace Amount

def ofNat? (n : Nat) : Option Amount :=
  if h : n < Nat.pow 2 256 then some ⟨n, h⟩ else none

@[ext] theorem ext {a b : Amount} (h : a.toNat = b.toNat) : a = b := by
  cases a
  cases b
  cases h
  rfl

theorem ofNat?_eq_some_iff {n : Nat} {a : Amount} : ofNat? n = some a ↔ a.toNat = n := by
  unfold ofNat?
  by_cases h : n < Nat.pow 2 256
  · rw [dif_pos h, Option.some.injEq, Amount.ext_iff]
    exact eq_comm
  · rw [dif_neg h]
    constructor
    · intro hn
      cases hn
    · rintro rfl
      exact absurd a.isLt h

theorem ofNat?_eq_none_iff {n : Nat} : ofNat? n = none ↔ Nat.pow 2 256 ≤ n := by
  unfold ofNat?
  by_cases h : n < Nat.pow 2 256
  · rw [dif_pos h]
    constructor
    · intro hn
      cases hn
    · intro hle
      exact absurd h (Nat.not_lt_of_le hle)
  · rw [dif_neg h]
    exact ⟨fun _ => Nat.le_of_not_lt h, fun _ => rfl⟩

def zero : Amount := ⟨0, by decide⟩

def one : Amount := ⟨1, by decide⟩

instance : Inhabited Amount := ⟨zero⟩

def ofBool (b : Bool) : Amount :=
  if b then one else zero

def isZero (a : Amount) : Bool :=
  a.toNat == 0

def add? (a b : Amount) : Option Amount :=
  ofNat? (a.toNat + b.toNat)

def sub? (a b : Amount) : Option Amount :=
  if b.toNat ≤ a.toNat then ofNat? (a.toNat - b.toNat) else none

def mul? (a b : Amount) : Option Amount :=
  ofNat? (a.toNat * b.toNat)

-- Neither quotient nor remainder exists for a zero divisor.
def div? (a b : Amount) : Option Amount :=
  if b.isZero then none else ofNat? (a.toNat / b.toNat)

def mod? (a b : Amount) : Option Amount :=
  if b.isZero then none else ofNat? (a.toNat % b.toNat)

def min (a b : Amount) : Amount :=
  if b.toNat < a.toNat then b else a

def max (a b : Amount) : Amount :=
  if a.toNat ≤ b.toNat then b else a

def digits (a : Amount) : List Char :=
  Text.Decimal.ofNat a.toNat

-- Decimal digits with no leading zero.
def text (a : Amount) : String :=
  String.ofList a.digits

-- What follows the hexadecimal marker: one more marker is dropped, then come at most 64 digits.
-- Sixty-four digits stay below the bound, and no digits at all are zero.
def ofHex? (cs : List Char) : Option Amount :=
  let body := Text.Hex.unmark cs
  if body.length ≤ 64 then (Text.Hex.toNat? body).bind ofNat? else none

-- Reads an amount from text: blanks around it do not count, `0x` or `0X` starts a hexadecimal
-- numeral, anything else has to be decimal digits. The empty text is zero, a bare marker is not
-- a numeral.
def ofDigits? (cs : List Char) : Option Amount :=
  match Text.trim cs with
  | '0' :: 'x' :: rest => if rest.isEmpty then none else ofHex? rest
  | '0' :: 'X' :: rest => if rest.isEmpty then none else ofHex? rest
  | body => (Text.Decimal.toNat? body).bind ofNat?

def ofText? (s : String) : Option Amount :=
  ofDigits? s.toList

-- The number whose base-256 digits are the bytes, the first byte weighing most.
def ofBytes (bytes : List UInt8) : Nat :=
  bytes.foldl (fun n b => 256 * n + b.toNat) 0

end Amount

end Tariff

namespace Tariff.Text.Decimal

def isDigit (c : Char) : Bool :=
  '0' ≤ c && c ≤ '9'

-- The digits of `n` with no leading zero, "0" for zero itself.
def ofNat (n : Nat) : List Char :=
  Nat.toDigits 10 n

-- Reads any number of digits, none at all being zero. Anything else is refused.
def toNat? (cs : List Char) : Option Nat :=
  if cs.all isDigit then some (Nat.ofDigitChars 10 cs 0) else none

-- A machine integer below `bound`: at least one digit, after an optional plus sign.
def unsigned? (bound : Nat) (cs : List Char) : Option Nat :=
  let digits := match cs with
    | '+' :: rest => rest
    | _ => cs
  if digits.isEmpty then none
  else (toNat? digits).filter (· < bound)

end Tariff.Text.Decimal

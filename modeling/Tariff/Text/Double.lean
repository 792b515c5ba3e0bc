import Tariff.Text.Decimal

namespace Tariff.Text.Double

-- A positive finite double is `mantissa * 2 ^ exponent`. Its neighbours decide which decimals
-- round to it: `narrow` says that the one below is only half as far away.
structure Parts where
  mantissa : Nat
  exponent : Int
  narrow : Bool

def parts (f : Float) : Parts :=
  let bits : Nat := f.toBits.toNat
  let fraction : Nat := bits % Nat.pow 2 52
  let biased : Nat := bits / Nat.pow 2 52 % Nat.pow 2 11
  if biased = 0 then ⟨fraction, -1074, false⟩
  else ⟨Nat.pow 2 52 + fraction, (biased : Int) - 1075, fraction = 0 ∧ 1 < biased⟩

-- A positive fraction.
structure Ratio where
  num : Nat
  den : Nat

-- `n * 2 ^ e`
def Ratio.shift (n : Nat) (e : Int) : Ratio :=
  if 0 ≤ e then ⟨n * Nat.pow 2 e.toNat, 1⟩ else ⟨n, Nat.pow 2 (-e).toNat⟩

-- The ratio divided by `10 ^ e`.
def Ratio.scale (r : Ratio) (e : Int) : Ratio :=
  if 0 ≤ e then ⟨r.num, r.den * Nat.pow 10 e.toNat⟩
  else ⟨r.num * Nat.pow 10 (-e).toNat, r.den⟩

-- How often a ratio below one has to be multiplied by ten to reach one.
def lift : Nat → Ratio → Nat
  | 0, _ => 0
  | fuel + 1, r => if r.den ≤ r.num then 0 else lift fuel ⟨10 * r.num, r.den⟩ + 1

-- The exponent of the leading decimal digit. No double needs more than 324 steps.
def magnitude (r : Ratio) : Int :=
  if r.den ≤ r.num then ((Decimal.ofNat (r.num / r.den)).length : Int) - 1
  else -(lift 400 r : Int)

-- The decimals that read back as the double lie between `low` and `high`; the ends belong to
-- them when the mantissa is even. All three are in quarters of the mantissa's unit.
structure Interval where
  low : Ratio
  exact : Ratio
  high : Ratio
  closed : Bool

def interval (p : Parts) : Interval :=
  let e := p.exponent - 2
  ⟨.shift (4 * p.mantissa - if p.narrow then 1 else 2) e, .shift (4 * p.mantissa) e,
    .shift (4 * p.mantissa + 2) e, p.mantissa % 2 = 0⟩

def Interval.holds (i : Interval) (unit : Int) (n : Nat) : Bool :=
  let low := i.low.scale unit
  let high := i.high.scale unit
  if i.closed then low.num ≤ n * low.den && n * high.den ≤ high.num
  else low.num < n * low.den && n * high.den < high.num

-- With `count` digits, the two multiples of the last digit's unit around the number are tried.
def candidate? (i : Interval) (lead : Int) (count : Nat) : Option (Nat × Int) :=
  let unit := lead - count + 1
  let exact := i.exact.scale unit
  let below := exact.num / exact.den
  let rest := exact.num % exact.den
  let nearer := if 2 * rest < exact.den || (2 * rest == exact.den && below % 2 == 0) then below
    else below + 1
  let farther := if nearer = below then below + 1 else below
  if i.holds unit nearer then some (nearer, unit)
  else if i.holds unit farther then some (farther, unit)
  else none

-- The fewest digits that read back, and of those the nearest. Seventeen digits always suffice.
def shortest (p : Parts) : Nat × Int :=
  let i := interval p
  let lead := magnitude i.exact
  ((List.range 17).findSome? fun k => candidate? i lead (k + 1)).getD (0, 0)

-- Significant digits without trailing zeros, and the exponent of the first of them.
def significant (n : Nat) (unit : Int) : List Char × Int :=
  let all := Decimal.ofNat n
  ((all.reverse.dropWhile (· == '0')).reverse, unit + all.length - 1)

-- An exponent always has a sign.
def exponentText (e : Int) : List Char :=
  (if e < 0 then '-' else '+') :: Decimal.ofNat e.natAbs

-- Positional from four zeros after the point up to sixteen digits before it, always with a point;
-- an exponent beyond that.
def layout (digits : List Char) (lead : Int) : List Char :=
  let count : Int := digits.length
  if 0 ≤ lead ∧ lead ≤ 15 then
    if count ≤ lead + 1 then
      digits ++ List.replicate (lead + 1 - count).toNat '0' ++ ['.', '0']
    else digits.take (lead + 1).toNat ++ '.' :: digits.drop (lead + 1).toNat
  else if -5 ≤ lead ∧ lead < 0 then
    ['0', '.'] ++ List.replicate (-lead - 1).toNat '0' ++ digits
  else
    let fraction := if digits.length ≤ 1 then [] else '.' :: digits.drop 1
    digits.take 1 ++ fraction ++ 'e' :: exponentText lead

-- The text of a finite double.
def text (f : Float) : String :=
  let sign := if f.toBits.toNat / Nat.pow 2 63 = 1 then ['-'] else []
  let p := parts f
  let body :=
    if p.mantissa = 0 then ['0', '.', '0']
    else
      let (n, unit) := shortest p
      let (digits, lead) := significant n unit
      layout digits lead
  String.ofList (sign ++ body)

end Tariff.Text.Double

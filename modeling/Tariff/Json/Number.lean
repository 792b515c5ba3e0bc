import Tariff.Text.Decimal

namespace Tariff.Json

-- A literal as it is written.
structure Numeral where
  negative : Bool
  whole : List Char
  fraction : List Char
  -- The sign and the digits of the exponent.
  exponent : Option (Bool × List Char)
deriving DecidableEq, Repr

inductive Number
  -- Below `2 ^ 64`.
  | natural (n : Nat)
  -- The magnitude of a negative integer, from 1 to `2 ^ 63`.
  | negative (n : Nat)
  | double (f : Float)

namespace Numeral

open Text.Decimal (isDigit)

def readFraction : List Char → Option (List Char × List Char)
  | '.' :: rest =>
    let digits := rest.takeWhile isDigit
    if digits.isEmpty then none else some (digits, rest.dropWhile isDigit)
  | cs => some ([], cs)

def readSign : List Char → Bool × List Char
  | '-' :: rest => (true, rest)
  | '+' :: rest => (false, rest)
  | cs => (false, cs)

def readExponent : List Char → Option (Option (Bool × List Char) × List Char)
  | c :: rest =>
    if c = 'e' ∨ c = 'E' then
      let (negative, rest) := readSign rest
      let digits := rest.takeWhile isDigit
      if digits.isEmpty then none else some (some (negative, digits), rest.dropWhile isDigit)
    else some (none, c :: rest)
  | [] => some (none, [])

-- After the minus sign. A leading zero stands alone.
def readUnsigned (negative : Bool) (cs : List Char) : Option (Numeral × List Char) :=
  let whole := cs.takeWhile isDigit
  if whole.isEmpty || (whole.head? == some '0' && 1 < whole.length) then none
  else
    match readFraction (cs.dropWhile isDigit) with
    | none => none
    | some (fraction, rest) =>
      match readExponent rest with
      | none => none
      | some (exponent, rest) => some (⟨negative, whole, fraction, exponent⟩, rest)

def read : List Char → Option (Numeral × List Char)
  | '-' :: rest => readUnsigned true rest
  | cs => readUnsigned false cs

-- Reading a literal leaves less than there was, which is what makes a scanner end.
theorem dropWhile_length_le (cs : List Char) : (cs.dropWhile isDigit).length ≤ cs.length :=
  (List.dropWhile_suffix isDigit).length_le

theorem readFraction_length_le {cs digits rest : List Char}
    (h : readFraction cs = some (digits, rest)) : rest.length ≤ cs.length := by
  fun_cases readFraction cs with
  | case1 tail ds hd => simp [readFraction, ds, hd] at h
  | case2 tail ds hd =>
    simp [readFraction, ds, hd] at h
    have := dropWhile_length_le tail
    rw [← h.2]; simp only [List.length_cons]; omega
  | case3 cs' hc =>
    simp [readFraction] at h
    exact Nat.le_of_eq (congrArg List.length h.2.symm)

theorem readSign_length_le (cs : List Char) : (readSign cs).2.length ≤ cs.length := by
  fun_cases readSign cs <;> simp

theorem readExponent_length_le {cs rest : List Char} {e : Option (Bool × List Char)}
    (h : readExponent cs = some (e, rest)) : rest.length ≤ cs.length := by
  cases cs with
  | nil => simp [readExponent] at h; simp [h.2]
  | cons c tail =>
    simp only [readExponent] at h
    split at h
    · split at h
      · simp at h
      · simp at h
        have h1 := dropWhile_length_le (readSign tail).2
        have h2 := readSign_length_le tail
        rw [← h.2]; simp only [List.length_cons]; omega
    · simp at h
      exact Nat.le_of_eq (congrArg List.length h.2.symm)

theorem dropWhile_length_lt {cs : List Char} (h : (cs.takeWhile isDigit).isEmpty = false) :
    (cs.dropWhile isDigit).length < cs.length := by
  have hsum : (cs.takeWhile isDigit).length + (cs.dropWhile isDigit).length = cs.length := by
    rw [← List.length_append, List.takeWhile_append_dropWhile]
  have hpos : 0 < (cs.takeWhile isDigit).length := by
    rw [List.length_pos_iff]; intro hn; simp [hn] at h
  omega

theorem readUnsigned_length_lt {negative : Bool} {cs rest : List Char} {n : Numeral}
    (h : readUnsigned negative cs = some (n, rest)) : rest.length < cs.length := by
  simp only [readUnsigned] at h
  split at h
  · simp at h
  · rename_i hw
    split at h
    · simp at h
    · rename_i fraction r1 h1
      split at h
      · simp at h
      · rename_i exponent r2 h2
        simp only [Option.some.injEq, Prod.mk.injEq] at h
        have hle1 := readFraction_length_le h1
        have hle2 := readExponent_length_le h2
        have hlt : (cs.dropWhile isDigit).length < cs.length :=
          dropWhile_length_lt (by simp_all)
        rw [← h.2]; omega

theorem read_length_lt {cs rest : List Char} {n : Numeral} (h : read cs = some (n, rest)) :
    rest.length < cs.length := by
  fun_cases read cs with
  | case1 tail =>
    have := readUnsigned_length_lt (show readUnsigned true tail = some (n, rest) from h)
    simp; omega
  | case2 cs' hc =>
    rw [read.eq_2 _ hc] at h
    exact readUnsigned_length_lt h

-- Takes digits into a 64-bit significand for as long as they fit.
def gather (significand : Nat) : List Char → Nat × List Char
  | [] => (significand, [])
  | c :: cs =>
    let next := 10 * significand + (c.toNat - '0'.toNat)
    if next < Nat.pow 2 64 then gather next cs else (significand, c :: cs)

def powerOfTen (n : Nat) : Float :=
  Float.ofScientific 1 false n

-- `f * 10 ^ e` in steps of at most 308 decades, none when it is too large. Three divisions by the
-- largest power leave nothing of a 64-bit significand, so four rounds suffice.
def scale : Nat → Float → Int → Option Float
  | 0, f, _ => some f
  | rounds + 1, f, e =>
    if e.natAbs ≤ 308 then
      if 0 ≤ e then
        let scaled := f * powerOfTen e.natAbs
        if scaled.isInf then none else some scaled
      else some (f / powerOfTen e.natAbs)
    else if f == 0 then some f
    else if 0 ≤ e then none
    else scale rounds (f / powerOfTen 308) (e + 308)

def signed (negative : Bool) (f : Float) : Number :=
  .double (if negative then -f else f)

-- An exponent past the machine's integers is as good as infinite.
def exponentLimit : Nat := 2147483647

def toDouble? (n : Numeral) : Option Number :=
  let (head, excess) := gather 0 n.whole
  let (significand, dropped) := gather head n.fraction
  let shift : Int := excess.length - (n.fraction.length - dropped.length : Nat)
  let f := significand.toUInt64.toFloat
  match n.exponent with
  | none => (scale 4 f shift).map (signed n.negative)
  | some (down, digits) =>
    let e := Nat.ofDigitChars 10 digits 0
    if exponentLimit < e then
      if significand ≠ 0 ∧ !down then none else some (signed n.negative 0)
    else (scale 4 f (if down then shift - e else shift + e)).map (signed n.negative)

-- The number of a literal, none when it is beyond every double. Minus zero and integers beyond a
-- word are doubles.
def value? (n : Numeral) : Option Number :=
  let (significand, excess) := gather 0 n.whole
  if n.fraction.isEmpty && n.exponent.isNone && excess.isEmpty then
    if !n.negative then some (.natural significand)
    else if significand = 0 ∨ Nat.pow 2 63 < significand then
      some (signed true significand.toUInt64.toFloat)
    else some (.negative significand)
  else n.toDouble?

end Numeral

end Tariff.Json

import Tariff.Text.Blank
import Tariff.Text.Decimal

namespace Tariff

-- The seconds since the start of 1970 in universal time, and a fraction.
structure Timestamp where
  seconds : Int
  -- From `10 ^ 9` on it is a leap second after the second counted.
  nanos : Nat
deriving DecidableEq, Repr

namespace Timestamp

def epoch : Timestamp := ⟨0, 0⟩

-- A day of the Gregorian calendar, extended to all years.
structure Date where
  year : Int
  month : Nat
  day : Nat
deriving DecidableEq, Repr

def isLeap (year : Int) : Bool :=
  year % 4 == 0 && (year % 100 != 0 || year % 400 == 0)

def daysInMonth (year : Int) (month : Nat) : Nat :=
  if month = 2 then (if isLeap year then 29 else 28)
  else if month = 4 ∨ month = 6 ∨ month = 9 ∨ month = 11 then 30
  else 31

-- The days since the start of 1970. Years are counted from March, so that a leap day comes last,
-- and 400 of them are an era of 146097 days.
def Date.toDays (d : Date) : Int :=
  let year := if d.month ≤ 2 then d.year - 1 else d.year
  let era := year / 400
  let ofEra := year % 400
  let month : Int := (d.month + 9) % 12
  let ofYear := (153 * month + 2) / 5 + d.day - 1
  era * 146097 + (ofEra * 365 + ofEra / 4 - ofEra / 100 + ofYear) - 719468

def Date.ofDays (days : Int) : Date :=
  let shifted := days + 719468
  let era := shifted / 146097
  let ofEra := shifted % 146097
  let yearOfEra := (ofEra - ofEra / 1460 + ofEra / 36524 - ofEra / 146096) / 365
  let ofYear := ofEra - (365 * yearOfEra + yearOfEra / 4 - yearOfEra / 100)
  let shiftedMonth := (5 * ofYear + 2) / 153
  let day := ofYear - (153 * shiftedMonth + 2) / 5 + 1
  let month := if shiftedMonth < 10 then shiftedMonth + 3 else shiftedMonth - 9
  let year := yearOfEra + era * 400 + if month ≤ 2 then 1 else 0
  ⟨year, month.toNat, day.toNat⟩

-- At least `width` digits.
def padded (width n : Nat) : List Char :=
  let digits := Text.Decimal.ofNat n
  List.replicate (width - digits.length) '0' ++ digits

-- Years beyond four digits carry a sign.
def yearText (year : Int) : List Char :=
  if 0 ≤ year ∧ year ≤ 9999 then padded 4 year.toNat
  else (if year < 0 then '-' else '+') :: padded 4 year.natAbs

-- No fraction, or three, six or nine digits: the fewest that lose nothing.
def fractionText (nanos : Nat) : List Char :=
  if nanos = 0 then []
  else if nanos % 1000000 = 0 then '.' :: padded 3 (nanos / 1000000)
  else if nanos % 1000 = 0 then '.' :: padded 6 (nanos / 1000)
  else '.' :: padded 9 nanos

-- Up to the offset, which is always that of universal time.
def clockText (t : Timestamp) : List Char :=
  let date := Date.ofDays (t.seconds / 86400)
  let ofDay := (t.seconds % 86400).toNat
  let leap := t.nanos / 1000000000
  yearText date.year ++ '-' :: padded 2 date.month ++ '-' :: padded 2 date.day ++
    'T' :: padded 2 (ofDay / 3600) ++ ':' :: padded 2 (ofDay / 60 % 60) ++
    ':' :: padded 2 (ofDay % 60 + leap) ++ fractionText (t.nanos % 1000000000)

def text (t : Timestamp) : String :=
  String.ofList (t.clockText ++ ['Z'])

-- The same with the offset spelled out.
def offsetText (t : Timestamp) : String :=
  String.ofList t.clockText ++ "+00:00"

-- Why a text is not a point in time.
inductive Error
  | outOfRange
  | impossible
  | invalid
  | tooShort
  | tooLong
deriving DecidableEq, Repr

def Error.message : Error → String
  | .outOfRange => "input is out of range"
  | .impossible => "no possible date and time matching input"
  | .invalid => "input contains invalid characters"
  | .tooShort => "premature end of input"
  | .tooLong => "trailing input"

abbrev Scan (α : Type) := Except Error (α × List Char)

-- One to `limit` digits, of which none is read past the limit. The number has to fit a machine
-- integer.
def number (limit : Nat) (cs : List Char) : Scan Nat :=
  let digits := (cs.take limit).takeWhile Text.Decimal.isDigit
  let n := Nat.ofDigitChars 10 digits 0
  if cs.isEmpty then .error .tooShort
  else if digits.isEmpty then .error .invalid
  else if Nat.pow 2 63 ≤ n then .error .outOfRange
  else .ok (n, cs.drop digits.length)

-- A field between bounds, after blanks.
def field (low high : Nat) (cs : List Char) : Scan Nat :=
  match number 2 (Text.trimLeft cs) with
  | .error e => .error e
  | .ok (n, rest) => if low ≤ n ∧ n ≤ high then .ok (n, rest) else .error .outOfRange

-- A year has four digits at most, any number after a sign.
def year (cs : List Char) : Scan Int :=
  match Text.trimLeft cs with
  | '-' :: rest => (number rest.length rest).map fun (n, rest) => (-(n : Int), rest)
  | '+' :: rest => (number rest.length rest).map fun (n, rest) => ((n : Int), rest)
  | cs => (number 4 cs).map fun (n, rest) => ((n : Int), rest)

def literal (c : Char) (cs : List Char) : Except Error (List Char) :=
  match cs with
  | [] => .error .tooShort
  | d :: rest => if c = d then .ok rest else .error .invalid

-- A separator after blanks.
def separator (c : Char) (cs : List Char) : Except Error (List Char) :=
  literal c (Text.trimLeft cs)

-- Nine digits count, further ones are dropped.
def fraction : List Char → Scan Nat
  | '.' :: rest =>
    match number 9 rest with
    | .error e => .error e
    | .ok (n, after) =>
      let count := rest.length - after.length
      .ok (n * Nat.pow 10 (9 - count), after.dropWhile Text.Decimal.isDigit)
  | cs => .ok (0, cs)

-- There is enough input for two digits. Input is counted in UTF-8 bytes, so one wide character is
-- enough too, and then fails as no digit.
def isPair (cs : List Char) : Bool :=
  2 ≤ (cs.take 2).foldr (fun c n => c.utf8Size + n) 0

def digitValue (c : Char) : Nat := c.toNat - '0'.toNat

-- The hours and minutes of an offset, in seconds.
def offsetValue (cs : List Char) : Scan Int :=
  if !isPair cs then .error .tooShort
  else
    match cs with
    | a :: b :: rest =>
      if Text.Decimal.isDigit a && Text.Decimal.isDigit b then
        let rest := rest.dropWhile fun c => c == ':' || Text.isBlank c
        if !isPair rest then .error .tooShort
        else
          match rest with
          | c :: d :: rest =>
            if Text.Decimal.isDigit c && Text.Decimal.isDigit d then
              if 6 ≤ digitValue c then .error .outOfRange
              else
                .ok (((digitValue a * 10 + digitValue b) * 3600 +
                  (digitValue c * 10 + digitValue d) * 60 : Nat), rest)
            else .error .invalid
          | _ => .error .invalid
      else .error .invalid
    | _ => .error .invalid

def offset : List Char → Scan Int
  | [] => .error .tooShort
  | c :: rest =>
    if c = 'Z' ∨ c = 'z' then .ok (0, rest)
    else if ((c :: rest).take 3).map Char.toUpper = ['U', 'T', 'C'] then .ok (0, rest.drop 2)
    else if c = '+' then offsetValue rest
    else if c = '-' ∨ c.toNat = 0x2212 then
      (offsetValue rest).map fun (n, rest) => (-n, rest)
    else .error .invalid

-- Years of the calendar that have a representation.
def minYear : Int := -262143

def maxYear : Int := 262142

-- Puts the parts together: the date has to exist, and the moment in universal time has to lie
-- within the calendar.
def assemble (year : Int) (month day hour minute second nanos : Nat) (offset : Int) :
    Except Error Timestamp :=
  if year < minYear ∨ maxYear < year ∨ daysInMonth year month < day then .error .outOfRange
  else if offset.natAbs ≥ 86400 then .error .outOfRange
  else
    let leap := second / 60
    let wallClock := Date.toDays ⟨year, month, day⟩ * 86400 +
      (hour * 3600 + minute * 60 + (second - leap) : Nat)
    let seconds := wallClock - offset
    let utcYear := (Date.ofDays (seconds / 86400)).year
    if utcYear < minYear ∨ maxYear < utcYear then .error .impossible
    else .ok ⟨seconds, nanos + leap * 1000000000⟩

-- Blanks may stand between the parts, and a blank or either case of `T` between date and time.
def ofText (s : String) : Except Error Timestamp := do
  let (year, cs) ← year s.toList
  let yearFits := -2147483648 ≤ year && year < 2147483648
  if !yearFits then throw .outOfRange
  let cs ← separator '-' cs
  let (month, cs) ← field 1 12 cs
  let cs ← separator '-' cs
  let (day, cs) ← field 1 31 cs
  let cs ← match cs with
    | [] => throw .tooShort
    | c :: rest => if c = 't' ∨ c = 'T' ∨ c = ' ' then pure rest else throw .invalid
  let (hour, cs) ← field 0 23 cs
  let cs ← separator ':' cs
  let (minute, cs) ← field 0 59 cs
  let cs ← separator ':' cs
  let (second, cs) ← field 0 60 cs
  let (nanos, cs) ← fraction cs
  let (offset, cs) ← offset (Text.trimLeft cs)
  if !(Text.trimLeft cs).isEmpty then throw .tooLong
  assemble year month day hour minute second nanos offset

end Timestamp

end Tariff

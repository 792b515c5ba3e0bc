namespace Tariff.Text.Hex

def digit (n : Nat) : Char :=
  if n < 10 then Char.ofNat (48 + n) else Char.ofNat (87 + n)

def value? (c : Char) : Option Nat :=
  if '0' ≤ c ∧ c ≤ '9' then some (c.toNat - 48)
  else if 'a' ≤ c ∧ c ≤ 'f' then some (c.toNat - 87)
  else if 'A' ≤ c ∧ c ≤ 'F' then some (c.toNat - 55)
  else none

def ofByte (b : UInt8) : List Char :=
  [digit (b.toNat / 16), digit (b.toNat % 16)]

def encode (bytes : List UInt8) : List Char :=
  bytes.flatMap ofByte

-- At least `width` digits, more when the number needs them.
def padded (width n : Nat) : List Char :=
  let digits := Nat.toDigits 16 n
  List.replicate (width - digits.length) '0' ++ digits

-- Reads any number of digits, none at all being zero.
def toNat? (cs : List Char) : Option Nat :=
  (cs.mapM value?).map (List.foldl (fun n d => 16 * n + d) 0)

-- Why a text is not a sequence of bytes. Positions and lengths count UTF-8 bytes, and a
-- character that is no digit is reported by its first byte.
inductive Error
  | oddLength
  | badDigit (byte : UInt8) (position : Nat)
deriving DecidableEq, Repr

def byteLength (cs : List Char) : Nat :=
  cs.foldr (fun c n => c.utf8Size + n) 0

-- The first byte of a character's UTF-8 form.
def leadByte (c : Char) : UInt8 :=
  let n := c.toNat
  if n < 0x80 then UInt8.ofNat n
  else if n < 0x800 then UInt8.ofNat (0xC0 + n / 0x40)
  else if n < 0x10000 then UInt8.ofNat (0xE0 + n / 0x1000)
  else UInt8.ofNat (0xF0 + n / 0x40000)

-- The values of the digits. All characters before the first bad one are single bytes, so its
-- byte position is the number of digits before it.
def digits (position : Nat) : List Char → Except Error (List Nat)
  | [] => .ok []
  | c :: cs =>
    match value? c with
    | none => .error (.badDigit (leadByte c) position)
    | some d => (digits (position + 1) cs).map (d :: ·)

def pairUp : List Nat → List UInt8
  | high :: low :: rest => UInt8.ofNat (16 * high + low) :: pairUp rest
  | _ => []

-- An odd length is reported before any bad digit.
def decode (cs : List Char) : Except Error (List UInt8) :=
  if byteLength cs % 2 = 1 then .error .oddLength
  else (digits 0 cs).map pairUp

-- One `0x` in front is a marker, not a digit. Only the lower-case spelling counts.
def unmark : List Char → List Char
  | '0' :: 'x' :: rest => rest
  | cs => cs

end Tariff.Text.Hex

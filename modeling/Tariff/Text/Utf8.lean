namespace Tariff.Text.Utf8

-- What a first byte asks for: how many bytes follow, the bounds of the next one, and the bits that
-- the first byte gives.
structure Lead where
  count : Nat
  low : UInt8
  high : UInt8
  bits : Nat

def lead? (b : UInt8) : Option Lead :=
  let n := b.toNat
  if n < 0xC2 then none
  else if n < 0xE0 then some ⟨1, 0x80, 0xBF, n - 0xC0⟩
  else if n = 0xE0 then some ⟨2, 0xA0, 0xBF, 0⟩
  else if n = 0xED then some ⟨2, 0x80, 0x9F, 0xD⟩
  else if n < 0xF0 then some ⟨2, 0x80, 0xBF, n - 0xE0⟩
  else if n = 0xF0 then some ⟨3, 0x90, 0xBF, 0⟩
  else if n < 0xF4 then some ⟨3, 0x80, 0xBF, n - 0xF0⟩
  else if n = 0xF4 then some ⟨3, 0x80, 0x8F, 4⟩
  else none

-- Takes the bytes that are still due. The number of bytes taken is given also when they break off.
def follow : Nat → UInt8 → UInt8 → Nat → List UInt8 → Option Nat × Nat
  | 0, _, _, bits, _ => (some bits, 0)
  | _ + 1, _, _, _, [] => (none, 0)
  | count + 1, low, high, bits, b :: rest =>
    if low ≤ b && b ≤ high then
      let (code, taken) := follow count 0x80 0xBF (bits * 64 + b.toNat % 64) rest
      (code, taken + 1)
    else (none, 0)

-- The characters of a byte string, with gaps where there is none.
def scan (bytes : List UInt8) : List (Option Char) :=
  match bytes with
  | [] => []
  | b :: rest =>
    if b < 0x80 then some (Char.ofNat b.toNat) :: scan rest
    else
      match lead? b with
      | none => none :: scan rest
      | some lead =>
        let (code, taken) := follow lead.count lead.low lead.high lead.bits rest
        code.map Char.ofNat :: scan (rest.drop taken)
termination_by bytes.length
decreasing_by
  all_goals simp only [List.length_cons, List.length_drop]
  all_goals omega

def decode? (bytes : List UInt8) : Option String :=
  ((scan bytes).mapM id).map String.ofList

def replacement : Char := Char.ofNat 0xFFFD

-- Each longest start of a character that breaks off is replaced once, as is each byte that starts
-- none.
def decodeLossy (bytes : List UInt8) : String :=
  String.ofList ((scan bytes).map (·.getD replacement))

def encode (s : String) : List UInt8 :=
  s.toUTF8.toList

end Tariff.Text.Utf8

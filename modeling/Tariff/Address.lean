import Tariff.Amount
import Tariff.Text.Quoted

namespace Tariff

structure Address where
  bytes : List UInt8
  length_eq : bytes.length = 20
deriving DecidableEq

namespace Address

-- Why a text is not an address. A digit that is missing or wrong is reported with the whole text,
-- a wrong length with the number of bytes found.
inductive Error
  | badHex (text : String)
  | badLength (length : Nat)
deriving DecidableEq, Repr

def Error.message : Error → String
  | .badHex text => s!"Invalid hex in address: {text}"
  | .badLength length => s!"Invalid address length: expected 20 bytes, got {length}"

def Error.inspect : Error → String
  | .badHex text => "InvalidHex(" ++ Text.Quoted.text text ++ ")"
  | .badLength length => s!"InvalidLength({length})"

def zero : Address :=
  ⟨List.replicate 20 0, by decide⟩

instance : Inhabited Address := ⟨zero⟩

def ofBytes (bytes : List UInt8) : Except Error Address :=
  if h : bytes.length = 20 then .ok ⟨bytes, h⟩ else .error (.badLength bytes.length)

def ofText (s : String) : Except Error Address :=
  match Text.Hex.decode (Text.Hex.unmark s.toList) with
  | .error _ => .error (.badHex s)
  | .ok bytes => ofBytes bytes

def text (a : Address) : String :=
  String.ofList ('0' :: 'x' :: Text.Hex.encode a.bytes)

def isZero (a : Address) : Bool :=
  a.bytes.all (· == 0)

-- Each further byte multiplies the bound by 256.
theorem ofBytes_foldl_lt (bytes : List UInt8) (n : Nat) :
    bytes.foldl (fun n b => 256 * n + b.toNat) n < (n + 1) * Nat.pow 256 bytes.length := by
  induction bytes generalizing n with
  | nil => simp
  | cons b rest ih =>
    have hb : b.toNat < 256 := b.toNat_lt
    calc rest.foldl (fun n b => 256 * n + b.toNat) (256 * n + b.toNat)
        < (256 * n + b.toNat + 1) * Nat.pow 256 rest.length := ih _
      _ ≤ ((n + 1) * 256) * Nat.pow 256 rest.length := Nat.mul_le_mul_right _ (by omega)
      _ = (n + 1) * Nat.pow 256 (b :: rest).length := by
        rw [Nat.mul_assoc, Nat.mul_comm 256]
        rfl

-- The address read as one big-endian number, which is what scripts see.
def toAmount (a : Address) : Amount :=
  ⟨Amount.ofBytes a.bytes, by
    have h := ofBytes_foldl_lt a.bytes 0
    rw [a.length_eq] at h
    exact Nat.lt_trans h (by decide)⟩

end Address

end Tariff

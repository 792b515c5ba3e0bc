import Tariff.Opcode
import Tariff.Text.Hex
import Tariff.Text.Quoted

namespace Tariff

-- An opcode byte need not belong to the instruction set.
structure Invocation where
  opcode : UInt8
  operand : UInt8
deriving DecidableEq, Repr

namespace Invocation

def op? (i : Invocation) : Option Opcode :=
  Opcode.ofByte? i.opcode

def of (op : Opcode) (operand : UInt8) : Invocation :=
  ⟨op.byte, operand⟩

-- The opcode is known, takes no operand, and has one all the same.
def strayOpcode? (i : Invocation) : Option Opcode :=
  i.op?.filter fun op => !op.takesOperand && i.operand != 0

-- The invocation fetches a constant that a pool of `poolSize` does not have.
def outOfPool (poolSize : Nat) (i : Invocation) : Bool :=
  i.op? == some .constant && poolSize ≤ i.operand.toNat

end Invocation

structure Script where
  invocations : List Invocation
deriving DecidableEq, Repr

namespace Script

def empty : Script := ⟨[]⟩

instance : Inhabited Script := ⟨empty⟩

def length (s : Script) : Nat :=
  s.invocations.length

def push (s : Script) (i : Invocation) : Script :=
  ⟨s.invocations ++ [i]⟩

-- Why a byte string is not the byte form of a script.
inductive DecodeError
  | truncated (length : Nat)
  | strayOperand (position : Nat) (op : Opcode) (operand : UInt8)
deriving DecidableEq, Repr

def DecodeError.message : DecodeError → String
  | .truncated length =>
    s!"Truncated script: {length} bytes is not a whole number of invocations"
  | .strayOperand position op operand =>
    let name := op.name
    s!"Invocation {position}: {name} takes no operand, got {operand}"

def toBytes (s : Script) : List UInt8 :=
  s.invocations.flatMap fun i => [i.opcode, i.operand]

def pairUp : List UInt8 → List Invocation
  | opcode :: operand :: rest => ⟨opcode, operand⟩ :: pairUp rest
  | _ => []

-- The first invocation with a stray operand.
def firstStray? (position : Nat) : List Invocation → Option (Nat × Opcode × UInt8)
  | [] => none
  | i :: rest =>
    match i.strayOpcode? with
    | some op => some (position, op, i.operand)
    | none => firstStray? (position + 1) rest

-- Unknown opcodes are kept with their operands. They fail when they are run.
def ofBytes (bytes : List UInt8) : Except DecodeError Script :=
  if bytes.length % 2 = 1 then .error (.truncated bytes.length)
  else
    let invocations := pairUp bytes
    match firstStray? 0 invocations with
    | some (position, op, operand) => .error (.strayOperand position op operand)
    | none => .ok ⟨invocations⟩

-- The first fetch of a constant beyond the pool: its position and the index asked for.
def firstOutOfPool? (poolSize position : Nat) : List Invocation → Option (Nat × UInt8)
  | [] => none
  | i :: rest =>
    if i.outOfPool poolSize then some (position, i.operand)
    else firstOutOfPool? poolSize (position + 1) rest

def outOfPool? (s : Script) (poolSize : Nat) : Option (Nat × UInt8) :=
  firstOutOfPool? poolSize 0 s.invocations

-- Why a text is not the hexadecimal form of a script.
inductive TextError
  | hex (error : Text.Hex.Error)
  | decode (error : DecodeError)
deriving DecidableEq, Repr

def TextError.message : TextError → String
  | .hex .oddLength => "Odd number of digits"
  | .hex (.badDigit byte position) =>
    "Invalid character " ++ Text.Quoted.char (Char.ofNat byte.toNat) ++ s!" at position {position}"
  | .decode error => error.message

def text (s : Script) : String :=
  String.ofList ('0' :: 'x' :: Text.Hex.encode s.toBytes)

-- The marker `0x` is optional.
def ofText (s : String) : Except TextError Script :=
  match Text.Hex.decode (Text.Hex.unmark s.toList) with
  | .error error => .error (.hex error)
  | .ok bytes => (ofBytes bytes).mapError .decode

-- One line of a listing. The operand of an opcode that takes none is shown only when it is not
-- zero, so that the line does not assemble into something else.
def listingLine (position : Nat) (i : Invocation) : String :=
  let offset := String.ofList (Text.Hex.padded 4 (2 * position))
  let operand := i.operand
  match i.op? with
  | some op =>
    let name := op.name
    if op.takesOperand || i.operand != 0 then s!"{offset}: {name} {operand}\n"
    else s!"{offset}: {name}\n"
  | none =>
    let opcode := String.ofList (Text.Hex.ofByte i.opcode)
    s!"{offset}: UNKNOWN 0x{opcode} {operand}\n"

def listingFrom (position : Nat) : List Invocation → List Char
  | [] => []
  | i :: rest => (listingLine position i).toList ++ listingFrom (position + 1) rest

-- Each invocation on a line, after its offset in the byte form.
def listing (s : Script) : String :=
  String.ofList (listingFrom 0 s.invocations)

end Script

end Tariff

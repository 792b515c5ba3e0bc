import Tariff.Text.Upper

namespace Tariff

inductive Opcode
  | constant
  | stack
  | context
  | add
  | sub
  | mul
  | div
  | mod
  | min
  | max
  | eq
  | lt
  | gt
  | isZero
  | eagerIf
deriving DecidableEq, Repr

namespace Opcode

-- All opcodes in the order of their bytes.
def all : List Opcode :=
  [.constant, .stack, .context, .add, .sub, .mul, .div, .mod, .min, .max, .eq, .lt, .gt, .isZero,
    .eagerIf]

def byte : Opcode → UInt8
  | .constant => 0x00
  | .stack => 0x01
  | .context => 0x02
  | .add => 0x10
  | .sub => 0x11
  | .mul => 0x12
  | .div => 0x13
  | .mod => 0x14
  | .min => 0x15
  | .max => 0x16
  | .eq => 0x20
  | .lt => 0x21
  | .gt => 0x22
  | .isZero => 0x23
  | .eagerIf => 0x30

-- The mnemonic in assembly text and in messages.
def name : Opcode → String
  | .constant => "CONSTANT"
  | .stack => "STACK"
  | .context => "CONTEXT"
  | .add => "ADD"
  | .sub => "SUB"
  | .mul => "MUL"
  | .div => "DIV"
  | .mod => "MOD"
  | .min => "MIN"
  | .max => "MAX"
  | .eq => "EQ"
  | .lt => "LT"
  | .gt => "GT"
  | .isZero => "ISZERO"
  | .eagerIf => "EAGER_IF"

-- The name in documents.
def tag : Opcode → String
  | .constant => "Constant"
  | .stack => "Stack"
  | .context => "Context"
  | .add => "Add"
  | .sub => "Sub"
  | .mul => "Mul"
  | .div => "Div"
  | .mod => "Mod"
  | .min => "Min"
  | .max => "Max"
  | .eq => "Eq"
  | .lt => "Lt"
  | .gt => "Gt"
  | .isZero => "IsZero"
  | .eagerIf => "EagerIf"

-- Only the three opcodes that fetch a value read their operand.
def takesOperand : Opcode → Bool
  | .constant | .stack | .context => true
  | _ => false

def ofByte? : UInt8 → Option Opcode
  | 0x00 => some .constant
  | 0x01 => some .stack
  | 0x02 => some .context
  | 0x10 => some .add
  | 0x11 => some .sub
  | 0x12 => some .mul
  | 0x13 => some .div
  | 0x14 => some .mod
  | 0x15 => some .min
  | 0x16 => some .max
  | 0x20 => some .eq
  | 0x21 => some .lt
  | 0x22 => some .gt
  | 0x23 => some .isZero
  | 0x30 => some .eagerIf
  | _ => none

-- Mnemonics are matched by their upper case, so any spelling that becomes the mnemonic counts.
def ofName? (cs : List Char) : Option Opcode :=
  let name := Text.upper cs
  all.find? (·.name.toList == name)

theorem ofByte?_byte (op : Opcode) : ofByte? op.byte = some op := by
  cases op <;> rfl

theorem byte_of_ofByte? {b : UInt8} {op : Opcode} (h : ofByte? b = some op) : op.byte = b := by
  unfold ofByte? at h
  split at h <;> cases h <;> rfl

end Opcode

end Tariff

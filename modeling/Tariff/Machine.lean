import Tariff.Context
import Tariff.Script

namespace Tariff

-- Why an invocation cannot be executed.
inductive Fault
  | unknownOpcode (opcode : UInt8)
  | constantOutOfRange (index : UInt8) (poolSize : Nat)
  | stackUnderflow (needed available : Nat)
  | stackOverflow
  | contextOutOfRange (index : UInt8)
  | divisionByZero
  | arithmeticOverflow (op : Opcode)
deriving DecidableEq, Repr

namespace Machine

def maxDepth : Nat := 1024

end Machine

namespace Fault

def message : Fault → String
  | .unknownOpcode opcode => "Unknown opcode: 0x" ++ String.ofList (Text.Hex.ofByte opcode)
  | .constantOutOfRange index poolSize =>
    s!"Constant index {index} out of range (pool size {poolSize})"
  | .stackUnderflow needed available => s!"Stack underflow: need {needed}, have {available}"
  | .stackOverflow =>
    let limit := Machine.maxDepth
    s!"Stack overflow (max: {limit})"
  | .contextOutOfRange index => s!"Context index {index} out of range"
  | .divisionByZero => "Division by zero"
  | .arithmeticOverflow op => "Arithmetic overflow in " ++ op.name

def inspect : Fault → String
  | .unknownOpcode opcode => s!"UnknownOpcode({opcode})"
  | .constantOutOfRange index poolSize =>
    s!"IndexOutOfRange \x7b index: {index}, len: {poolSize} \x7d"
  | .stackUnderflow needed available =>
    s!"StackUnderflow \x7b needed: {needed}, available: {available} \x7d"
  | .stackOverflow =>
    let limit := Machine.maxDepth
    s!"StackOverflow({limit})"
  | .contextOutOfRange index => s!"ContextIndexOutOfRange({index})"
  | .divisionByZero => "DivisionByZero"
  | .arithmeticOverflow op => "ArithmeticOverflow(" ++ Text.Quoted.text op.name ++ ")"

end Fault

namespace Machine

-- The top of the stack is the head of the list.
abbrev Stack := List Amount

-- What a run reads and never changes.
structure Environment where
  constants : List Amount
  context : Context

def push (stack : Stack) (value : Amount) : Except Fault Stack :=
  if maxDepth ≤ stack.length then .error .stackOverflow else .ok (value :: stack)

def pop : Stack → Except Fault (Amount × Stack)
  | [] => .error (.stackUnderflow 1 0)
  | value :: rest => .ok (value, rest)

def require (stack : Stack) (needed : Nat) : Except Fault Unit :=
  if stack.length < needed then .error (.stackUnderflow needed stack.length) else .ok ()

-- The value at `index`, counted from the bottom.
def fromBottom? (stack : Stack) (index : Nat) : Option Amount :=
  stack.reverse[index]?

-- A failed step leaves a stack too: a failed check has touched nothing, failed arithmetic has
-- already taken its operands.
inductive Outcome
  | done (stack : Stack)
  | failed (fault : Fault) (stack : Stack)
deriving DecidableEq

def Outcome.stack : Outcome → Stack
  | .done stack => stack
  | .failed _ stack => stack

def Outcome.result : Outcome → Except Fault Stack
  | .done stack => .ok stack
  | .failed fault _ => .error fault

def pushOn (stack : Stack) (value : Amount) : Outcome :=
  match push stack value with
  | .ok stack => .done stack
  | .error fault => .failed fault stack

theorem pushOn_of_lt {stack : Stack} (h : stack.length < maxDepth) (value : Amount) :
    pushOn stack value = .done (value :: stack) := by
  rw [pushOn, push, if_neg (Nat.not_le_of_lt h)]

theorem pushOn_of_le {stack : Stack} (h : maxDepth ≤ stack.length) (value : Amount) :
    pushOn stack value = .failed .stackOverflow stack := by
  rw [pushOn, push, if_pos h]

theorem pushOn_eq_done {stack next : Stack} {value : Amount} :
    pushOn stack value = .done next ↔ stack.length < maxDepth ∧ next = value :: stack := by
  by_cases hfull : maxDepth ≤ stack.length
  · simp [pushOn_of_le hfull, Nat.not_lt_of_le hfull]
  · have hroom : stack.length < maxDepth := Nat.lt_of_not_le hfull
    simp [pushOn_of_lt hroom, hroom, eq_comm]

theorem pushOn_eq_failed {stack left : Stack} {value : Amount} {fault : Fault}
    (h : pushOn stack value = .failed fault left) :
    maxDepth ≤ stack.length ∧ fault = .stackOverflow ∧ left = stack := by
  by_cases hfull : maxDepth ≤ stack.length
  · rw [pushOn_of_le hfull] at h
    cases h
    exact ⟨hfull, rfl, rfl⟩
  · rw [pushOn_of_lt (Nat.lt_of_not_le hfull)] at h
    cases h

-- The three fetches: from the pool, from the stack, from the context.
def fetch (stack : Stack) (value? : Option Amount) (missing : Fault) : Outcome :=
  match value? with
  | some value => pushOn stack value
  | none => .failed missing stack

-- Takes `b` from the top and `a` below it, and pushes the combined value. What was taken is gone
-- when the push fails.
def binary (stack : Stack) (combine : Amount → Amount → Except Fault Amount) : Outcome :=
  match stack with
  | b :: a :: rest =>
    match combine a b with
    | .ok value => pushOn rest value
    | .error fault => .failed fault rest
  | _ => .failed (.stackUnderflow 2 stack.length) stack

def checked (fault : Fault) : Option Amount → Except Fault Amount
  | some value => .ok value
  | none => .error fault

def unary (stack : Stack) (apply : Amount → Amount) : Outcome :=
  match stack with
  | a :: rest => pushOn rest (apply a)
  | [] => .failed (.stackUnderflow 1 0) stack

-- Both branches have been computed; the condition below them picks one.
def choose (stack : Stack) : Outcome :=
  match stack with
  | otherwise :: chosen :: condition :: rest =>
    pushOn rest (if condition.isZero then otherwise else chosen)
  | _ => .failed (.stackUnderflow 3 stack.length) stack

def perform (env : Environment) (op : Opcode) (operand : UInt8) (stack : Stack) : Outcome :=
  match op with
  | .constant =>
    fetch stack env.constants[operand.toNat]? (.constantOutOfRange operand env.constants.length)
  | .stack =>
    fetch stack (fromBottom? stack operand.toNat)
      (.stackUnderflow (operand.toNat + 1) stack.length)
  | .context => fetch stack (env.context.slot? operand) (.contextOutOfRange operand)
  | .add => binary stack fun a b => checked (.arithmeticOverflow .add) (a.add? b)
  | .sub => binary stack fun a b => checked (.arithmeticOverflow .sub) (a.sub? b)
  | .mul => binary stack fun a b => checked (.arithmeticOverflow .mul) (a.mul? b)
  | .div => binary stack fun a b => checked .divisionByZero (a.div? b)
  | .mod => binary stack fun a b => checked .divisionByZero (a.mod? b)
  | .min => binary stack fun a b => .ok (a.min b)
  | .max => binary stack fun a b => .ok (a.max b)
  | .eq => binary stack fun a b => .ok (.ofBool (a == b))
  | .lt => binary stack fun a b => .ok (.ofBool (a.toNat < b.toNat))
  | .gt => binary stack fun a b => .ok (.ofBool (b.toNat < a.toNat))
  | .isZero => unary stack fun a => .ofBool a.isZero
  | .eagerIf => choose stack

-- A place for each byte. An opcode stands for its handler, which is `perform`.
def handlers : List (Option Opcode) :=
  Opcode.all.foldl (fun table op => table.set op.byte.toNat (some op)) (List.replicate 256 none)

def handler? (opcode : UInt8) : Option Opcode :=
  handlers[opcode.toNat]?.join

-- Scripts are decoded without the table, and executed by it.
theorem handler?_eq_ofByte? (opcode : UInt8) : handler? opcode = Opcode.ofByte? opcode := by
  have htable : handlers = (List.range 256).map fun n => Opcode.ofByte? (UInt8.ofNat n) := by
    decide +kernel
  have hplace : (List.range 256)[opcode.toNat]? = some opcode.toNat :=
    List.getElem?_range opcode.toNat_lt
  rw [handler?, htable, List.getElem?_map, hplace, Option.map_some, UInt8.ofNat_toNat]
  rfl

def step (env : Environment) (i : Invocation) (stack : Stack) : Outcome :=
  match handler? i.opcode with
  | some op => perform env op i.operand stack
  | none => .failed (.unknownOpcode i.opcode) stack

theorem step_of_op? {i : Invocation} {op : Opcode} (h : i.op? = some op) (env : Environment)
    (stack : Stack) : step env i stack = perform env op i.operand stack := by
  rw [step, handler?_eq_ofByte?, show Opcode.ofByte? i.opcode = some op from h]

theorem step_of_unknown {i : Invocation} (h : i.op? = none) (env : Environment) (stack : Stack) :
    step env i stack = .failed (.unknownOpcode i.opcode) stack := by
  rw [step, handler?_eq_ofByte?, show Opcode.ofByte? i.opcode = none from h]

-- Where a run stopped, and why.
structure Failure where
  position : Nat
  fault : Fault
deriving DecidableEq, Repr

def Failure.message (f : Failure) : String :=
  let position := f.position
  s!"Step {position} failed: " ++ f.fault.message

def Failure.inspect (f : Failure) : String :=
  let position := f.position
  s!"Step \x7b position: {position}, source: " ++ f.fault.inspect ++ " \x7d"

-- Executes invocations from a stack; the first of them stands at `position`.
def execute (env : Environment) (position : Nat) :
    List Invocation → Stack → Except Failure Stack
  | [], stack => .ok stack
  | i :: rest, stack =>
    match step env i stack with
    | .done stack => execute env (position + 1) rest stack
    | .failed fault _ => .error ⟨position, fault⟩

def run (env : Environment) (script : Script) : Except Failure Stack :=
  execute env 0 script.invocations []

-- What the stack holds, bottom first: the order in which results are read.
def bottomUp (stack : Stack) : List Amount :=
  stack.reverse

end Machine

end Tariff

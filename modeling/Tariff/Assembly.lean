import Tariff.Program

namespace Tariff.Assembly

-- What a line asks for.
inductive Line
  | blank
  | constant (value : Amount)
  | source
  | instruction (i : Invocation)
deriving DecidableEq

-- What is wrong with a line.
inductive Problem
  | unknownInstruction (name : String)
  | unknownDirective (name : String)
  | badArgument (reason : String)
  | badNumber (text : String)
  | strayOperand (name : String)
deriving DecidableEq, Repr

-- Lines are counted from one.
structure Error where
  line : Nat
  problem : Problem
deriving DecidableEq, Repr

def Error.message (e : Error) : String :=
  let line := e.line
  s!"line {line}: " ++
    match e.problem with
    | .unknownInstruction name => s!"unknown instruction: {name}"
    | .unknownDirective name => s!"unknown directive: {name}"
    | .badArgument reason => reason
    | .badNumber text => s!"invalid number: {text}"
    | .strayOperand name => s!"{name} takes no operand"

def Error.inspect (e : Error) : String :=
  let line := e.line
  let shown (cause field text : String) : String :=
    s!"{cause} \x7b line: {line}, {field}: " ++ Text.Quoted.text text ++ " \x7d"
  match e.problem with
  | .unknownInstruction name => shown "UnknownInstruction" "name" name
  | .unknownDirective name => shown "UnknownDirective" "name" name
  | .badArgument reason => shown "InvalidArgument" "message" reason
  | .badNumber text => shown "InvalidNumber" "text" text
  | .strayOperand name => shown "UnexpectedOperand" "name" name

-- A comment starts at the first semicolon or number sign.
def dropComment (cs : List Char) : List Char :=
  cs.takeWhile fun c => c != ';' && c != '#'

def readConstant : List (List Char) → Except Problem Line
  | [] => .error (.badArgument ".constant requires a value")
  | text :: extra =>
    match Amount.ofDigits? text with
    | none => .error (.badNumber (String.ofList text))
    | some value =>
      if extra.isEmpty then .ok (.constant value)
      else .error (.badArgument "too many arguments for .constant")

def readSource (arguments : List (List Char)) : Except Problem Line :=
  if arguments.isEmpty then .ok .source
  else .error (.badArgument ".source takes no arguments")

-- The words after the dot. Directives are matched in any letter case, and only the letters `A` to
-- `Z` have a lower case among the letters of the two names.
def readDirective : List (List Char) → Except Problem Line
  | [] => .error (.unknownDirective "")
  | name :: arguments =>
    let lower := name.map Char.toLower
    if lower = "constant".toList then readConstant arguments
    else if lower = "source".toList then readSource arguments
    else .error (.unknownDirective (String.ofList name))

def readOperand (op : Opcode) : List (List Char) → Except Problem UInt8
  | [] =>
    if op.takesOperand then .error (.badArgument (op.name ++ " requires an operand")) else .ok 0
  | text :: _ =>
    if op.takesOperand then
      match Text.Decimal.unsigned? 256 text with
      | some n => .ok (UInt8.ofNat n)
      | none => .error (.badNumber (String.ofList text))
    else .error (.strayOperand op.name)

def readInstruction : List (List Char) → Except Problem Line
  | [] => .ok .blank
  | name :: arguments =>
    match Opcode.ofName? name with
    | none => .error (.unknownInstruction (String.ofList (Text.upper name)))
    | some op =>
      match readOperand op arguments with
      | .error problem => .error problem
      | .ok operand =>
        if arguments.length > 1 then
          .error (.badArgument ("too many arguments for " ++ op.name))
        else .ok (.instruction (.of op operand))

def readLine (cs : List Char) : Except Problem Line :=
  match Text.trim (dropComment cs) with
  | [] => .ok .blank
  | '.' :: rest => readDirective (Text.words rest)
  | body => readInstruction (Text.words body)

-- What an assembler has built: the sources and the constants with the latest first, and in each
-- source the latest instruction first.
structure Assembler where
  sources : List (List Invocation)
  constants : List Amount
deriving DecidableEq

namespace Assembler

def new : Assembler := ⟨[], []⟩

-- The first source is there without being asked for.
def restart (a : Assembler) : Assembler :=
  { a with sources := [[]], constants := [] }

-- Instructions go to the source that was started last.
def take (a : Assembler) : Line → Assembler
  | .blank => a
  | .constant value => { a with constants := value :: a.constants }
  | .source => { a with sources := [] :: a.sources }
  | .instruction i =>
    match a.sources with
    | [] => a
    | current :: earlier => { a with sources := (i :: current) :: earlier }

-- Takes lines, the first of which has the given number. The first line that is wrong ends it, and
-- what was built before that line is left behind.
def takeLines (a : Assembler) (number : Nat) : List (List Char) → Option Error × Assembler
  | [] => (none, a)
  | cs :: rest =>
    match readLine cs with
    | .error problem => (some ⟨number, problem⟩, a)
    | .ok line => (a.take line).takeLines (number + 1) rest

def program (a : Assembler) : Program :=
  ⟨a.sources.reverse.map fun source => ⟨source.reverse⟩, a.constants.reverse⟩

-- One assembler serves for one text after another. A program that is handed out is not kept.
def assemble (a : Assembler) (text : String) : Except Error Program × Assembler :=
  match a.restart.takeLines 1 (Text.lines text.toList) with
  | (some error, a) => (.error error, a)
  | (none, a) => (.ok a.program, new)

end Assembler

def assemble (text : String) : Except Error Program :=
  (Assembler.new.assemble text).1

end Tariff.Assembly

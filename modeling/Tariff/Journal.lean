import Tariff.Catalogue

namespace Tariff

inductive Level
  | trace
  | debug
  | info
deriving DecidableEq, Repr

def Level.name : Level → String
  | .trace => "TRACE"
  | .debug => "DEBUG"
  | .info => "INFO"

-- Notes have no influence on any result, so they are computed beside it.
structure Note where
  level : Level
  text : String
deriving DecidableEq, Repr

def Note.line (n : Note) : String :=
  n.level.name ++ " " ++ n.text

abbrev Journal := List Note

namespace Journal

-- Before each step: its position, its bytes and the depth of the stack.
def stepNote (position : Nat) (i : Invocation) (stack : Machine.Stack) : Note :=
  let opcode := String.ofList (Text.Hex.ofByte i.opcode)
  ⟨.trace, s!"step {position}: op=0x{opcode} operand={i.operand} depth={stack.length}"⟩

-- A note for each step up to the first that fails, and one for the end.
def ofSteps (env : Machine.Environment) (position : Nat) :
    List Invocation → Machine.Stack → Journal
  | [], stack => [⟨.debug, s!"Script finished: {position} steps, {stack.length} values on stack"⟩]
  | i :: rest, stack =>
    stepNote position i stack ::
      match Machine.step env i stack with
      | .done stack => ofSteps env (position + 1) rest stack
      | .failed _ _ => []

def ofScript (env : Machine.Environment) (script : Script) : Journal :=
  ofSteps env 0 script.invocations []

def ofRun (p : Program) (index : Nat) (context : Context) : Journal :=
  match p.sources[index]? with
  | none => []
  | some script => ofScript (p.environment context) script

def ofEvaluation (a : Asset) (context : Context) : Journal :=
  ofRun a.program Asset.pricingSource context ++
    match a.stack context with
    | .error _ => []
    | .ok stack =>
      let values := ", ".intercalate (stack.map Amount.text)
      let buyer := context.buyer.text
      let units := context.units.text
      [⟨.debug, s!"Asset {a.id} evaluated for {buyer} ({units} units): [{values}]"⟩]

-- Nothing is run for a currency that does not exist.
def ofPrice (a : Asset) (index : Nat) (context : Context) : Journal :=
  match a.currency index with
  | .error _ => []
  | .ok _ => ofEvaluation a context

def ofQuote (a : Asset) (index : Nat) (context : Context) : Journal :=
  if context.units.isZero then [] else ofPrice a index context

def ofRegistration (a : Asset) : Journal :=
  let start := String.ofList (a.fingerprint.toList.take 16)
  let count := a.currencies.length
  [⟨.info, s!"Asset registered: {a.id} ({a.details.name}) with {count} currencies, script {start}"⟩]

-- Registering an offer.
def ofRegister (c : Catalogue) (o : Offer) (now : Timestamp) : Journal :=
  match c.register o now with
  | .error _ => []
  | .ok (asset, _) => ofRegistration asset

-- Of an asset in a catalogue, nothing when there is none.
def ofAsset (c : Catalogue) (id : Nat) (notes : Asset → Journal) : Journal :=
  match c.get? id with
  | none => []
  | some asset => notes asset

end Journal

end Tariff

import Tariff.Text.Decimal

namespace Tariff.Command

inductive Action
  | compile (file : String) (output : Option String)
  | disassemble (file : String)
  | price (asset currency : Nat) (buyer : Option String) (units : String)
  | cost (asset : Nat) (buyer : Option String) (units : String)
  | quote (asset currency : Nat) (buyer : Option String) (units : String)
  | serve (port : Nat)
deriving DecidableEq, Repr

-- What a command line asks for, and the file with the assets.
structure Order where
  assets : String
  action : Action
deriving DecidableEq, Repr

-- Why no command is run.
inductive Halt
  | usage
  | help
  | version
deriving DecidableEq, Repr

inductive Parameter
  | assets
  | file
  | output
  | asset
  | currency
  | buyer
  | units
  | port
deriving DecidableEq, Repr

namespace Parameter

def name : Parameter → String
  | .assets => "assets"
  | .file => "file"
  | .output => "output"
  | .asset => "asset"
  | .currency => "currency"
  | .buyer => "buyer"
  | .units => "units"
  | .port => "port"

-- All but one have a short form, their first letter: `a` is taken by the file with the assets.
def letter? : Parameter → Option Char
  | .assets => some 'a'
  | .file => some 'f'
  | .output => some 'o'
  | .asset => none
  | .currency => some 'c'
  | .buyer => some 'b'
  | .units => some 'u'
  | .port => some 'p'

end Parameter

def readNumber? (value : String) : Option Nat :=
  Text.Decimal.unsigned? (Nat.pow 2 64) value.toList

-- A port is read as a signed number first, so a minus sign is allowed before zeros.
def readPort? (value : String) : Option Nat :=
  match value.toList with
  | '-' :: digits =>
    if !digits.isEmpty && digits.all (· == '0') then some 0 else none
  | digits => Text.Decimal.unsigned? 65536 digits

-- Values are checked as they are met. The buyer and the units are only read by the command.
def Parameter.accepts (value : String) : Parameter → Bool
  | .assets | .file | .output => !value.isEmpty
  | .asset | .currency => (readNumber? value).isSome
  | .buyer | .units => true
  | .port => (readPort? value).isSome

inductive Verb
  | compile
  | disassemble
  | price
  | cost
  | quote
  | serve
deriving DecidableEq, Repr

namespace Verb

def all : List Verb :=
  [.compile, .disassemble, .price, .cost, .quote, .serve]

def name : Verb → String
  | .compile => "compile"
  | .disassemble => "disasm"
  | .price => "price"
  | .cost => "cost"
  | .quote => "quote"
  | .serve => "serve"

def parameters : Verb → List Parameter
  | .compile => [.file, .output]
  | .disassemble => [.file]
  | .price | .quote => [.asset, .currency, .buyer, .units]
  | .cost => [.asset, .buyer, .units]
  | .serve => [.port]

end Verb

-- A word that ends the arguments in front of it: a command, or a question about commands.
inductive Word
  | verb (verb : Verb)
  | help
deriving DecidableEq, Repr

def Word.ofText? (arg : String) : Option Word :=
  if arg = "help" then some .help else (Verb.all.find? (·.name == arg)).map .verb

-- What may stand at one level: parameters, and at the top also words and the version.
structure Grammar where
  parameters : List Parameter
  isTop : Bool
deriving DecidableEq, Repr

abbrev Values := List (Parameter × String)

-- A parameter takes one value, once.
def record (values : Values) (p : Parameter) (value : String) : Except Halt Values :=
  if (values.lookup p).isSome || !p.accepts value then .error .usage
  else .ok (values ++ [(p, value)])

-- An argument that starts with a dash, and the value that is part of it.
inductive Flag
  | long (name : String) (value : Option String)
  | short (letter : Char) (value : Option String)
deriving DecidableEq, Repr

-- Two dashes start a name, one dash a letter with its value right behind. A value may be set
-- apart by an equals sign. A dash alone is a value.
def Flag.ofChars? : List Char → Option Flag
  | '-' :: '-' :: rest =>
    let value := match rest.dropWhile (· != '=') with
      | [] => none
      | _ :: value => some (String.ofList value)
    some (.long (String.ofList (rest.takeWhile (· != '='))) value)
  | ['-', letter] => some (.short letter none)
  | '-' :: letter :: '=' :: value => some (.short letter (some (String.ofList value)))
  | '-' :: letter :: value => some (.short letter (some (String.ofList value)))
  | _ => none

namespace Grammar

-- Help and version take effect where they stand. Spelled out, they take no value.
def halt? (g : Grammar) : Flag → Option Halt
  | .long "help" none => some .help
  | .long "version" none => if g.isTop then some .version else none
  | .short 'h' _ => some .help
  | .short 'V' _ => if g.isTop then some .version else none
  | _ => none

def parameter? (g : Grammar) : Flag → Option (Parameter × Option String)
  | .long name value => (g.parameters.find? (·.name == name)).map (·, value)
  | .short letter value => (g.parameters.find? (·.letter? == some letter)).map (·, value)

def word? (g : Grammar) (arg : String) : Option Word :=
  if g.isTop then Word.ofText? arg else none

-- Reads arguments up to a word or to the end. `due` is the parameter whose value comes next: an
-- argument that starts with a dash is no such value. After two bare dashes nothing may follow.
def read (g : Grammar) : Option Parameter → Values → List String →
    Except Halt (Values × Option (Word × List String))
  | none, values, [] => .ok (values, none)
  | some _, _, [] => .error .usage
  | some p, values, arg :: rest =>
    match Flag.ofChars? arg.toList with
    | some _ => .error .usage
    | none => do
      let values ← record values p arg
      g.read none values rest
  | none, values, arg :: rest =>
    if arg = "--" then if rest.isEmpty then .ok (values, none) else .error .usage
    else
      match Flag.ofChars? arg.toList with
      | none =>
        match g.word? arg with
        | some word => .ok (values, some (word, rest))
        | none => .error .usage
      | some flag =>
        match g.halt? flag, g.parameter? flag with
        | some halt, _ => .error halt
        | none, none => .error .usage
        | none, some (p, none) => g.read (some p) values rest
        | none, some (p, some value) => do
          let values ← record values p value
          g.read none values rest

end Grammar

def required (values : Values) (p : Parameter) : Except Halt String :=
  match values.lookup p with
  | some value => .ok value
  | none => .error .usage

def requiredNumber (values : Values) (p : Parameter) : Except Halt Nat := do
  let value ← required values p
  match readNumber? value with
  | some n => .ok n
  | none => .error .usage

def defaultPort : Nat := 3000

def defaultAssets : String := "assets.json"

-- Without a currency the first one is meant, without units one.
def actionOf (values : Values) (verb : Verb) : Except Halt Action := do
  let currency := ((values.lookup .currency).bind readNumber?).getD 0
  let buyer := values.lookup .buyer
  let units := (values.lookup .units).getD "1"
  match verb with
  | .compile => return .compile (← required values .file) (values.lookup .output)
  | .disassemble => return .disassemble (← required values .file)
  | .price => return .price (← requiredNumber values .asset) currency buyer units
  | .cost => return .cost (← requiredNumber values .asset) buyer units
  | .quote => return .quote (← requiredNumber values .asset) currency buyer units
  | .serve => return .serve (((values.lookup .port).bind readPort?).getD defaultPort)

-- Help may be asked for on one command, or on help.
def helpOn : List String → Halt
  | [] => .help
  | [arg] => if (Word.ofText? arg).isSome then .help else .usage
  | _ => .usage

def parse (args : List String) : Except Halt Order := do
  let (values, word) ← Grammar.read ⟨[.assets], true⟩ none [] args
  match word with
  | none => .error .usage
  | some (.help, rest) => .error (helpOn rest)
  | some (.verb verb, rest) =>
    let (own, _) ← Grammar.read ⟨verb.parameters, false⟩ none [] rest
    let action ← actionOf own verb
    return ⟨(values.lookup .assets).getD defaultAssets, action⟩

end Tariff.Command

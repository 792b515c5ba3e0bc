import Tariff.Json.Token
import Tariff.Text.Double
import Tariff.Text.Quoted

namespace Tariff.Json

-- What stands where something else was wanted.
inductive Found
  | null
  | boolean (b : Bool)
  | natural (n : Nat)
  | negative (n : Nat)
  | double (text : String)
  | text (s : String)
  | list
  | object
deriving DecidableEq, Repr

def Found.message : Found → String
  | .null => "null"
  | .boolean b => s!"boolean `{b}`"
  | .natural n => s!"integer `{n}`"
  | .negative n => s!"integer `-{n}`"
  | .double shown => s!"floating point `{shown}`"
  | .text s => "string " ++ Text.Quoted.text s
  | .list => "sequence"
  | .object => "map"

-- How a well-formed document differs from what was wanted.
inductive Mismatch
  | wrongType (found : Found) (wanted : String)
  | wrongValue (found : Found) (wanted : String)
  | wrongLength (length : Nat) (wanted : String)
  | missingField (name : String)
  | duplicateField (name : String)
  | unknownVariant (name : String) (known : List String)
  -- Neither a machine integer nor a string where an amount was wanted.
  | noAmount
  -- A string of the right kind that its own reader refuses.
  | refused (reason : String)
deriving DecidableEq, Repr

def Mismatch.known : List String → String
  | [] => "there are no variants"
  | [a] => s!"expected `{a}`"
  | [a, b] => s!"expected `{a}` or `{b}`"
  | names => "expected one of " ++ ", ".intercalate (names.map fun name => s!"`{name}`")

def Mismatch.message : Mismatch → String
  | .wrongType found wanted => "invalid type: " ++ found.message ++ ", expected " ++ wanted
  | .wrongValue found wanted => "invalid value: " ++ found.message ++ ", expected " ++ wanted
  | .wrongLength length wanted => s!"invalid length {length}, expected {wanted}"
  | .missingField name => s!"missing field `{name}`"
  | .duplicateField name => s!"duplicate field `{name}`"
  | .unknownVariant name names => s!"unknown variant `{name}`, " ++ known names
  | .noAmount => "data did not match any variant of untagged enum Raw"
  | .refused reason => reason

inductive Error
  | malformed
  | mismatch (m : Mismatch)
deriving DecidableEq, Repr

-- The number is how many containers may still be opened inside each other.
abbrev Reader (α : Type) := Nat → List Token → Except Error (α × List Token)

def foundNumber : Number → Found
  | .natural n => .natural n
  | .negative n => .negative n
  | .double f => .double (Text.Double.text f)

-- The error at a value that is not of the wanted type. A list or an object is not looked into.
def wrongType (wanted : String) : List Token → Error
  | .null :: _ => .mismatch (.wrongType .null wanted)
  | .boolean b :: _ => .mismatch (.wrongType (.boolean b) wanted)
  | .number n :: _ =>
    match n.value? with
    | some number => .mismatch (.wrongType (foundNumber number) wanted)
    | none => .malformed
  | .text (some s) :: _ => .mismatch (.wrongType (.text s) wanted)
  | .openList :: _ => .mismatch (.wrongType .list wanted)
  | .openObject :: _ => .mismatch (.wrongType .object wanted)
  | _ => .malformed

namespace Reader

def text : Reader String
  | _, .text (some s) :: rest => .ok (s, rest)
  | _, tokens => .error (wrongType "a string" tokens)

-- An integer that fits a machine word.
def natural (wanted : String) : Reader Nat
  | _, .number n :: rest =>
    match n.value? with
    | some (.natural k) => .ok (k, rest)
    | some (.negative k) => .error (.mismatch (.wrongValue (.negative k) wanted))
    | some number => .error (.mismatch (.wrongType (foundNumber number) wanted))
    | none => .error .malformed
  | _, tokens => .error (wrongType wanted tokens)

-- A string with a reader of its own.
def parsed {α ε : Type} (read : String → Except ε α) (reason : ε → String) : Reader α
  | room, tokens =>
    match text room tokens with
    | .error e => .error e
    | .ok (s, rest) =>
      match read s with
      | .ok value => .ok (value, rest)
      | .error e => .error (.mismatch (.refused (reason e)))

-- `null` stands for nothing.
def optional {α : Type} (read : Reader α) : Reader (Option α)
  | _, .null :: rest => .ok (none, rest)
  | room, tokens =>
    match read room tokens with
    | .ok (value, rest) => .ok (some value, rest)
    | .error e => .error e

-- The items after the opening bracket, up to the closing one. `first` says that no item has been
-- read yet, so that no comma is due. Every item takes a token, so the number of tokens is enough
-- fuel.
def items {α : Type} (read : Reader α) (room : Nat) :
    Nat → Bool → List Token → Except Error (List α × List Token)
  | 0, _, _ => .error .malformed
  | _ + 1, _, .closeList :: rest => .ok ([], rest)
  | fuel + 1, first, tokens =>
    let due := if first then some tokens else
      match tokens with
      | .comma :: rest => some rest
      | _ => none
    match due with
    | none => .error .malformed
    | some tokens =>
      match read room tokens with
      | .error e => .error e
      | .ok (item, rest) =>
        match items read room fuel false rest with
        | .error e => .error e
        | .ok (more, rest) => .ok (item :: more, rest)

def list {α : Type} (read : Reader α) : Reader (List α)
  | 0, .openList :: _ => .error .malformed
  | room + 1, .openList :: rest => items read room rest.length true rest
  | _, tokens => .error (wrongType "a sequence" tokens)

inductive Container
  | list
  | object
deriving DecidableEq, Repr

-- What may come next while a value is passed over.
inductive Stage
  | value
  -- Right after an opening bracket or brace.
  | opened (c : Container)
  -- Right after a value inside the innermost container.
  | item
  | key
  | colon
deriving DecidableEq, Repr

-- How strictly a value is passed over: with a bound on the nesting and a look at every string and
-- number, or for its shape alone.
inductive Care
  | full (room : Nat)
  | shape
deriving DecidableEq, Repr

-- A token that a value or a key may start with, inside the containers that are open.
def Care.accepts (care : Care) (enclosing : List Container) : Token → Bool
  | .null | .boolean _ => true
  | .number n =>
    match care with
    | .full _ => n.value?.isSome
    | .shape => true
  | .text s =>
    match care with
    | .full _ => s.isSome
    | .shape => true
  | .openList | .openObject =>
    match care with
    | .full room => enclosing.length < room
    | .shape => true
  | _ => false

-- What a token leads to while a value is passed over: the next stage, and the containers that are
-- open then, the innermost first. A value that starts here ends here unless it opens a container.
def startValue (care : Care) (enclosing : List Container) (token : Token) :
    Option (Stage × List Container) :=
  if care.accepts enclosing token then
    match token with
    | .openList => some (.opened .list, .list :: enclosing)
    | .openObject => some (.opened .object, .object :: enclosing)
    | _ => some (.item, enclosing)
  else none

def startKey (care : Care) (enclosing : List Container) (token : Token) :
    Option (Stage × List Container) :=
  match token with
  | .text _ => if care.accepts enclosing token then some (.colon, enclosing) else none
  | _ => none

def advance (care : Care) (stage : Stage) (enclosing : List Container) (token : Token) :
    Option (Stage × List Container) :=
  match stage, token with
  | .value, _ => startValue care enclosing token
  | .opened .list, .closeList => some (.item, enclosing.drop 1)
  | .opened .list, _ => startValue care enclosing token
  | .opened .object, .closeObject => some (.item, enclosing.drop 1)
  | .opened .object, _ => startKey care enclosing token
  | .key, _ => startKey care enclosing token
  | .colon, .colon => some (.value, enclosing)
  | .colon, _ => none
  | .item, _ =>
    match enclosing.head?, token with
    | some .list, .comma => some (.value, enclosing)
    | some .list, .closeList => some (.item, enclosing.drop 1)
    | some .object, .comma => some (.key, enclosing)
    | some .object, .closeObject => some (.item, enclosing.drop 1)
    | _, _ => none

-- Passes over one value, token by token. It is over when no container is open after an item.
def pass (care : Care) : Stage → List Container → List Token → Option (List Token)
  | _, _, [] => none
  | stage, enclosing, token :: rest =>
    match advance care stage enclosing token with
    | none => none
    | some (.item, []) => some rest
    | some (stage, enclosing) => pass care stage enclosing rest

-- One of the names of a fixed choice: a string, or an object with that one name and `null`.
def chosen {α : Type} (choices : List (String × α)) (name : String) : Except Error α :=
  match choices.lookup name with
  | some value => .ok value
  | none => .error (.mismatch (.unknownVariant name (choices.map (·.1))))

def choice {α : Type} (choices : List (String × α)) : Reader α
  | _, .text (some name) :: rest => (chosen choices name).map (·, rest)
  | 0, .openObject :: _ => .error .malformed
  | _ + 1, .openObject :: .text (some name) :: rest =>
    match chosen choices name, rest with
    | .error e, _ => .error e
    | .ok value, .colon :: .null :: .closeObject :: rest => .ok (value, rest)
    | .ok _, .colon :: .null :: _ => .error .malformed
    | .ok _, .colon :: tokens => .error (wrongType "unit" tokens)
    | .ok _, _ => .error .malformed
  | _, _ => .error .malformed

-- Reads a whole text: after the value nothing may follow. Containers nest at most 127 deep.
def document {α : Type} (read : Reader α) (s : String) : Except Error α :=
  match read 127 (Token.ofText s) with
  | .error e => .error e
  | .ok (value, []) => .ok value
  | .ok (_, _ :: _) => .error .malformed

end Reader

end Tariff.Json

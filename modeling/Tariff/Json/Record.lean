import Tariff.Json.Reader

namespace Tariff.Json

-- What a field is when a document leaves it out.
inductive Absence (α : Type)
  | missing
  -- May be left out of an object, but not of a list.
  | optional (value : α)
  | default (value : α)

def Absence.ofObject? {α : Type} : Absence α → Option α
  | .missing => none
  | .optional value => some value
  | .default value => some value

def Absence.ofList? {α : Type} : Absence α → Option α
  | .default value => some value
  | _ => none

structure Schema where
  -- The name of the record in messages.
  name : String
  Field : Type
  decEq : DecidableEq Field
  -- All fields in their order.
  fields : List Field
  mem_fields : ∀ f, f ∈ fields
  key : Field → String
  Content : Field → Type
  read : (f : Field) → Reader (Content f)
  absent : (f : Field) → Absence (Content f)

attribute [instance] Schema.decEq

namespace Schema

variable (s : Schema)

-- The fields that have been read so far.
abbrev Partial := (f : s.Field) → Option (s.Content f)

-- All fields.
abbrev Members := (f : s.Field) → s.Content f

def nothing : s.Partial := fun _ => none

def set (p : s.Partial) (f : s.Field) (value : s.Content f) : s.Partial :=
  fun g => if h : f = g then some (h ▸ value) else p g

def fieldNamed? (key : String) : Option s.Field :=
  s.fields.find? (s.key · == key)

-- A field that an object leaves out takes its fallback.
def filled (p : s.Partial) (f : s.Field) : Option (s.Content f) :=
  (p f).or (s.absent f).ofObject?

-- After the closing brace: the first field, in their order, that is missing is reported.
def complete (p : s.Partial) : Except Error s.Members :=
  if h : ∀ f ∈ s.fields, (s.filled p f).isSome then
    .ok fun f => (s.filled p f).get (h f (s.mem_fields f))
  else
    match s.fields.find? fun f => (s.filled p f).isNone with
    | some f => .error (.mismatch (.missingField (s.key f)))
    | none => .error .malformed

-- One member after its key. A field that was read before is refused before its value is looked
-- at; the value of an unknown member is passed over.
def member (room : Nat) (p : s.Partial) (key : String) (tokens : List Token) :
    Except Error (s.Partial × List Token) :=
  match s.fieldNamed? key with
  | some f =>
    if (p f).isSome then .error (.mismatch (.duplicateField (s.key f)))
    else
      match tokens with
      | .colon :: tokens =>
        match s.read f room tokens with
        | .error e => .error e
        | .ok (value, rest) => .ok (s.set p f value, rest)
      | _ => .error .malformed
  | none =>
    match tokens with
    | .colon :: tokens =>
      match Reader.pass .shape .value [] tokens with
      | some rest => .ok (p, rest)
      | none => .error .malformed
    | _ => .error .malformed

-- The members up to the closing brace. Every member takes a token, so the number of tokens is
-- enough fuel.
def members (room : Nat) :
    Nat → Bool → s.Partial → List Token → Except Error (s.Partial × List Token)
  | 0, _, _, _ => .error .malformed
  | _ + 1, _, p, .closeObject :: rest => .ok (p, rest)
  | fuel + 1, first, p, tokens =>
    let due := if first then some tokens else
      match tokens with
      | .comma :: rest => some rest
      | _ => none
    match due with
    | some (.text (some key) :: rest) =>
      match s.member room p key rest with
      | .error e => .error e
      | .ok (p, rest) => members room fuel false p rest
    | _ => .error .malformed

-- The items of the list form, field by field. `position` is the index of the next field.
def elements (room : Nat) : List s.Field → Nat → s.Partial → List Token →
    Except Error (s.Partial × List Token)
  | [], _, p, .closeList :: rest => .ok (p, rest)
  | [], _, _, _ => .error .malformed
  | f :: fields, position, p, .closeList :: rest =>
    match (s.absent f).ofList? with
    | some value => elements room fields (position + 1) (s.set p f value) (.closeList :: rest)
    | none =>
      let wanted := s!"struct {s.name} with {s.fields.length} elements"
      .error (.mismatch (.wrongLength position wanted))
  | f :: fields, position, p, tokens =>
    let due := if position = 0 then some tokens else
      match tokens with
      | .comma :: rest => some rest
      | _ => none
    match due with
    | none => .error .malformed
    | some tokens =>
      match s.read f room tokens with
      | .error e => .error e
      | .ok (value, rest) => elements room fields (position + 1) (s.set p f value) rest

-- An object with a member for each field, in any order and among others, or a list of all fields in
-- their order.
def reader : Reader s.Members
  | 0, .openObject :: _ => .error .malformed
  | 0, .openList :: _ => .error .malformed
  | room + 1, .openObject :: rest =>
    match s.members room rest.length true s.nothing rest with
    | .error e => .error e
    | .ok (p, rest) => (s.complete p).map (·, rest)
  | room + 1, .openList :: rest =>
    match s.elements room s.fields 0 s.nothing rest with
    | .error e => .error e
    | .ok (p, rest) => (s.complete p).map (·, rest)
  | _, tokens => .error (wrongType ("struct " ++ s.name) tokens)

-- A record type built from its members.
def readerOf {α : Type} (make : s.Members → α) : Reader α
  | room, tokens => (s.reader room tokens).map fun (m, rest) => (make m, rest)

end Schema

end Tariff.Json

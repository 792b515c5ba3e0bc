import Tariff.Text.Blank
import Tariff.Text.Quoted
import Tariff.Text.Utf8

namespace Tariff

-- Where a path starts: at the root, or some levels above the working directory.
inductive Start
  | root
  | above (levels : Nat)
deriving DecidableEq, Repr

-- What a path leads to: the names on the way down from where it starts.
structure Place where
  start : Start
  names : List String
deriving DecidableEq, Repr

namespace Place

-- The working directory.
def here : Place := ⟨.above 0, []⟩

def root : Place := ⟨.root, []⟩

-- Nothing lies above the root.
def parent (p : Place) : Place :=
  match p.names, p.start with
  | [], .root => p
  | [], .above levels => ⟨.above (levels + 1), []⟩
  | names, start => ⟨start, names.dropLast⟩

-- An empty step and a dot lead nowhere.
def step (p : Place) (name : String) : Place :=
  if name = "" ∨ name = "." then p
  else if name = ".." then p.parent
  else { p with names := p.names ++ [name] }

-- The steps of a path: what stands between its slashes.
def stepsOf (path : String) : List String :=
  (Text.splitOn (· == '/') path.toList).map String.ofList

def startOf (path : String) : Place :=
  if path.toList.head? = some '/' then root else here

-- Where a path leads if every step of it can be taken.
def ofPath (path : String) : Place :=
  (stepsOf path).foldl step (startOf path)

-- A path to the place.
def path (p : Place) : String :=
  let names := "/".intercalate p.names
  match p.start with
  | .root => "/" ++ names
  | .above levels => String.join (List.replicate levels "../") ++ names

def isBelow (p other : Place) : Bool :=
  p.start == other.start && p.names.length < other.names.length &&
    p.names.isPrefixOf other.names

end Place

-- Files by their places, and directories that are there without a file in them.
structure Files where
  files : List (Place × List UInt8)
  directories : List Place
deriving DecidableEq, Repr

namespace Files

-- Why a file cannot be read or written.
inductive Error
  | notFound
  | notDirectory
  | isDirectory
  | nameTooLong
  | nulInName
  | notText
deriving DecidableEq, Repr

-- The number, the kind and the text of the errors that come from the system.
def Error.system? : Error → Option (Nat × String × String)
  | .notFound => some (2, "NotFound", "No such file or directory")
  | .notDirectory => some (20, "NotADirectory", "Not a directory")
  | .isDirectory => some (21, "IsADirectory", "Is a directory")
  | .nameTooLong => some (36, "InvalidFilename", "File name too long")
  | .nulInName => none
  | .notText => none

-- The kind and the text of all others.
def Error.own : Error → String × String
  | .notText => ("InvalidData", "stream did not contain valid UTF-8")
  | _ => ("InvalidInput", "file name contained an unexpected NUL byte")

def Error.message (e : Error) : String :=
  match e.system? with
  | some (code, _, text) => s!"{text} (os error {code})"
  | none => e.own.2

def Error.inspect (e : Error) : String :=
  match e.system? with
  | some (code, kind, text) =>
    s!"Os \x7b code: {code}, kind: {kind}, message: " ++ Text.Quoted.text text ++ " \x7d"
  | none =>
    let (kind, text) := e.own
    s!"Error \x7b kind: {kind}, message: " ++ Text.Quoted.text text ++ " \x7d"

def empty : Files := ⟨[], []⟩

def content? (f : Files) (p : Place) : Option (List UInt8) :=
  f.files.lookup p

-- The root, the working directory and all above it, a directory that is listed, or one with
-- something in it.
def isDirectory (f : Files) (p : Place) : Bool :=
  p.names.isEmpty || f.directories.contains p ||
    f.files.any (fun file => p.isBelow file.1) || f.directories.any p.isBelow

-- A step can be taken from a directory only.
def requireDirectory (f : Files) (p : Place) : Except Error Unit :=
  if f.isDirectory p then .ok ()
  else if (f.content? p).isSome then .error .notDirectory
  else .error .notFound

-- The longest name and the longest path, in bytes.
def maxName : Nat := 255

def maxPath : Nat := 4095

def requireName (name : String) : Except Error Unit :=
  if maxName < name.utf8ByteSize then .error .nameTooLong else .ok ()

def enter (f : Files) (p : Place) (name : String) : Except Error Place := do
  f.requireDirectory p
  requireName name
  return p.step name

-- Takes steps one by one. That there is something at the end is not asked.
def walk (f : Files) (start : Place) (steps : List String) : Except Error Place :=
  steps.foldlM f.enter start

-- What is wrong with a path whatever the files are.
def requirePath (path : String) : Except Error Unit :=
  if path.toList.contains '\x00' then .error .nulInName
  else if path.isEmpty then .error .notFound
  else if maxPath < path.utf8ByteSize then .error .nameTooLong
  else .ok ()

-- A slash at the end of a path is one more step, so what stands before it has to be a directory.
def readBytes (f : Files) (path : String) : Except Error (List UInt8) := do
  requirePath path
  let place ← f.walk (.startOf path) (Place.stepsOf path)
  match f.content? place with
  | some bytes => return bytes
  | none => if f.isDirectory place then throw .isDirectory else throw .notFound

def readText (f : Files) (path : String) : Except Error String := do
  let bytes ← f.readBytes path
  match Text.Utf8.decode? bytes with
  | some text => .ok text
  | none => .error .notText

-- There is a file or a directory at the path.
def contains (f : Files) (path : String) : Bool :=
  match f.readBytes path with
  | .ok _ => true
  | .error e => e == .isDirectory

def put (f : Files) (p : Place) (bytes : List UInt8) : Files :=
  { f with files := f.files.filter (·.1 != p) ++ [(p, bytes)] }

-- Where a file can be written. The way to the last name has to be there. A slash behind that name
-- asks for a directory, and a path that ends in no name leads to one.
def target (f : Files) (path : String) : Except Error Place := do
  requirePath path
  let start := Place.startOf path
  let steps := Place.stepsOf path
  match steps.reverse.dropWhile (·.isEmpty) with
  | [] => throw .isDirectory
  | last :: way =>
    if last = "." ∨ last = ".." then
      let _ ← f.walk start steps
      throw .isDirectory
    let directory ← f.walk start way.reverse
    f.requireDirectory directory
    if way.length + 1 < steps.length then throw .isDirectory
    requireName last
    let place := directory.step last
    if f.isDirectory place then throw .isDirectory
    return place

-- Replaces what was there.
def writeText (f : Files) (path text : String) : Except Error Files := do
  let place ← f.target path
  return f.put place (Text.Utf8.encode text)

-- The files that are new or have another content than before.
def changed (before after : Files) : List (Place × List UInt8) :=
  after.files.filter fun (place, bytes) => before.content? place != some bytes

end Files

end Tariff

import Tariff.Command.Arguments
import Tariff.Command.Basic

namespace Tariff.Command

structure Finish where
  code : Nat
  printed : String
  complaint : String
  files : Files

def versionText : String := "pricing 0.1.0\n"

-- How the program ends after a command.
def finish {α : Type} (o : Outcome α) : Finish :=
  match o.result with
  | .ok _ => ⟨0, o.printed, "", o.files⟩
  | .error e => ⟨1, o.printed, "Error: " ++ e.report ++ "\n", o.files⟩

-- Assets are loaded first, then the buyer and the units are read.
def onAssets {α : Type} (files : Files) (assets : String) (now : Timestamp)
    (buyer : Option String) (units : String) (command : Catalogue → Context → Outcome α) :
    Outcome α :=
  let ready : Except Error (Catalogue × Context) := do
    let c ← load files assets now
    let context ← contextOf buyer (some units)
    return (c, context)
  match ready with
  | .error e => ⟨"", files, .error e⟩
  | .ok (c, context) => command c context

-- What is printed before requests are answered. Without an asset file the catalogue is empty.
def announce (files : Files) (assets : String) (port : Nat) (now : Timestamp) :
    Outcome Catalogue :=
  let found := files.contains assets
  let start :=
    if found then "📂 Loading assets from " ++ Text.Quoted.text assets ++ "..."
    else "🆕 Starting with an empty asset registry..."
  match if found then load files assets now else .ok .empty with
  | .error e => ⟨printLines [start], files, .error e⟩
  | .ok c =>
    ⟨printLines [start, s!"   {c.size} asset(s) registered",
      s!"🚀 REST API server starting on http://localhost:{port}"], files, .ok c⟩

def perform (files : Files) (now : Timestamp) (o : Order) : Finish :=
  match o.action with
  | .compile file output => finish (compile files file output)
  | .disassemble file => finish (disassemble files file)
  | .price asset currency buyer units =>
    finish (onAssets files o.assets now buyer units fun c => price files c asset currency)
  | .cost asset buyer units =>
    finish (onAssets files o.assets now buyer units fun c => cost files c asset)
  | .quote asset currency buyer units =>
    finish (onAssets files o.assets now buyer units fun c => quote files c asset currency)
  | .serve port => finish (announce files o.assets port now)

def run (files : Files) (now : Timestamp) (args : List String) : Finish :=
  match parse args with
  | .ok order => perform files now order
  | .error .usage => ⟨2, "", "error: invalid arguments\n", files⟩
  | .error .help => ⟨0, "Usage: pricing [OPTIONS] <COMMAND>\n", "", files⟩
  | .error .version => ⟨0, versionText, "", files⟩

-- The files that an order reads.
def inputs (o : Order) : List String :=
  match o.action with
  | .compile file _ => [file]
  | .disassemble file => [file]
  | _ => [o.assets]

-- The files that it writes.
def outputs (o : Order) : List String :=
  match o.action with
  | .compile _ output => output.toList
  | _ => []

-- The address on which requests are received.
def bindAddress (port : Nat) : String :=
  s!"0.0.0.0:{port}"

end Tariff.Command

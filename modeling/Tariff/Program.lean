import Tariff.Machine

namespace Tariff

structure Program where
  sources : List Script
  constants : List Amount
deriving DecidableEq

namespace Program

-- Why a source of a program gives no result.
inductive RunError
  | noSource (index count : Nat)
  | step (failure : Machine.Failure)
deriving DecidableEq, Repr

def RunError.message : RunError → String
  | .noSource index count => s!"Source index {index} out of range ({count} sources)"
  | .step failure => failure.message

def RunError.inspect : RunError → String
  | .noSource index count => s!"InvalidSourceIndex \x7b index: {index}, count: {count} \x7d"
  | .step failure => failure.inspect

def environment (p : Program) (context : Context) : Machine.Environment :=
  ⟨p.constants, context⟩

-- Runs one source; the result is the final stack, bottom first.
def run (p : Program) (index : Nat) (context : Context) : Except RunError (List Amount) :=
  match p.sources[index]? with
  | none => .error (.noSource index p.sources.length)
  | some script =>
    match Machine.run (p.environment context) script with
    | .error failure => .error (.step failure)
    | .ok stack => .ok (Machine.bottomUp stack)

-- The first fetch beyond the pool, by source and then by position.
def firstOutOfPool? (poolSize source : Nat) : List Script → Option (Nat × Nat × UInt8)
  | [] => none
  | script :: rest =>
    match script.outOfPool? poolSize with
    | some (position, index) => some (source, position, index)
    | none => firstOutOfPool? poolSize (source + 1) rest

def outOfPool? (p : Program) : Option (Nat × Nat × UInt8) :=
  firstOutOfPool? p.constants.length 0 p.sources

-- Assembly text of the program: the constants, then the sources, the first of which needs no
-- separator. The offsets of the listings make it a text for reading.
def listing (p : Program) : String :=
  let constants := p.constants.mapIdx fun i value =>
    ".constant " ++ value.text ++ s!" ; #{i}\n"
  let sources := p.sources.mapIdx fun i script =>
    (if i = 0 then "; source #0\n" else s!".source ; #{i}\n") ++ script.listing
  String.join constants ++ String.join sources

end Program

end Tariff

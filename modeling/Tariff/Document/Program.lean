import Tariff.Document.Basic
import Tariff.Program

namespace Tariff.Document

open Json (Reader Value Schema)

inductive ProgramField
  | sources
  | constants
deriving DecidableEq, Repr

def programSchema : Schema where
  name := "StateConfig"
  Field := ProgramField
  decEq := inferInstance
  fields := [.sources, .constants]
  mem_fields f := by cases f <;> decide
  key
    | .sources => "sources"
    | .constants => "constants"
  Content
    | .sources => List Script
    | .constants => List Amount
  read
    | .sources => Reader.list script
    | .constants => amounts
  absent
    | .sources => .missing
    | .constants => .missing

def program : Reader Program :=
  programSchema.readerOf fun m => ⟨m .sources, m .constants⟩

def ofProgram (p : Program) : Value :=
  .object [("sources", .list (p.sources.map ofScript)), ("constants", ofAmounts p.constants)]

inductive ContextField
  | buyer
  | units
deriving DecidableEq, Repr

def contextSchema : Schema where
  name := "EvalContext"
  Field := ContextField
  decEq := inferInstance
  fields := [.buyer, .units]
  mem_fields f := by cases f <;> decide
  key
    | .buyer => "buyer"
    | .units => "units"
  Content
    | .buyer => Address
    | .units => Amount
  read
    | .buyer => address
    | .units => amount
  absent
    | .buyer => .missing
    | .units => .missing

def context : Reader Context :=
  contextSchema.readerOf fun m => ⟨m .buyer, m .units⟩

def ofContext (c : Context) : Value :=
  .object [("buyer", ofAddress c.buyer), ("units", ofAmount c.units)]

end Tariff.Document

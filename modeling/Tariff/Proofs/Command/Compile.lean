import Tariff.Command.Basic
import Tariff.Proofs.Assembly.Grammar
import Tariff.Proofs.Assembly.Layout
import Tariff.Proofs.Command.Files
import Tariff.Proofs.Document.RoundTrip

namespace Tariff

theorem Invocation.canonical_of {op : Opcode} {operand : UInt8}
    (h : op.takesOperand = false → operand = 0) : (Invocation.of op operand).Canonical := by
  intro other hother htakes
  have hsame : (Invocation.of op operand).op? = some op := op?_eq_some_iff.2 rfl
  obtain rfl : op = other := Option.some.inj (hsame.symm.trans hother)
  exact h htakes

namespace Assembly

-- An operand is read only where the opcode takes one.
theorem Form.canonical {text : List Char} {i : Invocation}
    (h : Form text (.ok (.instruction i))) : i.Canonical := by
  cases h with
  | plain _ _ _ _ => exact Invocation.canonical_of fun _ => rfl
  | operand _ _ _ hop _ =>
    apply Invocation.canonical_of
    intro htakes
    rw [hop] at htakes
    cases htakes

theorem canonical_programOf {ls : List (List Char)} {lines : List Line}
    (h : ls.map readLine = lines.map .ok) : (programOf lines).Canonical := by
  intro script hscript i hi
  obtain ⟨source, hsource, rfl⟩ := List.mem_map.1 hscript
  have hmem : i ∈ lines.filterMap Line.instruction? := by
    rw [← flatten_sourcesOf]
    exact List.mem_flatten.2 ⟨source, hsource, hi⟩
  obtain ⟨line, hline, hinstruction⟩ := List.mem_filterMap.1 hmem
  cases line with
  | instruction other =>
    obtain rfl : other = i := Option.some.inj hinstruction
    have hread : Except.ok (.instruction other) ∈ ls.map readLine := by
      rw [h]
      exact List.mem_map_of_mem hline
    obtain ⟨cs, -, hcs⟩ := List.mem_map.1 hread
    exact (readLine_eq_iff.1 hcs).canonical
  | blank | constant | source => cases hinstruction

theorem storable_of_assemble {text : String} {program : Program}
    (h : assemble text = .ok program) : program.sources ≠ [] ∧ program.Canonical := by
  obtain ⟨lines, hlines, rfl⟩ := Assembler.assemble_eq_ok_iff.1 h
  obtain ⟨source, sources, hsources⟩ := sourcesOf_eq_cons lines
  refine ⟨?_, canonical_programOf hlines⟩
  rw [programOf, hsources]
  simp

end Assembly

namespace Command

variable {files : Files} {input text : String} {program : Program}

theorem compile_to_file (hread : files.readText input = .ok text)
    (hprogram : Assembly.assemble text = .ok program) {path : String} {after : Files}
    (hwrite : files.writeText path (Document.ofProgram program).prettyText = .ok after) :
    (compile files input (some path)).result = .ok program ∧
      (compile files input (some path)).files.readText path =
        .ok (Document.ofProgram program).prettyText := by
  have hafter := Files.readText_of_writeText hwrite
  simpa only [compile, hread, hprogram, hwrite, Except.mapError, bind, Except.bind, true_and]
    using hafter

theorem printLines_concat (lines : List String) (line : String) :
    printLines (lines ++ [line]) = printLines lines ++ line ++ "\n" := by
  simp [printLines, String.join, String.append_assoc]

theorem compile_to_output (hread : files.readText input = .ok text)
    (hprogram : Assembly.assemble text = .ok program) :
    ∃ heading, (compile files input none).printed =
      heading ++ (Document.ofProgram program).prettyText ++ "\n" := by
  simp only [compile, hread, hprogram, Except.mapError, bind, Except.bind]
  exact ⟨_, printLines_concat [_, _] _⟩

end Command

end Tariff

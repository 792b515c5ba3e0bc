import Mathlib.Data.List.Forall2
import Tariff.Assembly

namespace Tariff.Assembly

def Line.constant? : Line → Option Amount
  | .constant value => some value
  | _ => none

def Line.instruction? : Line → Option Invocation
  | .instruction i => some i
  | _ => none

-- The instructions, cut at the separators.
def sourcesOf (lines : List Line) : List (List Invocation) :=
  (lines.splitOn .source).map fun piece => piece.filterMap Line.instruction?

def programOf (lines : List Line) : Program :=
  ⟨(sourcesOf lines).map Script.mk, lines.filterMap Line.constant?⟩

theorem sourcesOf_cons_source (lines : List Line) :
    sourcesOf (.source :: lines) = [] :: sourcesOf lines := by
  simp only [sourcesOf, List.splitOn_cons_eq_if_modifyHead, beq_self_eq_true, if_true,
    List.map_cons, List.filterMap_nil]

-- Every other line adds at most one instruction to the first piece.
theorem sourcesOf_cons {line : Line} (h : line ≠ .source) (lines : List Line) :
    sourcesOf (line :: lines) =
      (sourcesOf lines).modifyHead fun source => line.instruction?.toList ++ source := by
  have hne : (line == .source) = false := by simpa using h
  simp only [sourcesOf, List.splitOn_cons_eq_if_modifyHead, hne, Bool.false_eq_true, if_false]
  cases lines.splitOn .source with
  | nil => rfl
  | cons piece pieces =>
    simp only [List.modifyHead_cons, List.map_cons, List.filterMap_cons]
    cases line.instruction? <;> rfl

theorem length_sourcesOf (lines : List Line) :
    (sourcesOf lines).length = lines.count .source + 1 := by
  induction lines with
  | nil => rfl
  | cons line lines ih =>
    by_cases h : line = .source
    · rw [h, sourcesOf_cons_source, List.length_cons, ih, List.count_cons_self]
    · rw [sourcesOf_cons h, List.length_modifyHead, ih, List.count_cons_of_ne h]

theorem sourcesOf_eq_cons (lines : List Line) :
    ∃ source sources, sourcesOf lines = source :: sources := by
  apply List.exists_cons_of_length_pos
  rw [length_sourcesOf]
  omega

-- Lines that add no instruction and cut nothing leave the sources as they are.
theorem sourcesOf_insert {line : Line} (hsource : line ≠ .source)
    (hinstruction : line.instruction? = none) (first second : List Line) :
    sourcesOf (first ++ line :: second) = sourcesOf (first ++ second) := by
  induction first with
  | nil =>
    obtain ⟨source, sources, hs⟩ := sourcesOf_eq_cons second
    rw [List.nil_append, List.nil_append, sourcesOf_cons hsource, hinstruction, hs]
    rfl
  | cons other first ih =>
    rw [List.cons_append, List.cons_append]
    by_cases hother : other = .source
    · rw [hother, sourcesOf_cons_source, sourcesOf_cons_source, ih]
    · rw [sourcesOf_cons hother, sourcesOf_cons hother, ih]

theorem flatten_sourcesOf (lines : List Line) :
    (sourcesOf lines).flatten = lines.filterMap Line.instruction? := by
  induction lines with
  | nil => rfl
  | cons line lines ih =>
    by_cases h : line = .source
    · rw [h, sourcesOf_cons_source, List.flatten_cons, ih]
      rfl
    · obtain ⟨source, sources, hs⟩ := sourcesOf_eq_cons lines
      rw [hs, List.flatten_cons] at ih
      rw [sourcesOf_cons h, hs, List.modifyHead_cons, List.flatten_cons, List.append_assoc, ih,
        List.filterMap_cons]
      cases line.instruction? <;> rfl

theorem forall₂_readLine_iff {ls : List (List Char)} {lines : List Line} :
    List.Forall₂ (fun cs line => readLine cs = .ok line) ls lines ↔
      ls.map readLine = lines.map .ok := by
  have heq : ls.map readLine = lines.map .ok ↔
      List.Forall₂ Eq (ls.map readLine) (lines.map .ok) := by
    rw [List.forall₂_eq_eq_eq]
  rw [heq, List.forall₂_map_left_iff, List.forall₂_map_right_iff]

namespace Assembler

-- What the lines add to an assembler that has a source to add to. The induction is on the lines,
-- over everything that may have been built before them.
theorem program_foldl_take (lines : List Line) (current : List Invocation)
    (earlier : List (List Invocation)) (constants : List Amount) :
    (lines.foldl take ⟨current :: earlier, constants⟩).program =
      ⟨(earlier.reverse.map fun source => ⟨source.reverse⟩) ++
          ((sourcesOf lines).modifyHead fun source => current.reverse ++ source).map Script.mk,
        constants.reverse ++ lines.filterMap Line.constant?⟩ := by
  induction lines generalizing current earlier constants with
  | nil => simp [program, sourcesOf]
  | cons line lines ih =>
    obtain ⟨source, sources, hs⟩ := sourcesOf_eq_cons lines
    rw [List.foldl_cons]
    cases line with
    | blank =>
      rw [take, ih, sourcesOf_cons (by simp), hs]
      rfl
    | constant value =>
      rw [take, ih, sourcesOf_cons (by simp), hs, List.reverse_cons, List.append_assoc]
      rfl
    | source =>
      rw [take, ih, sourcesOf_cons_source, hs]
      simp [List.filterMap_cons, Line.constant?]
    | instruction i =>
      rw [take, ih, sourcesOf_cons (by simp), hs]
      simp [List.filterMap_cons, Line.constant?, Line.instruction?]

-- Lines that are all right are taken one after another.
theorem takeLines_append {good : List (List Char)} {lines : List Line}
    (h : List.Forall₂ (fun cs line => readLine cs = .ok line) good lines) (a : Assembler)
    (number : Nat) (rest : List (List Char)) :
    a.takeLines number (good ++ rest) =
      (lines.foldl take a).takeLines (number + good.length) rest := by
  induction h generalizing a number with
  | nil => rfl
  | cons hline _ ih =>
    simp only [List.cons_append, takeLines, hline, List.foldl_cons, List.length_cons, ih]
    congr 1
    omega

theorem assemble_of_lines {text : String} {lines : List Line}
    (h : List.Forall₂ (fun cs line => readLine cs = .ok line) (Text.lines text.toList) lines)
    (a : Assembler) : (a.assemble text).1 = .ok (programOf lines) := by
  have hall := takeLines_append h a.restart 1 []
  have hprogram : (lines.foldl take a.restart).program = programOf lines := by
    obtain ⟨source, sources, hs⟩ := sourcesOf_eq_cons lines
    rw [restart, program_foldl_take, programOf, hs]
    rfl
  rw [List.append_nil] at hall
  simp only [assemble, hall, takeLines, hprogram]

theorem assemble_of_problem {text : String} {good rest : List (List Char)} {cs : List Char}
    {lines : List Line} {problem : Problem} (htext : Text.lines text.toList = good ++ cs :: rest)
    (hgood : List.Forall₂ (fun cs line => readLine cs = .ok line) good lines)
    (hcs : readLine cs = .error problem) (a : Assembler) :
    (a.assemble text).1 = .error ⟨good.length + 1, problem⟩ := by
  simp only [assemble, htext, takeLines_append hgood, takeLines, hcs, Nat.add_comm 1]

end Assembler

end Tariff.Assembly

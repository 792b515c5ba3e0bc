import Mathlib.Logic.Relation
import Tariff.Proofs.Assembly.Assembler
import Tariff.Proofs.Assembly.Grammar

namespace Tariff.Assembly

theorem programOf_blank (first second : List Line) :
    programOf (first ++ .blank :: second) = programOf (first ++ second) := by
  rw [programOf, programOf, sourcesOf_insert (by simp) rfl, List.filterMap_append,
    List.filterMap_append]
  rfl

theorem programOf_constant {line : Line} (h : line.constant? = none) (value : Amount)
    (first second : List Line) :
    programOf (first ++ .constant value :: line :: second) =
      programOf (first ++ line :: .constant value :: second) := by
  have hconstant (before after : List Line) :
      sourcesOf (before ++ .constant value :: after) = sourcesOf (before ++ after) :=
    sourcesOf_insert (by simp) rfl before after
  have hsources : sourcesOf (first ++ .constant value :: line :: second) =
      sourcesOf (first ++ line :: .constant value :: second) := by
    rw [hconstant, List.append_cons first line (.constant value :: second), hconstant,
      ← List.append_cons]
  have hpool : (Line.constant value).constant? = some value := rfl
  rw [programOf, programOf, hsources]
  simp only [List.filterMap_append, List.filterMap_cons, h, hpool]

-- One change of the layout: a line that says nothing comes in, or a constant goes past a line that
-- is not one.
inductive Move : List (List Char) → List (List Char) → Prop
  | blank {before after : List (List Char)} {cs : List Char} (hcs : body cs = []) :
    Move (before ++ after) (before ++ cs :: after)
  | constant {before after : List (List Char)} {cs other : List Char} {value : Amount} {line : Line}
    (hcs : Form (body cs) (.ok (.constant value))) (hother : Form (body other) (.ok line))
    (hline : line.constant? = none) :
    Move (before ++ cs :: other :: after) (before ++ other :: cs :: after)

-- The program that well-formed lines say.
def Yields (ls : List (List Char)) (program : Program) : Prop :=
  ∃ lines, ls.map readLine = lines.map .ok ∧ programOf lines = program

-- A piece of a text can be replaced by one that says the same wherever it stands.
theorem Yields.replace {piece other : List (List Char)} {said told : List Line}
    (hpiece : piece.map readLine = said.map .ok) (hother : other.map readLine = told.map .ok)
    (hsame : ∀ first second,
      programOf (first ++ said ++ second) = programOf (first ++ told ++ second))
    {before after : List (List Char)} {program : Program}
    (h : Yields (before ++ piece ++ after) program) :
    Yields (before ++ other ++ after) program := by
  obtain ⟨lines, hlines, rfl⟩ := h
  rw [List.map_append, List.map_append, hpiece, eq_comm, List.map_eq_append_iff] at hlines
  obtain ⟨start, second, rfl, hstart, hsecond⟩ := hlines
  rw [List.map_eq_append_iff] at hstart
  obtain ⟨first, found, rfl, hfirst, hfound⟩ := hstart
  obtain rfl : found = said := List.map_injective_iff.mpr (fun _ _ => Except.ok.inj) hfound
  refine ⟨first ++ told ++ second, ?_, (hsame first second).symm⟩
  simp only [List.map_append, hfirst, hother, hsecond]

theorem yields_replace_iff {piece other : List (List Char)} {said told : List Line}
    (hpiece : piece.map readLine = said.map .ok) (hother : other.map readLine = told.map .ok)
    (hsame : ∀ first second,
      programOf (first ++ said ++ second) = programOf (first ++ told ++ second))
    (before after : List (List Char)) (program : Program) :
    Yields (before ++ piece ++ after) program ↔ Yields (before ++ other ++ after) program :=
  ⟨Yields.replace hpiece hother hsame,
    Yields.replace hother hpiece fun first second => (hsame first second).symm⟩

theorem Move.yields_iff {ls moved : List (List Char)} (h : Move ls moved) (program : Program) :
    Yields ls program ↔ Yields moved program := by
  cases h with
  | @blank before after cs hcs =>
    have hread : readLine cs = .ok .blank := readLine_of_form (hcs ▸ Form.blank)
    have hnothing : ([] : List (List Char)).map readLine = ([] : List Line).map .ok := rfl
    have hblank : [cs].map readLine = [Line.blank].map .ok := congrArg (fun r => [r]) hread
    have hsame (first second : List Line) :
        programOf (first ++ [] ++ second) = programOf (first ++ [.blank] ++ second) := by
      rw [List.append_nil, ← List.append_cons, programOf_blank]
    have hiff := yields_replace_iff hnothing hblank hsame before after program
    rwa [List.append_nil, ← List.append_cons] at hiff
  | @constant before after cs other value line hcs hother hline =>
    have hread : readLine cs = .ok (.constant value) := readLine_of_form hcs
    have hreadOther : readLine other = .ok line := readLine_of_form hother
    have hpiece : [cs, other].map readLine = [.constant value, line].map .ok := by
      simp only [List.map_cons, List.map_nil, hread, hreadOther]
    have hmoved : [other, cs].map readLine = [line, .constant value].map .ok := by
      simp only [List.map_cons, List.map_nil, hread, hreadOther]
    have hsame (first second : List Line) :
        programOf (first ++ [.constant value, line] ++ second) =
          programOf (first ++ [line, .constant value] ++ second) := by
      simpa using programOf_constant hline value first second
    simpa using yields_replace_iff hpiece hmoved hsame before after program

-- All lines are well formed, or there is a first one that is not.
theorem exists_lines (ls : List (List Char)) :
    (∃ lines, List.Forall₂ (fun cs line => readLine cs = .ok line) ls lines) ∨
      ∃ good lines cs rest problem, ls = good ++ cs :: rest ∧
        List.Forall₂ (fun cs line => readLine cs = .ok line) good lines ∧
        readLine cs = .error problem := by
  induction ls with
  | nil => exact .inl ⟨[], .nil⟩
  | cons cs ls ih =>
    cases hcs : readLine cs with
    | error problem => exact .inr ⟨[], [], cs, ls, problem, rfl, .nil, hcs⟩
    | ok line =>
      obtain ⟨lines, hlines⟩ | ⟨good, lines, bad, rest, problem, rfl, hgood, hbad⟩ := ih
      · exact .inl ⟨line :: lines, .cons hcs hlines⟩
      · exact .inr ⟨cs :: good, line :: lines, bad, rest, problem, rfl, .cons hcs hgood, hbad⟩

theorem Assembler.assemble_eq_ok_iff {a : Assembler} {text : String} {program : Program} :
    (a.assemble text).1 = .ok program ↔ Yields (Text.lines text.toList) program := by
  constructor
  · intro h
    obtain ⟨lines, hlines⟩ | ⟨good, lines, cs, rest, problem, htext, hgood, hcs⟩ :=
      exists_lines (Text.lines text.toList)
    · refine ⟨lines, forall₂_readLine_iff.mp hlines, ?_⟩
      exact Except.ok.inj ((assemble_of_lines hlines a).symm.trans h)
    · cases (assemble_of_problem htext hgood hcs a).symm.trans h
  · rintro ⟨lines, hlines, rfl⟩
    exact assemble_of_lines (forall₂_readLine_iff.mpr hlines) a

theorem yields_of_eqvGen {ls other : List (List Char)} (h : Relation.EqvGen Move ls other)
    (program : Program) : Yields ls program ↔ Yields other program := by
  induction h with
  | rel ls other hmove => exact hmove.yields_iff program
  | refl ls => exact Iff.rfl
  | symm ls other _ ih => exact ih.symm
  | trans ls middle other _ _ ihfirst ihsecond => exact ihfirst.trans ihsecond

-- The first line that is wrong is the one that is reported, and nothing depends on what the assembler
-- was used for before.
theorem assemble_follows_line_grammar (before : Assembler) (text : String) :
    (∀ cs, ∃! outcome, Form (body cs) outcome) ∧
    (∀ lines,
      List.Forall₂ (fun cs line => Form (body cs) (.ok line)) (Text.lines text.toList) lines →
      (before.assemble text).1 = .ok (programOf lines) ∧
      (programOf lines).sources.length = lines.count .source + 1 ∧
      (programOf lines).sources.flatMap Script.invocations = lines.filterMap Line.instruction?) ∧
    (∀ good cs rest problem, Text.lines text.toList = good ++ cs :: rest →
      (∀ other ∈ good, ∃ line, Form (body other) (.ok line)) → Form (body cs) (.error problem) →
      (before.assemble text).1 = .error ⟨good.length + 1, problem⟩) ∧
    ∀ other program, (before.assemble text).1 = .ok program →
      Relation.EqvGen Move (Text.lines text.toList) (Text.lines other.toList) →
      ∀ next : Assembler, (next.assemble other).1 = .ok program := by
  simp only [← readLine_eq_iff]
  refine ⟨?_, ?_, ?_, ?_⟩
  · intro cs
    exact ⟨readLine cs, rfl, fun outcome h => h.symm⟩
  · intro lines h
    refine ⟨Assembler.assemble_of_lines h before, ?_, ?_⟩
    · simp only [programOf, List.length_map, length_sourcesOf]
    · simp only [programOf, List.flatMap_map, ← flatten_sourcesOf, List.flatMap_id']
  · intro good cs rest problem htext hgood hcs
    obtain ⟨lines, hlines⟩ | ⟨first, -, bad, second, found, rfl, -, hbad⟩ := exists_lines good
    · exact Assembler.assemble_of_problem htext hlines hcs before
    · obtain ⟨line, hline⟩ := hgood bad (by simp)
      cases hbad.symm.trans hline
  · intro other program h hmoves next
    rw [Assembler.assemble_eq_ok_iff] at h ⊢
    exact (yields_of_eqvGen hmoves program).mp h

-- The first text fails in its second line and leaves its first instruction behind. The second is
-- laid out in two ways.
theorem assemble_follows_line_grammar_reused :
    ∃ used, used = (Assembler.new.assemble "ADD\nADD 1").2 ∧ used.sources = [[.of .add 0]] ∧
    (used.assemble "ADD\nADD 1").1 = .error ⟨2, .strayOperand "ADD"⟩ ∧
    (used.assemble "CONTEXT 1 ; units\n.constant 0x5\n.source").1 =
      .ok ⟨[⟨[.of .context 1]⟩, .empty], [⟨5, by decide⟩]⟩ ∧
    (used.assemble ".constant 0x5\n\nCONTEXT 1 ; units\n.source").1 =
      .ok ⟨[⟨[.of .context 1]⟩, .empty], [⟨5, by decide⟩]⟩ := by
  let used := (Assembler.new.assemble "ADD\nADD 1").2
  have hadd : Form (body "ADD".toList) (.ok (.instruction (.of .add 0))) :=
    readLine_eq_iff.mp (by decide)
  have hstray : Form (body "ADD 1".toList) (.error (.strayOperand "ADD")) :=
    readLine_eq_iff.mp (by decide)
  have hcontext : Form (body "CONTEXT 1 ; units".toList) (.ok (.instruction (.of .context 1))) :=
    readLine_eq_iff.mp (by decide)
  have hconstant : Form (body ".constant 0x5".toList) (.ok (.constant ⟨5, by decide⟩)) :=
    readLine_eq_iff.mp (by decide)
  have hsource : Form (body ".source".toList) (.ok .source) := readLine_eq_iff.mp (by decide)
  obtain ⟨-, -, hfails, -⟩ := assemble_follows_line_grammar used "ADD\nADD 1"
  obtain ⟨-, hreads, -, hmoves⟩ :=
    assemble_follows_line_grammar used "CONTEXT 1 ; units\n.constant 0x5\n.source"
  obtain ⟨hprogram, -, -⟩ := hreads _ (.cons hcontext (.cons hconstant (.cons hsource .nil)))
  refine ⟨used, rfl, by decide, hfails ["ADD".toList] _ [] _ (by decide) ?_ hstray, hprogram, ?_⟩
  · intro other hmem
    rw [List.mem_singleton] at hmem
    exact ⟨_, hmem ▸ hadd⟩
  · -- the constant goes to the front, and an empty line comes in behind it
    have hfront : Move
        ([] ++ ".constant 0x5".toList :: "CONTEXT 1 ; units".toList :: [".source".toList])
        ([] ++ "CONTEXT 1 ; units".toList :: ".constant 0x5".toList :: [".source".toList]) :=
      .constant hconstant hcontext rfl
    have hblank : Move ([".constant 0x5".toList] ++ ["CONTEXT 1 ; units".toList, ".source".toList])
        ([".constant 0x5".toList] ++ [] :: ["CONTEXT 1 ; units".toList, ".source".toList]) :=
      .blank rfl
    exact hmoves ".constant 0x5\n\nCONTEXT 1 ; units\n.source" _ hprogram
      (.trans _ _ _ (.symm _ _ (.rel _ _ hfront)) (.rel _ _ hblank)) used

end Tariff.Assembly

import Tariff.Proofs.Assembly.Assembler
import Tariff.Proofs.Assembly.Listing

namespace Tariff.Assembly

theorem readLine_constantLine (index : Nat) (value : Amount) :
    readLine (constantLine index value) = .ok (.constant value) := by
  have hdirective : Solid ".constant".toList := by decide
  have hname : Solid "constant".toList := by decide
  have hlower : "constant".toList.map Char.toLower = "constant".toList := by decide
  have hbody : body (constantLine index value) = '.' :: phrase "constant".toList [value.digits] :=
    body_phrase hdirective (solid_digits value) _ (by simp [uncommented, Text.isBlank])
  apply readLine_of_form
  rw [hbody]
  exact .constant (words_phrase hname (solid_digits value)) hlower (Amount.ofDigits?_digits value)

theorem readLine_separatorLine (index : Nat) :
    readLine (separatorLine index) = .ok (if index = 0 then .blank else .source) := by
  rw [separatorLine]
  split
  · decide
  · have hbody : body (phrase ".source".toList [] ++
        ' ' :: ';' :: ' ' :: '#' :: Text.Decimal.ofNat index) = ".source".toList :=
      body_phrase (by decide) (List.forall_mem_nil _) _ (by simp [uncommented, Text.isBlank])
    have hwords : Text.words "source".toList = ["source".toList] := by decide
    apply readLine_of_form
    rw [hbody]
    exact .source hwords (by decide)

-- What the lines of a listing say.
def scriptMeaning (index : Nat) (script : Script) : List Line :=
  (if index = 0 then .blank else .source) :: script.invocations.map .instruction

def listingMeaning (p : Program) : List Line :=
  p.constants.map .constant ++ (p.sources.mapIdx scriptMeaning).flatten

theorem map_readLine_scriptLines {script : Script} (h : ∀ i ∈ script.invocations, i.Writable)
    (index : Nat) :
    ((scriptLines index script).map unlabel).map readLine =
      (scriptMeaning index script).map .ok := by
  have hcode : (script.invocations.mapIdx invocationLine).map unlabel =
      script.invocations.map code :=
    map_mapIdx_const unlabel_invocationLine script.invocations
  have hread : (script.invocations.map code).map readLine =
      (script.invocations.map Line.instruction).map .ok := by
    rw [List.map_map, List.map_map]
    exact List.map_congr_left fun i hi => readLine_code_of_writable (h i hi)
  rw [scriptLines, List.map_cons, hcode, List.map_cons, hread, unlabel_separatorLine,
    readLine_separatorLine, scriptMeaning, List.map_cons]

theorem map_readLine_listingLines {p : Program}
    (h : ∀ script ∈ p.sources, ∀ i ∈ script.invocations, i.Writable) :
    ((listingLines p).map unlabel).map readLine = (listingMeaning p).map .ok := by
  have hconstants : ((p.constants.mapIdx constantLine).map unlabel).map readLine =
      (p.constants.map Line.constant).map .ok := by
    rw [List.map_map, List.map_map]
    exact map_mapIdx_const (fun index value => by
      rw [Function.comp_apply, unlabel_constantLine, readLine_constantLine]
      rfl) p.constants
  have hsources : p.sources.mapIdx (fun index script =>
        ((scriptLines index script).map unlabel).map readLine) =
      p.sources.mapIdx fun index script => (scriptMeaning index script).map .ok := by
    rw [List.mapIdx_eq_mapIdx_iff]
    intro index hindex
    exact map_readLine_scriptLines (h _ (List.getElem_mem hindex)) index
  rw [listingLines, listingMeaning, List.map_append, List.map_append, List.map_append, hconstants]
  simp only [List.map_flatten, map_mapIdx, hsources]

theorem sourcesOf_instructions (is : List Invocation) (lines : List Line) :
    sourcesOf (is.map .instruction ++ lines) =
      (sourcesOf lines).modifyHead fun source => is ++ source := by
  obtain ⟨source, sources, hs⟩ := sourcesOf_eq_cons lines
  induction is with
  | nil =>
    rw [List.map_nil, List.nil_append, hs]
    rfl
  | cons i is ih =>
    rw [List.map_cons, List.cons_append, sourcesOf_cons (by simp), ih, hs]
    rfl

theorem sourcesOf_constants (values : List Amount) (lines : List Line) :
    sourcesOf (values.map .constant ++ lines) = sourcesOf lines := by
  induction values with
  | nil => rfl
  | cons value values ih =>
    rw [List.map_cons, List.cons_append, ← ih]
    exact sourcesOf_insert (by simp) rfl [] _

-- The scripts after the first: each of them is cut off from the one before.
theorem sourcesOf_scriptMeaning (scripts : List Script) (start : Nat) :
    sourcesOf (scripts.mapIdx fun index => scriptMeaning (index + (start + 1))).flatten =
      [] :: scripts.map Script.invocations := by
  induction scripts generalizing start with
  | nil => rfl
  | cons script scripts ih =>
    rw [mapIdx_cons_add, List.flatten_cons, scriptMeaning, if_neg (by omega), List.cons_append,
      sourcesOf_cons_source, sourcesOf_instructions, ih]
    simp

theorem constant?_of_mem_scriptMeaning {index : Nat} {script : Script} {line : Line}
    (h : line ∈ scriptMeaning index script) : line.constant? = none := by
  rw [scriptMeaning, List.mem_cons, List.mem_map] at h
  obtain rfl | ⟨i, -, rfl⟩ := h
  · split <;> rfl
  · rfl

theorem programOf_listingMeaning {p : Program} (h : p.sources ≠ []) :
    programOf (listingMeaning p) = p := by
  obtain ⟨sources, constants⟩ := p
  obtain ⟨first, rest, rfl⟩ := List.exists_cons_of_ne_nil h
  have hsources : sourcesOf (listingMeaning ⟨first :: rest, constants⟩) =
      (first :: rest).map Script.invocations := by
    have hfirst (lines : List Line) : sourcesOf (.blank :: lines) = sourcesOf lines :=
      sourcesOf_insert (by simp) rfl [] lines
    rw [listingMeaning, sourcesOf_constants, List.mapIdx_cons, List.flatten_cons, scriptMeaning,
      if_pos rfl, List.cons_append, hfirst, sourcesOf_instructions, sourcesOf_scriptMeaning]
    simp
  have hconstants : (listingMeaning ⟨first :: rest, constants⟩).filterMap Line.constant? =
      constants := by
    have hpool : (constants.map Line.constant).filterMap Line.constant? = constants := by
      rw [List.filterMap_map]
      exact List.filterMap_some
    have hscripts :
        ((first :: rest).mapIdx scriptMeaning).flatten.filterMap Line.constant? = [] := by
      rw [List.filterMap_eq_nil_iff]
      intro line hline
      obtain ⟨piece, hpiece, hmem⟩ := List.mem_flatten.mp hline
      obtain ⟨index, hindex, rfl⟩ := List.mem_mapIdx.mp hpiece
      exact constant?_of_mem_scriptMeaning hmem
    rw [listingMeaning, List.filterMap_append, hpool, hscripts, List.append_nil]
  rw [programOf, hsources, hconstants, List.map_map]
  exact congrArg (Program.mk · constants) (List.map_id _)

theorem exists_first {α : Type} {good : α → Prop} {l : List α} (h : ¬ ∀ a ∈ l, good a) :
    ∃ before a after, l = before ++ a :: after ∧ (∀ b ∈ before, good b) ∧ ¬ good a := by
  induction l with
  | nil => exact absurd (List.forall_mem_nil good) h
  | cons a l ih =>
    by_cases ha : good a
    · have hrest : ¬ ∀ b ∈ l, good b := fun hl => h (List.forall_mem_cons.mpr ⟨ha, hl⟩)
      obtain ⟨before, b, after, rfl, hbefore, hb⟩ := ih hrest
      exact ⟨a :: before, b, after, rfl, List.forall_mem_cons.mpr ⟨ha, hbefore⟩, hb⟩
    · exact ⟨[], a, l, rfl, List.forall_mem_nil good, ha⟩

theorem exists_first_not_writable {sources : List Script}
    (h : ¬ ∀ script ∈ sources, ∀ i ∈ script.invocations, i.Writable) :
    ∃ before good i rest after, sources = before ++ ⟨good ++ i :: rest⟩ :: after ∧
      (∀ script ∈ before, ∀ j ∈ script.invocations, j.Writable) ∧ (∀ j ∈ good, j.Writable) ∧
      ¬ i.Writable := by
  obtain ⟨before, ⟨invocations⟩, after, rfl, hbefore, hscript⟩ := exists_first h
  obtain ⟨good, i, rest, rfl, hgood, hi⟩ := exists_first hscript
  exact ⟨before, good, i, rest, after, rfl, hbefore, hgood, hi⟩

theorem assemble_unlabelled_of_writable {p : Program} (hsources : p.sources ≠ [])
    (h : ∀ script ∈ p.sources, ∀ i ∈ script.invocations, i.Writable) (a : Assembler) :
    (a.assemble (unlabelled p.listing)).1 = .ok p := by
  have hread : (Text.lines (unlabelled p.listing).toList).map readLine =
      (listingMeaning p).map .ok := by
    rw [lines_unlabelled, map_readLine_listingLines h]
  rw [Assembler.assemble_of_lines (forall₂_readLine_iff.mpr hread) a,
    programOf_listingMeaning hsources]

theorem assemble_unlabelled_of_problem {p : Program} {before after : List Script}
    {good rest : List Invocation} {i : Invocation}
    (h : p.sources = before ++ ⟨good ++ i :: rest⟩ :: after)
    (hbefore : ∀ script ∈ before, ∀ j ∈ script.invocations, j.Writable)
    (hgood : ∀ j ∈ good, j.Writable) {problem : Problem} (hi : readLine (code i) = .error problem)
    (a : Assembler) :
    (a.assemble (unlabelled p.listing)).1 =
      .error ⟨(listingLines ⟨before ++ [⟨good⟩], p.constants⟩).length + 1, problem⟩ := by
  obtain ⟨later, hlater⟩ := listingLines_eq_append h
  have hwritable : ∀ script ∈ before ++ [⟨good⟩], ∀ j ∈ script.invocations, j.Writable := by
    intro script hscript
    obtain hscript | hscript := List.mem_append.mp hscript
    · exact hbefore script hscript
    · rw [List.mem_singleton] at hscript
      exact hscript ▸ hgood
  have hlines := lines_unlabelled p
  rw [hlater, List.map_append, List.map_cons, unlabel_invocationLine] at hlines
  have hread := forall₂_readLine_iff.mpr
    (map_readLine_listingLines (p := ⟨before ++ [⟨good⟩], p.constants⟩) hwritable)
  rw [Assembler.assemble_of_problem hlines hread hi, List.length_map]

-- A listing that does not assemble fails at the first invocation that assembly text cannot say.
theorem reassembly_restores_program_or_fails (a : Assembler) (p : Program)
    (hsources : p.sources ≠ []) :
    (∀ q, (a.assemble (unlabelled p.listing)).1 = .ok q ↔
      q = p ∧ ∀ script ∈ p.sources, ∀ i ∈ script.invocations, i.Writable) ∧
    ∀ before good i rest after, p.sources = before ++ ⟨good ++ i :: rest⟩ :: after →
      (∀ script ∈ before, ∀ j ∈ script.invocations, j.Writable) → (∀ j ∈ good, j.Writable) →
      ¬ i.Writable →
      ∃ index problem, (a.assemble (unlabelled p.listing)).1 = .error ⟨index + 1, problem⟩ ∧
        index = p.constants.length + (before.length + 1) +
          (before.flatMap Script.invocations).length + good.length ∧
        (Text.lines p.listing.toList)[index]?.map (fun line => String.ofList (line ++ ['\n'])) =
          some (Script.listingLine good.length i) ∧
        (i.op? = none → problem = .unknownInstruction "UNKNOWN") ∧
        ∀ op, i.op? = some op → problem = .strayOperand op.name := by
  constructor
  · intro q
    constructor
    · intro hq
      by_cases hall : ∀ script ∈ p.sources, ∀ i ∈ script.invocations, i.Writable
      · rw [assemble_unlabelled_of_writable hsources hall a] at hq
        exact ⟨(Except.ok.inj hq).symm, hall⟩
      · obtain ⟨before, good, i, rest, after, h, hbefore, hgood, hi⟩ :=
          exists_first_not_writable hall
        obtain ⟨problem, hread, -⟩ := readLine_code_of_not_writable hi
        rw [assemble_unlabelled_of_problem h hbefore hgood hread a] at hq
        cases hq
    · rintro ⟨rfl, hall⟩
      exact assemble_unlabelled_of_writable hsources hall a
  · intro before good i rest after h hbefore hgood hi
    obtain ⟨problem, hread, hunknown, hstray⟩ := readLine_code_of_not_writable hi
    obtain ⟨later, hlater⟩ := listingLines_eq_append h
    refine ⟨_, problem, assemble_unlabelled_of_problem h hbefore hgood hread a, ?_, ?_, hunknown,
      hstray⟩
    · simp only [length_listingLines, List.flatMap_append, List.flatMap_singleton, List.length_append,
        List.length_singleton]
      omega
    · rw [lines_listing, hlater, List.getElem?_append_right (Nat.le_refl _), Nat.sub_self,
        List.getElem?_cons_zero, Option.map_some, ← toList_listingLine, String.ofList_toList]

-- The largest constant and an empty source come back. Of two invocations that cannot be written,
-- the first is reported.
theorem reassembly_restores_program_or_fails_strayAddition :
    (Assembler.new.assemble (unlabelled
      (Program.listing ⟨[.empty, ⟨[.of .constant 0]⟩], [⟨Nat.pow 2 256 - 1, by decide⟩]⟩))).1 =
      .ok ⟨[.empty, ⟨[.of .constant 0]⟩], [⟨Nat.pow 2 256 - 1, by decide⟩]⟩ ∧
    (Assembler.new.assemble (unlabelled
      (Program.listing ⟨[⟨[.of .mul 0]⟩, ⟨[.of .stack 1, ⟨0x10, 7⟩, ⟨0xff, 0⟩]⟩], [.one]⟩))).1 =
      .error ⟨6, .strayOperand "ADD"⟩ := by
  have hwritable (op : Opcode) (operand : UInt8) (h : op.takesOperand = false → operand = 0) :
      (Invocation.of op operand).Writable :=
    ⟨op, Opcode.ofByte?_byte op, h⟩
  have hstray : ¬ Invocation.Writable ⟨0x10, 7⟩ := by
    rintro ⟨op, hop, hoperand⟩
    obtain rfl : Opcode.add = op := Option.some.inj ((Opcode.ofByte?_byte .add).symm.trans hop)
    exact absurd (hoperand rfl) (by decide)
  obtain ⟨hrestores, -⟩ := reassembly_restores_program_or_fails .new
    ⟨[.empty, ⟨[.of .constant 0]⟩], [⟨Nat.pow 2 256 - 1, by decide⟩]⟩ (by simp)
  obtain ⟨-, hfails⟩ := reassembly_restores_program_or_fails .new
    ⟨[⟨[.of .mul 0]⟩, ⟨[.of .stack 1, ⟨0x10, 7⟩, ⟨0xff, 0⟩]⟩], [.one]⟩ (by simp)
  constructor
  · refine (hrestores _).mpr ⟨rfl, ?_⟩
    simpa [Script.empty] using hwritable .constant 0 (by decide)
  · obtain ⟨index, problem, herror, hindex, -, -, hproblem⟩ :=
      hfails [⟨[.of .mul 0]⟩] [.of .stack 1] ⟨0x10, 7⟩ [⟨0xff, 0⟩] [] rfl
        (by simpa using hwritable .mul 0 (by decide))
        (by simpa using hwritable .stack 1 (by decide)) hstray
    rw [herror, hindex, hproblem .add (by decide)]
    rfl

end Tariff.Assembly

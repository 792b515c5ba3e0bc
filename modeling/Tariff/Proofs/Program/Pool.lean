import Tariff.Program
import Tariff.Proofs.Machine.Execute
import Tariff.Proofs.Machine.Height

namespace Tariff

namespace Script

theorem firstOutOfPool?_eq_none (poolSize position : Nat) (invocations : List Invocation) :
    firstOutOfPool? poolSize position invocations = none ↔
      ∀ i ∈ invocations, i.outOfPool poolSize = false := by
  induction invocations generalizing position with
  | nil => simp [firstOutOfPool?]
  | cons i rest ih =>
    simp only [firstOutOfPool?, List.forall_mem_cons]
    by_cases hi : i.outOfPool poolSize = true
    · simp [hi]
    · simp [hi, ih]

theorem firstOutOfPool?_eq_some {poolSize position found : Nat} {index : UInt8}
    {invocations : List Invocation}
    (h : firstOutOfPool? poolSize position invocations = some (found, index)) :
    ∃ before i after, invocations = before ++ i :: after ∧ found = position + before.length ∧
      i.outOfPool poolSize = true ∧ i.operand = index ∧
      ∀ j ∈ before, j.outOfPool poolSize = false := by
  induction invocations generalizing position with
  | nil => cases h
  | cons i rest ih =>
    simp only [firstOutOfPool?] at h
    by_cases hi : i.outOfPool poolSize = true
    · rw [if_pos hi] at h
      cases h
      exact ⟨[], i, rest, rfl, rfl, hi, rfl, by simp⟩
    · rw [if_neg hi] at h
      obtain ⟨before, j, after, rfl, rfl, hj, hindex, hbefore⟩ := ih h
      refine ⟨i :: before, j, after, rfl, ?_, hj, hindex, ?_⟩
      · simp only [List.length_cons]
        omega
      · exact List.forall_mem_cons.mpr ⟨by simpa using hi, hbefore⟩

-- The invocation at `position` asks for the constant `index`, which a pool of `poolSize` does not
-- have.
def Misses (s : Script) (poolSize position : Nat) (index : UInt8) : Prop :=
  ∃ i, s.invocations[position]? = some i ∧ i.op? = some .constant ∧ i.operand = index ∧
    poolSize ≤ index.toNat

theorem misses_iff {s : Script} {poolSize position : Nat} {index : UInt8} :
    s.Misses poolSize position index ↔
      ∃ i, s.invocations[position]? = some i ∧ i.outOfPool poolSize = true ∧ i.operand = index := by
  simp only [Misses, Invocation.outOfPool, Bool.and_eq_true, beq_iff_eq, decide_eq_true_eq]
  constructor
  · rintro ⟨i, hi, hop, rfl, hsize⟩
    exact ⟨i, hi, ⟨hop, hsize⟩, rfl⟩
  · rintro ⟨i, hi, ⟨hop, hsize⟩, rfl⟩
    exact ⟨i, hi, hop, rfl, hsize⟩

theorem not_misses_of_outOfPool?_eq_none {s : Script} {poolSize : Nat}
    (h : s.outOfPool? poolSize = none) (position : Nat) (index : UInt8) :
    ¬s.Misses poolSize position index := by
  intro hmisses
  obtain ⟨i, hi, hout, -⟩ := misses_iff.mp hmisses
  have hin := (firstOutOfPool?_eq_none _ _ _).mp h i (List.mem_of_getElem? hi)
  exact absurd (hout.symm.trans hin) Bool.noConfusion

-- No invocation before the one that is found misses anything.
theorem misses_of_outOfPool?_eq_some {s : Script} {poolSize position : Nat} {index : UInt8}
    (h : s.outOfPool? poolSize = some (position, index)) :
    s.Misses poolSize position index ∧
      ∀ other missing, s.Misses poolSize other missing → position ≤ other := by
  obtain ⟨before, i, after, hsplit, hposition, hi, hindex, hbefore⟩ := firstOutOfPool?_eq_some h
  rw [Nat.zero_add] at hposition
  constructor
  · refine misses_iff.mpr ⟨i, ?_, hi, hindex⟩
    rw [hsplit, hposition, List.getElem?_append_right (Nat.le_refl _), Nat.sub_self,
      List.getElem?_cons_zero]
  · intro other missing hmisses
    obtain ⟨j, hj, hout, -⟩ := misses_iff.mp hmisses
    apply Nat.le_of_not_lt
    intro hlt
    rw [hsplit, List.getElem?_append_left (by omega)] at hj
    have hin := hbefore j (List.mem_of_getElem? hj)
    exact absurd (hout.symm.trans hin) Bool.noConfusion

end Script

namespace Machine

theorem heightStep_eq_constantOutOfRange {poolSize size height : Nat} {i : Invocation}
    {index : UInt8} (h : heightStep poolSize i height = .error (.constantOutOfRange index size)) :
    i.outOfPool poolSize = true := by
  unfold heightStep at h
  cases hop : i.op? with
  | none =>
    rw [hop] at h
    cases h
  | some op =>
    rw [hop] at h
    cases op with
    | constant =>
      by_cases hlt : i.operand.toNat < poolSize
      · simp only [heightAfter, if_pos hlt, grow] at h
        split at h <;> cases h
      · simpa [Invocation.outOfPool, hop] using hlt
    | stack | context =>
      simp only [heightAfter, grow] at h
      split at h
      · split at h <;> cases h
      · cases h
    | add | sub | mul | div | mod | min | max | eq | lt | gt | isZero | eagerIf =>
      simp only [heightAfter, collapse] at h
      split at h <;> cases h

-- Whatever the stack, the constant is missing.
theorem step_of_outOfPool {env : Environment} {i : Invocation}
    (h : i.outOfPool env.constants.length = true) (stack : Stack) :
    step env i stack =
      .failed (.constantOutOfRange i.operand env.constants.length) stack := by
  simp only [Invocation.outOfPool, Bool.and_eq_true, beq_iff_eq, decide_eq_true_eq] at h
  obtain ⟨hop, hsize⟩ := h
  rw [step_of_op? hop]
  simp only [perform, List.getElem?_eq_none hsize, fetch]

theorem outOfPool_of_step {env : Environment} {i : Invocation} {stack left : Stack}
    {index : UInt8} {size : Nat} (hdepth : stack.length ≤ maxDepth)
    (h : step env i stack = .failed (.constantOutOfRange index size) left) :
    i.outOfPool env.constants.length = true :=
  heightStep_eq_constantOutOfRange (heightStep_of_step_failed hdepth h rfl)

end Machine

namespace Program

theorem firstOutOfPool?_eq_none (poolSize source : Nat) (scripts : List Script) :
    firstOutOfPool? poolSize source scripts = none ↔
      ∀ script ∈ scripts, script.outOfPool? poolSize = none := by
  induction scripts generalizing source with
  | nil => simp [firstOutOfPool?]
  | cons script rest ih =>
    simp only [firstOutOfPool?, List.forall_mem_cons]
    cases hs : script.outOfPool? poolSize with
    | none => simp [ih]
    | some found => simp

theorem firstOutOfPool?_eq_some {poolSize source found position : Nat} {index : UInt8}
    {scripts : List Script}
    (h : firstOutOfPool? poolSize source scripts = some (found, position, index)) :
    ∃ before script after, scripts = before ++ script :: after ∧
      found = source + before.length ∧ script.outOfPool? poolSize = some (position, index) ∧
      ∀ earlier ∈ before, earlier.outOfPool? poolSize = none := by
  induction scripts generalizing source with
  | nil => cases h
  | cons script rest ih =>
    simp only [firstOutOfPool?] at h
    cases hs : script.outOfPool? poolSize with
    | none =>
      rw [hs] at h
      obtain ⟨before, next, after, rfl, rfl, hnext, hbefore⟩ := ih h
      refine ⟨script :: before, next, after, rfl, ?_, hnext, ?_⟩
      · simp only [List.length_cons]
        omega
      · exact List.forall_mem_cons.mpr ⟨hs, hbefore⟩
    | some first =>
      rw [hs] at h
      cases h
      exact ⟨[], script, rest, rfl, rfl, hs, by simp⟩

def Misses (p : Program) (source position : Nat) (index : UInt8) : Prop :=
  ∃ script, p.sources[source]? = some script ∧
    script.Misses p.constants.length position index

-- The source is earlier, or it is the same and the position is not later.
def NotAfter (source position otherSource otherPosition : Nat) : Prop :=
  source < otherSource ∨ source = otherSource ∧ position ≤ otherPosition

theorem outOfPool?_eq_none_iff {p : Program} :
    p.outOfPool? = none ↔ ∀ script ∈ p.sources, ∀ i ∈ script.invocations,
      i.op? = some .constant → i.operand.toNat < p.constants.length := by
  have hin (i : Invocation) : i.outOfPool p.constants.length = false ↔
      (i.op? = some .constant → i.operand.toNat < p.constants.length) := by
    simp [Invocation.outOfPool]
  simp only [outOfPool?, firstOutOfPool?_eq_none, Script.outOfPool?,
    Script.firstOutOfPool?_eq_none, hin]

theorem misses_of_outOfPool?_eq_some {p : Program} {source position : Nat} {index : UInt8}
    (h : p.outOfPool? = some (source, position, index)) :
    p.Misses source position index ∧ ∀ otherSource other missing,
      p.Misses otherSource other missing → NotAfter source position otherSource other := by
  obtain ⟨before, script, after, hsplit, hsource, hscript, hbefore⟩ := firstOutOfPool?_eq_some h
  rw [Nat.zero_add] at hsource
  obtain ⟨hmisses, hleast⟩ := Script.misses_of_outOfPool?_eq_some hscript
  have hget : p.sources[source]? = some script := by
    rw [hsplit, hsource, List.getElem?_append_right (Nat.le_refl _), Nat.sub_self,
      List.getElem?_cons_zero]
  refine ⟨⟨script, hget, hmisses⟩, ?_⟩
  rintro otherSource other missing ⟨otherScript, hother, hmissing⟩
  rcases Nat.lt_trichotomy source otherSource with hlt | rfl | hgt
  · exact .inl hlt
  · cases hget.symm.trans hother
    exact .inr ⟨rfl, hleast other missing hmissing⟩
  · -- a source before the one that is found misses nothing
    rw [hsplit, List.getElem?_append_left (by omega)] at hother
    have hnone := hbefore otherScript (List.mem_of_getElem? hother)
    exact absurd hmissing (Script.not_misses_of_outOfPool?_eq_none hnone other missing)

theorem outOfPool?_eq_some_iff {p : Program} {source position : Nat} {index : UInt8} :
    p.outOfPool? = some (source, position, index) ↔
      p.Misses source position index ∧ ∀ otherSource other missing,
        p.Misses otherSource other missing → NotAfter source position otherSource other := by
  refine ⟨misses_of_outOfPool?_eq_some, ?_⟩
  rintro ⟨hmisses, hleast⟩
  cases hout : p.outOfPool? with
  | none =>
    obtain ⟨script, hscript, i, hi, hop, rfl, hsize⟩ := hmisses
    have hlt := outOfPool?_eq_none_iff.mp hout script (List.mem_of_getElem? hscript) i
      (List.mem_of_getElem? hi) hop
    omega
  | some found =>
    obtain ⟨foundSource, foundPosition, foundIndex⟩ := found
    obtain ⟨hfound, hfirst⟩ := misses_of_outOfPool?_eq_some hout
    -- each of the two is not after the other, so they are the same invocation
    have hle := hleast _ _ _ hfound
    have hge := hfirst _ _ _ hmisses
    unfold NotAfter at hle hge
    obtain ⟨rfl, rfl⟩ : source = foundSource ∧ position = foundPosition := by omega
    obtain ⟨script, hscript, i, hi, -, rfl, -⟩ := hmisses
    obtain ⟨same, hsame, j, hj, -, rfl, -⟩ := hfound
    cases hscript.symm.trans hsame
    cases hi.symm.trans hj
    rfl

-- The run has asked for a source or a constant that the program does not have.
def RunError.isOutOfBounds : RunError → Bool
  | .noSource _ _ => true
  | .step ⟨_, .constantOutOfRange _ _⟩ => true
  | .step _ => false

theorem run_of_outOfPool?_eq_none {p : Program} (hp : p.outOfPool? = none) {source : Nat}
    (hsource : source < p.sources.length) {context : Context} {error : RunError}
    (h : p.run source context = .error error) : error.isOutOfBounds = false := by
  have hget : p.sources[source]? = some p.sources[source] := List.getElem?_eq_getElem hsource
  simp only [run, hget] at h
  cases hr : Machine.run (p.environment context) p.sources[source] with
  | ok stack =>
    rw [hr] at h
    cases h
  | error failure =>
    rw [hr] at h
    cases h
    obtain ⟨position, fault⟩ := failure
    obtain ⟨before, i, after, mid, left, hsplit, -, hmid, hstep⟩ := Machine.execute_error hr
    have hscript := (firstOutOfPool?_eq_none _ _ _).mp hp _ (List.getElem_mem hsource)
    have hi := (Script.firstOutOfPool?_eq_none _ _ _).mp hscript i (by simp [hsplit])
    cases fault with
    | constantOutOfRange index size =>
      have hdepth := Machine.length_execute_le hmid (Nat.zero_le _)
      have hout := Machine.outOfPool_of_step hdepth hstep
      exact absurd (hout.symm.trans hi) Bool.noConfusion
    | unknownOpcode | stackUnderflow | stackOverflow | contextOutOfRange | divisionByZero
    | arithmeticOverflow => rfl

theorem run_of_outOfPool?_eq_some {p : Program} {source position : Nat} {index : UInt8}
    (hp : p.outOfPool? = some (source, position, index)) (context : Context) :
    ∃ failure, p.run source context = .error (.step failure) ∧ failure.position ≤ position ∧
      (failure.position = position →
        failure.fault = .constantOutOfRange index p.constants.length) := by
  obtain ⟨before, script, after, hsources, hsource, hscript, -⟩ := firstOutOfPool?_eq_some hp
  obtain ⟨earlier, i, later, hsplit, hposition, hi, hindex, -⟩ :=
    Script.firstOutOfPool?_eq_some hscript
  have hget : p.sources[source]? = some script := by
    simp [hsources, hsource]
  obtain ⟨failure, hrun, hle, heq⟩ :=
    Machine.execute_of_stuck (p.environment context) 0 earlier i later [] _
      fun mid => ⟨mid, Machine.step_of_outOfPool hi mid⟩
  rw [← hsplit] at hrun
  rw [← hposition] at hle heq
  refine ⟨failure, ?_, hle, fun h => hindex ▸ heq h⟩
  simp only [run, hget, Machine.run, hrun]

end Program

end Tariff

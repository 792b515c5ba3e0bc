import Tariff.Proofs.Machine.Execute

namespace Tariff

namespace Invocation

-- The invocation as it stands above `base` other values.
def relocate (base : Nat) (i : Invocation) : Invocation :=
  if i.op? = some .stack then ⟨i.opcode, UInt8.ofNat (i.operand.toNat + base)⟩ else i

-- The operand of a fetch that is moved up is still a byte.
def Relocatable (base : Nat) (i : Invocation) : Prop :=
  i.op? = some .stack → i.operand.toNat + base ≤ 255

instance (base : Nat) (i : Invocation) : Decidable (i.Relocatable base) :=
  inferInstanceAs (Decidable (_ → _))

theorem relocate_of_ne {i : Invocation} (h : i.op? ≠ some .stack) (base : Nat) :
    i.relocate base = i :=
  if_neg h

theorem op?_relocate (base : Nat) (i : Invocation) : (i.relocate base).op? = i.op? := by
  unfold relocate
  split <;> rfl

theorem toNat_operand_relocate {base : Nat} {i : Invocation} (hop : i.op? = some .stack)
    (hfits : i.Relocatable base) : (i.relocate base).operand.toNat = i.operand.toNat + base := by
  have hle := hfits hop
  have hlt : i.operand.toNat + base < 256 := by omega
  simp only [relocate, if_pos hop, UInt8.toNat_ofNat']
  exact Nat.mod_eq_of_lt hlt

end Invocation

namespace Machine

-- The greatest height that a run reaches, the start and the end included.
def peak (env : Environment) : List Invocation → Stack → Nat
  | [], stack => stack.length
  | i :: rest, stack =>
    match step env i stack with
    | .done next => max stack.length (peak env rest next)
    | .failed _ _ => stack.length

theorem length_le_peak (env : Environment) (invocations : List Invocation) (stack : Stack) :
    stack.length ≤ peak env invocations stack := by
  cases invocations with
  | nil => exact Nat.le_refl _
  | cons i rest =>
    simp only [peak]
    split <;> omega

theorem peak_cons {env : Environment} {i : Invocation} {stack next : Stack}
    (h : step env i stack = .done next) (rest : List Invocation) :
    peak env (i :: rest) stack = max stack.length (peak env rest next) := by
  simp only [peak, h]

-- The heights that a peak bounds are those after each beginning of the run.
theorem peak_le {env : Environment} {position depth : Nat} {invocations : List Invocation}
    {stack : Stack}
    (h : ∀ before mid, before <+: invocations → execute env position before stack = .ok mid →
      mid.length ≤ depth) :
    peak env invocations stack ≤ depth := by
  induction invocations generalizing position stack with
  | nil => exact h [] stack List.nil_prefix rfl
  | cons i rest ih =>
    have hstart : stack.length ≤ depth := h [] stack List.nil_prefix rfl
    cases hs : step env i stack with
    | failed fault left =>
      simp only [peak, hs]
      exact hstart
    | done next =>
      have hrest : peak env rest next ≤ depth := by
        apply ih
        intro before mid hbefore hrun
        apply h (i :: before) mid
        · exact List.cons_prefix_cons.mpr ⟨rfl, hbefore⟩
        · simp only [execute, hs]
          exact hrun
      rw [peak_cons hs]
      omega

section Above

variable {stack next : Stack} (base : Stack)

-- There is room above the base for what is pushed above the stack.
theorem pushOn_above {rest : Stack} {value : Amount}
    (hroom : (value :: rest).length + base.length ≤ maxDepth) :
    pushOn (rest ++ base) value = .done (value :: rest ++ base) := by
  apply pushOn_of_lt
  rw [List.length_append]
  rw [List.length_cons] at hroom
  omega

theorem fetch_above {value? : Option Amount} {missing : Fault}
    (h : fetch stack value? missing = .done next) (other : Fault)
    (hroom : next.length + base.length ≤ maxDepth) :
    fetch (stack ++ base) value? other = .done (next ++ base) := by
  obtain ⟨value, rfl, -, rfl⟩ := fetch_eq_done h
  exact pushOn_above base hroom

theorem binary_above {combine : Amount → Amount → Except Fault Amount}
    (h : binary stack combine = .done next) (hroom : next.length + base.length ≤ maxDepth) :
    binary (stack ++ base) combine = .done (next ++ base) := by
  obtain ⟨b, a, rest, value, rfl, hvalue, -, rfl⟩ := binary_eq_done h
  simp only [binary, List.cons_append, hvalue]
  exact pushOn_above base hroom

theorem unary_above {apply : Amount → Amount} (h : unary stack apply = .done next)
    (hroom : next.length + base.length ≤ maxDepth) :
    unary (stack ++ base) apply = .done (next ++ base) := by
  obtain ⟨a, rest, rfl, -, rfl⟩ := unary_eq_done h
  exact pushOn_above base hroom

theorem choose_above (h : choose stack = .done next)
    (hroom : next.length + base.length ≤ maxDepth) :
    choose (stack ++ base) = .done (next ++ base) := by
  obtain ⟨otherwise, chosen, condition, rest, rfl, -, rfl⟩ := choose_eq_done h
  exact pushOn_above base hroom

-- What is below is counted first.
theorem fromBottom?_above (stack : Stack) (index : Nat) :
    fromBottom? (stack ++ base) (index + base.length) = fromBottom? stack index := by
  have hlen : base.reverse.length ≤ index + base.length := by
    rw [List.length_reverse]
    omega
  simp only [fromBottom?, List.reverse_append]
  rw [List.getElem?_append_right hlen, List.length_reverse, Nat.add_sub_cancel]

-- Everything but a fetch from the stack stays as it is.
theorem perform_above {env : Environment} {op : Opcode} {operand : UInt8} (hop : op ≠ .stack)
    (h : perform env op operand stack = .done next)
    (hroom : next.length + base.length ≤ maxDepth) :
    perform env op operand (stack ++ base) = .done (next ++ base) := by
  cases op with
  | stack => exact absurd rfl hop
  | constant | context => exact fetch_above base h _ hroom
  | add | sub | mul | div | mod => exact binary_above base h hroom
  | min | max | eq | lt | gt =>
    simp only [perform] at h ⊢
    exact binary_above base h hroom
  | isZero => exact unary_above base h hroom
  | eagerIf => exact choose_above base h hroom

end Above

theorem step_relocate {env : Environment} {i : Invocation} {stack next base : Stack}
    (h : step env i stack = .done next) (hroom : next.length + base.length ≤ maxDepth)
    (hfits : i.Relocatable base.length) :
    step env (i.relocate base.length) (stack ++ base) = .done (next ++ base) := by
  have hsame := i.op?_relocate base.length
  cases hop : i.op? with
  | none =>
    rw [step_of_unknown hop] at h
    cases h
  | some op =>
    rw [step_of_op? hop] at h
    rw [step_of_op? (hsame.trans hop)]
    by_cases hstack : op = .stack
    · subst hstack
      have hoperand := Invocation.toNat_operand_relocate hop hfits
      simp only [perform, hoperand, fromBottom?_above] at h ⊢
      exact fetch_above base h _ hroom
    · have hne : i.op? ≠ some .stack := by simpa [hop] using hstack
      rw [i.relocate_of_ne hne]
      exact perform_above base hstack h hroom

-- The induction is on the invocations, with the stack that each of them meets.
theorem execute_relocate {env : Environment} {position : Nat} {invocations : List Invocation}
    {stack result : Stack} (h : execute env position invocations stack = .ok result) (base : Stack)
    (hroom : base.length + peak env invocations stack ≤ maxDepth)
    (hfits : ∀ i ∈ invocations, i.Relocatable base.length) (other : Nat) :
    execute env other (invocations.map (·.relocate base.length)) (stack ++ base) =
      .ok (result ++ base) := by
  induction invocations generalizing position stack other with
  | nil =>
    cases h
    rfl
  | cons i rest ih =>
    simp only [execute] at h
    cases hs : step env i stack with
    | failed fault left =>
      rw [hs] at h
      cases h
    | done next =>
      rw [hs] at h
      rw [peak_cons hs] at hroom
      have hnext : next.length ≤ peak env rest next := length_le_peak env rest next
      have hstep := step_relocate hs (by omega) (hfits i List.mem_cons_self)
      have hrest := ih h (by omega) (fun j hj => hfits j (List.mem_cons_of_mem i hj)) (other + 1)
      simp only [List.map_cons, execute, hstep]
      exact hrest

end Machine

end Tariff

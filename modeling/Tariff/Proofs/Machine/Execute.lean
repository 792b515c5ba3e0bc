import Tariff.Program

namespace Tariff

namespace Machine

section Done

variable {stack next : Stack}

theorem fetch_eq_done {value? : Option Amount} {missing : Fault}
    (h : fetch stack value? missing = .done next) :
    ∃ value, value? = some value ∧ stack.length < maxDepth ∧ next = value :: stack := by
  cases value? with
  | none => cases h
  | some value =>
    obtain ⟨hroom, hnext⟩ := pushOn_eq_done.mp h
    exact ⟨value, rfl, hroom, hnext⟩

theorem binary_eq_done {combine : Amount → Amount → Except Fault Amount}
    (h : binary stack combine = .done next) :
    ∃ b a rest value, stack = b :: a :: rest ∧ combine a b = .ok value ∧
      rest.length < maxDepth ∧ next = value :: rest := by
  rcases stack with _ | ⟨b, _ | ⟨a, rest⟩⟩
  · cases h
  · cases h
  · simp only [binary] at h
    cases hc : combine a b with
    | error fault =>
      rw [hc] at h
      cases h
    | ok value =>
      rw [hc] at h
      obtain ⟨hroom, hnext⟩ := pushOn_eq_done.mp h
      exact ⟨b, a, rest, value, rfl, hc, hroom, hnext⟩

theorem unary_eq_done {apply : Amount → Amount} (h : unary stack apply = .done next) :
    ∃ a rest, stack = a :: rest ∧ rest.length < maxDepth ∧ next = apply a :: rest := by
  rcases stack with _ | ⟨a, rest⟩
  · cases h
  · obtain ⟨hroom, hnext⟩ := pushOn_eq_done.mp h
    exact ⟨a, rest, rfl, hroom, hnext⟩

theorem choose_eq_done (h : choose stack = .done next) :
    ∃ otherwise chosen condition rest, stack = otherwise :: chosen :: condition :: rest ∧
      rest.length < maxDepth ∧
      next = (if condition.isZero then otherwise else chosen) :: rest := by
  rcases stack with _ | ⟨otherwise, _ | ⟨chosen, _ | ⟨condition, rest⟩⟩⟩
  · cases h
  · cases h
  · cases h
  · obtain ⟨hroom, hnext⟩ := pushOn_eq_done.mp h
    exact ⟨otherwise, chosen, condition, rest, rfl, hroom, hnext⟩

-- Whatever is taken from the top, a push comes last.
theorem perform_eq_done {env : Environment} {op : Opcode} {operand : UInt8}
    (h : perform env op operand stack = .done next) :
    ∃ value below, next = value :: below ∧ below <:+ stack ∧ below.length < maxDepth := by
  cases op with
  | constant | stack | context =>
    obtain ⟨value, -, hroom, rfl⟩ := fetch_eq_done h
    exact ⟨value, stack, rfl, List.suffix_refl _, hroom⟩
  | add | sub | mul | div | mod | min | max | eq | lt | gt =>
    simp only [perform] at h
    obtain ⟨b, a, rest, value, rfl, -, hroom, rfl⟩ := binary_eq_done h
    exact ⟨value, rest, rfl, List.suffix_append [b, a] rest, hroom⟩
  | isZero =>
    obtain ⟨a, rest, rfl, hroom, rfl⟩ := unary_eq_done h
    exact ⟨_, rest, rfl, List.suffix_cons a rest, hroom⟩
  | eagerIf =>
    obtain ⟨otherwise, chosen, condition, rest, rfl, hroom, rfl⟩ := choose_eq_done h
    exact ⟨_, rest, rfl, List.suffix_append [otherwise, chosen, condition] rest, hroom⟩

-- A step adds one value at most, and leaves none above the limit.
theorem length_step_le {env : Environment} {i : Invocation} (h : step env i stack = .done next) :
    next.length ≤ stack.length + 1 ∧ next.length ≤ maxDepth := by
  cases hop : i.op? with
  | none =>
    rw [step_of_unknown hop] at h
    cases h
  | some op =>
    rw [step_of_op? hop] at h
    obtain ⟨value, below, rfl, hbelow, hroom⟩ := perform_eq_done h
    have hle : below.length ≤ stack.length := hbelow.length_le
    rw [List.length_cons]
    omega

end Done

theorem length_execute_le {env : Environment} {position : Nat} {invocations : List Invocation}
    {stack result : Stack} (h : execute env position invocations stack = .ok result)
    (hdepth : stack.length ≤ maxDepth) : result.length ≤ maxDepth := by
  induction invocations generalizing position stack with
  | nil =>
    cases h
    exact hdepth
  | cons i rest ih =>
    simp only [execute] at h
    cases hstep : step env i stack with
    | done next =>
      rw [hstep] at h
      exact ih h (length_step_le hstep).2
    | failed fault left =>
      rw [hstep] at h
      cases h

theorem execute_append (env : Environment) (position : Nat) (first second : List Invocation)
    (stack : Stack) :
    execute env position (first ++ second) stack =
      (execute env position first stack).bind fun mid =>
        execute env (position + first.length) second mid := by
  induction first generalizing position stack with
  | nil => rfl
  | cons i rest ih =>
    simp only [List.cons_append, execute]
    cases step env i stack with
    | done after =>
      have hlen : position + (i :: rest).length = position + 1 + rest.length := by
        simp only [List.length_cons]
        omega
      rw [hlen]
      exact ih (position + 1) after
    | failed fault after => rfl

-- The invocation that failed, with the stack that it met.
theorem execute_error {env : Environment} {position : Nat} {invocations : List Invocation}
    {stack : Stack} {failure : Failure}
    (h : execute env position invocations stack = .error failure) :
    ∃ before i after mid left, invocations = before ++ i :: after ∧
      failure.position = position + before.length ∧
      execute env position before stack = .ok mid ∧
      step env i mid = .failed failure.fault left := by
  induction invocations generalizing position stack with
  | nil => cases h
  | cons i rest ih =>
    simp only [execute] at h
    cases ho : step env i stack with
    | done next =>
      rw [ho] at h
      obtain ⟨before, j, after, mid, left, hsplit, hpos, hrun, hstep⟩ := ih h
      refine ⟨i :: before, j, after, mid, left, ?_, ?_, ?_, hstep⟩
      · rw [hsplit, List.cons_append]
      · simp only [List.length_cons]
        omega
      · simp only [execute, ho, hrun]
    | failed fault left =>
      rw [ho] at h
      cases h
      exact ⟨[], i, rest, stack, left, rfl, rfl, rfl, ho⟩

theorem execute_position_lt {env : Environment} {position : Nat} {invocations : List Invocation}
    {stack : Stack} {failure : Failure}
    (h : execute env position invocations stack = .error failure) :
    failure.position < position + invocations.length := by
  obtain ⟨before, i, after, mid, left, hsplit, hpos, -, -⟩ := execute_error h
  simp only [hsplit, hpos, List.length_append, List.length_cons]
  omega

-- An invocation that fails on every stack bounds the run: it fails there, or before.
theorem execute_of_stuck (env : Environment) (position : Nat) (before : List Invocation)
    (i : Invocation) (after : List Invocation) (stack : Stack) (fault : Fault)
    (hstuck : ∀ mid, ∃ left, step env i mid = .failed fault left) :
    ∃ failure, execute env position (before ++ i :: after) stack = .error failure ∧
      failure.position ≤ position + before.length ∧
      (failure.position = position + before.length → failure.fault = fault) := by
  rw [execute_append]
  cases hb : execute env position before stack with
  | ok mid =>
    obtain ⟨left, hstep⟩ := hstuck mid
    refine ⟨⟨position + before.length, fault⟩, ?_, Nat.le_refl _, fun _ => rfl⟩
    simp only [Except.bind, execute, hstep]
  | error failure =>
    have hlt := execute_position_lt hb
    exact ⟨failure, rfl, Nat.le_of_lt hlt, fun heq => absurd heq (Nat.ne_of_lt hlt)⟩

end Machine

-- A program gives back the stack of the source that it runs.
theorem Program.run_eq_ok {p : Program} {index : Nat} {context : Context} {values : List Amount}
    (h : p.run index context = .ok values) :
    ∃ script stack, p.sources[index]? = some script ∧
      Machine.run (p.environment context) script = .ok stack ∧
      values = Machine.bottomUp stack := by
  unfold run at h
  cases hscript : p.sources[index]? with
  | none =>
    rw [hscript] at h
    cases h
  | some script =>
    simp only [hscript] at h
    cases hrun : Machine.run (p.environment context) script with
    | error failure =>
      rw [hrun] at h
      cases h
    | ok stack =>
      rw [hrun] at h
      cases h
      exact ⟨script, stack, rfl, hrun, rfl⟩

end Tariff

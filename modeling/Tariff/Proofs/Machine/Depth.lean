import Tariff.Proofs.Machine.Height
import Tariff.Proofs.Machine.Trace

namespace Tariff

namespace Machine

theorem grow_eq_error {height : Nat} {fault : Fault} (h : grow height = .error fault) :
    maxDepth ≤ height ∧ fault = .stackOverflow := by
  by_cases hfull : maxDepth ≤ height
  · rw [grow_of_le hfull] at h
    cases h
    exact ⟨hfull, rfl⟩
  · rw [grow_of_lt (Nat.lt_of_not_le hfull)] at h
    cases h

theorem collapse_eq_error {count height : Nat} {fault : Fault}
    (h : collapse count height = .error fault) :
    height < count ∧ fault = .stackUnderflow count height := by
  by_cases hshort : height < count
  · rw [collapse, if_pos hshort] at h
    cases h
    exact ⟨hshort, rfl⟩
  · rw [collapse_of_le (Nat.le_of_not_lt hshort)] at h
    cases h

-- The invocation puts a value on the stack and takes none.
def Fetches (i : Invocation) : Prop :=
  i.op? = some .constant ∨ i.op? = some .stack ∨ i.op? = some .context

-- All that an invocation can do to the height: it grows by a value that was found, it does not
-- change since nothing was found, or some values, one at least, are replaced by one.
inductive HeightCases (i : Invocation) (height : Nat) (result : Except Fault Nat) : Prop
  | unknown (h : result = .error (.unknownOpcode i.opcode))
  | found (hfetches : Fetches i) (h : result = grow height)
  | noConstant (size : Nat) (h : result = .error (.constantOutOfRange i.operand size))
  | noValue (needed : Nat) (hshort : height < needed)
    (h : result = .error (.stackUnderflow needed height))
  | noSlot (h : result = .error (.contextOutOfRange i.operand))
  | replaced (count : Nat) (hcount : 1 ≤ count) (h : result = collapse count height)

theorem heightStep_cases (poolSize : Nat) (i : Invocation) (height : Nat) :
    HeightCases i height (heightStep poolSize i height) := by
  unfold heightStep
  cases hop : i.op? with
  | none => exact .unknown rfl
  | some op =>
    cases op with
    | constant =>
      by_cases hlt : i.operand.toNat < poolSize
      · exact .found (.inl hop) (if_pos hlt)
      · exact .noConstant poolSize (if_neg hlt)
    | stack =>
      by_cases hlt : i.operand.toNat < height
      · exact .found (.inr (.inl hop)) (if_pos hlt)
      · exact .noValue (i.operand.toNat + 1) (by omega) (if_neg hlt)
    | context =>
      by_cases hlt : i.operand.toNat < 2
      · exact .found (.inr (.inr hop)) (if_pos hlt)
      · exact .noSlot (if_neg hlt)
    | add | sub | mul | div | mod | min | max | eq | lt | gt =>
      exact .replaced 2 (by decide) rfl
    | isZero => exact .replaced 1 (by decide) rfl
    | eagerIf => exact .replaced 3 (by decide) rfl

theorem heightStep_eq_overflow {poolSize height : Nat} {i : Invocation}
    (h : heightStep poolSize i height = .error .stackOverflow) :
    maxDepth ≤ height ∧ Fetches i := by
  cases heightStep_cases poolSize i height with
  | unknown hresult => cases h.symm.trans hresult
  | found hfetches hresult => exact ⟨(grow_eq_error (hresult.symm.trans h)).1, hfetches⟩
  | noConstant _ hresult => cases h.symm.trans hresult
  | noValue _ _ hresult => cases h.symm.trans hresult
  | noSlot hresult => cases h.symm.trans hresult
  | replaced count _ hresult =>
    obtain ⟨-, hfault⟩ := collapse_eq_error (hresult.symm.trans h)
    cases hfault

theorem heightStep_eq_underflow {poolSize height needed available : Nat} {i : Invocation}
    (h : heightStep poolSize i height = .error (.stackUnderflow needed available)) :
    available = height ∧ height < needed := by
  cases heightStep_cases poolSize i height with
  | unknown hresult => cases h.symm.trans hresult
  | found _ hresult =>
    obtain ⟨-, hfault⟩ := grow_eq_error (hresult.symm.trans h)
    cases hfault
  | noConstant _ hresult => cases h.symm.trans hresult
  | noValue _ hshort hresult =>
    cases h.symm.trans hresult
    exact ⟨rfl, hshort⟩
  | noSlot hresult => cases h.symm.trans hresult
  | replaced count _ hresult =>
    obtain ⟨hshort, hfault⟩ := collapse_eq_error (hresult.symm.trans h)
    cases hfault
    exact ⟨rfl, hshort⟩

-- On a stack within the limit the push at the end of a step has room for what it replaces, so only
-- arithmetic fails after something was taken.
theorem stack_of_step_failed {env : Environment} {i : Invocation} {stack left : Stack}
    {fault : Fault} (hdepth : stack.length ≤ maxDepth) (h : step env i stack = .failed fault left)
    (hfault : fault.isArithmetic = false) : left = stack := by
  have hagrees := step_agrees env i hdepth
  rw [h, heightStep_of_step_failed hdepth h hfault] at hagrees
  exact hagrees.2

section Operands

variable {stack left : Stack} {fault : Fault} (hfault : fault.isArithmetic = true)
include hfault

theorem pushOn_ne_failed (value : Amount) : pushOn stack value ≠ .failed fault left := by
  intro h
  obtain ⟨-, rfl, -⟩ := pushOn_eq_failed h
  cases hfault

-- Only what combines two values fails in arithmetic, and it has taken both of them by then.
theorem operands_of_binary_failed {combine : Amount → Amount → Except Fault Amount}
    (h : binary stack combine = .failed fault left) :
    ∃ upper lower, stack = upper :: lower :: left := by
  rcases stack with _ | ⟨upper, _ | ⟨lower, rest⟩⟩
  · cases h
    cases hfault
  · cases h
    cases hfault
  · simp only [binary] at h
    cases hc : combine lower upper with
    | ok value =>
      rw [hc] at h
      exact absurd h (pushOn_ne_failed hfault value)
    | error found =>
      rw [hc] at h
      cases h
      exact ⟨upper, lower, rfl⟩

theorem fetch_ne_failed {value? : Option Amount} {missing : Fault}
    (hmissing : missing.isArithmetic = false) :
    fetch stack value? missing ≠ .failed fault left := by
  intro h
  cases value? with
  | none =>
    cases h
    exact absurd (hmissing.symm.trans hfault) Bool.false_ne_true
  | some value => exact pushOn_ne_failed hfault value h

theorem operands_of_perform_failed {env : Environment} {op : Opcode} {operand : UInt8}
    (h : perform env op operand stack = .failed fault left) :
    ∃ upper lower, stack = upper :: lower :: left := by
  cases op with
  | constant | stack | context => exact absurd h (fetch_ne_failed hfault rfl)
  | add | sub | mul | div | mod => exact operands_of_binary_failed hfault h
  | min | max | eq | lt | gt =>
    simp only [perform] at h
    exact operands_of_binary_failed hfault h
  | isZero =>
    cases stack with
    | nil =>
      cases h
      cases hfault
    | cons value rest => exact absurd h (pushOn_ne_failed hfault _)
  | eagerIf =>
    rcases stack with _ | ⟨otherwise, _ | ⟨chosen, _ | ⟨condition, rest⟩⟩⟩
    · cases h
      cases hfault
    · cases h
      cases hfault
    · cases h
      cases hfault
    · exact absurd h (pushOn_ne_failed hfault _)

theorem operands_of_step_failed {env : Environment} {i : Invocation}
    (h : step env i stack = .failed fault left) :
    ∃ upper lower, stack = upper :: lower :: left := by
  cases hop : i.op? with
  | none =>
    rw [step_of_unknown hop] at h
    cases h
    cases hfault
  | some op =>
    rw [step_of_op? hop] at h
    exact operands_of_perform_failed hfault h

end Operands

-- What can be done to a machine, one thing at a time.
inductive Action
  | push (value : Amount)
  | pop
  | require (needed : Nat)
  | execute (i : Invocation)

def Action.Pushes : Action → Prop
  | .push _ => True
  | .pop => False
  | .require _ => False
  | .execute i => Fetches i

-- A machine at work: what it reads, and its stack.
structure State where
  env : Environment
  stack : Stack

namespace State

def new (env : Environment) : State := ⟨env, []⟩

def attempt (s : State) : Action → Outcome
  | .push value => pushOn s.stack value
  | .pop =>
    match pop s.stack with
    | .ok (_, rest) => .done rest
    | .error fault => .failed fault s.stack
  | .require needed =>
    match require s.stack needed with
    | .ok () => .done s.stack
    | .error fault => .failed fault s.stack
  | .execute i => step s.env i s.stack

-- A failure does not end it: the machine goes on with the stack that is left.
def after (s : State) (action : Action) : State :=
  { s with stack := (s.attempt action).stack }

def afterAll (s : State) (actions : List Action) : State :=
  actions.foldl after s

-- What a failure says about the machine, and what it leaves of the stack.
structure FailsWith (s : State) (action : Action) (fault : Fault) (left : Stack) : Prop where
  kept : fault.isArithmetic = false → left = s.stack
  taken : fault.isArithmetic = true → ∃ upper lower, s.stack = upper :: lower :: left
  full : fault = .stackOverflow → s.stack.length = maxDepth ∧ action.Pushes
  short : ∀ needed available, fault = .stackUnderflow needed available →
    available = s.stack.length ∧ available < needed

theorem failsWith_of_full {s : State} {action : Action} (hfull : s.stack.length = maxDepth)
    (hpushes : action.Pushes) : s.FailsWith action .stackOverflow s.stack where
  kept _ := rfl
  taken := nofun
  full _ := ⟨hfull, hpushes⟩
  short := nofun

theorem failsWith_of_short {s : State} {needed : Nat} (hshort : s.stack.length < needed)
    (action : Action) :
    s.FailsWith action (.stackUnderflow needed s.stack.length) s.stack where
  kept _ := rfl
  taken := nofun
  full := nofun
  short _ _ h := by
    cases h
    exact ⟨rfl, hshort⟩

theorem failsWith_of_step {s : State} (hdepth : s.stack.length ≤ maxDepth) {i : Invocation}
    {fault : Fault} {left : Stack} (h : step s.env i s.stack = .failed fault left) :
    s.FailsWith (.execute i) fault left where
  kept hfault := stack_of_step_failed hdepth h hfault
  taken hfault := operands_of_step_failed hfault h
  full hfault := by
    subst hfault
    obtain ⟨hfull, hfetches⟩ := heightStep_eq_overflow (heightStep_of_step_failed hdepth h rfl)
    exact ⟨Nat.le_antisymm hdepth hfull, hfetches⟩
  short needed available hfault := by
    subst hfault
    obtain ⟨rfl, hshort⟩ := heightStep_eq_underflow (heightStep_of_step_failed hdepth h rfl)
    exact ⟨rfl, hshort⟩

-- What may come of an action on a stack within the bound.
def Within (s : State) (action : Action) : Outcome → Prop
  | .done next => next.length ≤ maxDepth
  | .failed fault left => s.FailsWith action fault left

theorem attempt_within {s : State} (hdepth : s.stack.length ≤ maxDepth) (action : Action) :
    s.Within action (s.attempt action) := by
  cases action with
  | push value =>
    simp only [attempt]
    by_cases hfull : maxDepth ≤ s.stack.length
    · rw [pushOn_of_le hfull]
      exact failsWith_of_full (Nat.le_antisymm hdepth hfull) trivial
    · rw [pushOn_of_lt (Nat.lt_of_not_le hfull)]
      exact Nat.lt_of_not_le hfull
  | pop =>
    obtain ⟨env, stack⟩ := s
    cases stack with
    | nil => exact failsWith_of_short Nat.zero_lt_one .pop
    | cons value rest => exact Nat.le_of_succ_le hdepth
  | require needed =>
    simp only [attempt, require]
    by_cases hshort : s.stack.length < needed
    · rw [if_pos hshort]
      exact failsWith_of_short hshort _
    · rw [if_neg hshort]
      exact hdepth
  | execute i =>
    simp only [attempt]
    cases hstep : step s.env i s.stack with
    | done next => exact (length_step_le hstep).2
    | failed fault left => exact failsWith_of_step hdepth hstep

theorem failsWith_of_attempt {s : State} (hdepth : s.stack.length ≤ maxDepth) {action : Action}
    {fault : Fault} {left : Stack} (h : s.attempt action = .failed fault left) :
    s.FailsWith action fault left := by
  have hwithin := attempt_within hdepth action
  rw [h] at hwithin
  exact hwithin

-- What fails leaves no more than there was.
theorem FailsWith.length_le {s : State} {action : Action} {fault : Fault} {left : Stack}
    (h : s.FailsWith action fault left) : left.length ≤ s.stack.length := by
  cases hfault : fault.isArithmetic with
  | false => exact Nat.le_of_eq (congrArg List.length (h.kept hfault))
  | true =>
    obtain ⟨upper, lower, hstack⟩ := h.taken hfault
    rw [hstack, List.length_cons, List.length_cons]
    omega

-- One action keeps the bound, whether it succeeds or not.
theorem length_after_le {s : State} (hdepth : s.stack.length ≤ maxDepth) (action : Action) :
    (s.after action).stack.length ≤ maxDepth := by
  have hwithin := attempt_within hdepth action
  unfold after
  cases h : s.attempt action with
  | done next =>
    rw [h] at hwithin
    exact hwithin
  | failed fault left =>
    rw [h] at hwithin
    exact Nat.le_trans hwithin.length_le hdepth

-- The induction is on the actions that are left.
theorem length_afterAll_le {s : State} (hdepth : s.stack.length ≤ maxDepth)
    (actions : List Action) : (s.afterAll actions).stack.length ≤ maxDepth := by
  induction actions generalizing s with
  | nil => exact hdepth
  | cons action rest ih => exact ih (length_after_le hdepth action)

theorem env_afterAll (s : State) (actions : List Action) : (s.afterAll actions).env = s.env := by
  induction actions generalizing s with
  | nil => rfl
  | cons action rest ih => exact ih (s.after action)

theorem afterAll_push (s : State) (value : Amount) {count : Nat}
    (hroom : s.stack.length + count ≤ maxDepth) :
    (s.afterAll (List.replicate count (.push value))).stack =
      List.replicate count value ++ s.stack := by
  induction count generalizing s with
  | zero => rfl
  | succ count ih =>
    have hnext : s.after (.push value) = { s with stack := value :: s.stack } := by
      have hfits : s.stack.length < maxDepth := by omega
      simp only [after, attempt, pushOn_of_lt hfits, Outcome.stack]
    have hrest := ih (s.after (.push value)) (by
      rw [hnext, List.length_cons]
      omega)
    rw [List.replicate_succ, afterAll, List.foldl_cons]
    rw [afterAll] at hrest
    rw [hrest, hnext, List.replicate_succ', List.append_assoc]
    rfl

end State

-- A run from the empty stack is no deeper than it is long.
theorem Reaches.length_le {env : Environment} {invocations : List Invocation} {position : Nat}
    {stack : Stack} (h : Reaches env invocations [] position stack) :
    stack.length ≤ position ∧ stack.length ≤ maxDepth := by
  induction h with
  | start => exact ⟨Nat.le_refl 0, Nat.zero_le _⟩
  | step _ _ hstep ih =>
    obtain ⟨hone, hbound⟩ := length_step_le hstep
    exact ⟨Nat.le_trans hone (Nat.succ_le_succ ih.1), hbound⟩

theorem length_of_run_ok {env : Environment} {script : Script} {stack : Stack}
    (h : run env script = .ok stack) : stack.length ≤ maxDepth :=
  length_execute_le h (Nat.zero_le _)

-- Each invocation leaves one value at most, so it takes `maxDepth` of them to fill the stack.
theorem run_ne_overflow {env : Environment} {script : Script} (hshort : script.length ≤ maxDepth)
    {failure : Failure} (h : run env script = .error failure) :
    failure.fault ≠ .stackOverflow := by
  intro hfault
  obtain ⟨i, stack, left, hi, hreaches, hstep⟩ := execute_eq_error_iff.mp h
  rw [hfault] at hstep
  obtain ⟨hposition, hdepth⟩ := hreaches.length_le
  obtain ⟨hfull, -⟩ := heightStep_eq_overflow (heightStep_of_step_failed hdepth hstep rfl)
  have hlt : failure.position < script.length := (List.getElem?_eq_some_iff.mp hi).1
  omega

end Machine

end Tariff

import Tariff.Proofs.Machine.Execute

namespace Tariff

-- Only arithmetic looks at the values that it takes before it fails.
def Fault.isArithmetic : Fault → Bool
  | .divisionByZero | .arithmeticOverflow _ => true
  | _ => false

namespace Machine

def grow (height : Nat) : Except Fault Nat :=
  if maxDepth ≤ height then .error .stackOverflow else .ok (height + 1)

-- `count` values are taken and one is left in their place.
def collapse (count height : Nat) : Except Fault Nat :=
  if height < count then .error (.stackUnderflow count height) else .ok (height - count + 1)

def heightAfter (poolSize : Nat) (op : Opcode) (operand : UInt8) (height : Nat) :
    Except Fault Nat :=
  match op with
  | .constant =>
    if operand.toNat < poolSize then grow height
    else .error (.constantOutOfRange operand poolSize)
  | .stack =>
    if operand.toNat < height then grow height
    else .error (.stackUnderflow (operand.toNat + 1) height)
  | .context =>
    if operand.toNat < 2 then grow height else .error (.contextOutOfRange operand)
  | .add | .sub | .mul | .div | .mod | .min | .max | .eq | .lt | .gt => collapse 2 height
  | .isZero => collapse 1 height
  | .eagerIf => collapse 3 height

def heightStep (poolSize : Nat) (i : Invocation) (height : Nat) : Except Fault Nat :=
  match i.op? with
  | some op => heightAfter poolSize op i.operand height
  | none => .error (.unknownOpcode i.opcode)

-- The run of heights; the first invocation stands at `position`.
def heights (poolSize position : Nat) : List Invocation → Nat → Except Failure Nat
  | [], height => .ok height
  | i :: rest, height =>
    match heightStep poolSize i height with
    | .ok height => heights poolSize (position + 1) rest height
    | .error fault => .error ⟨position, fault⟩

-- Where the height foresees a fault, the step has it and leaves the stack alone. Where it
-- foresees a height, arithmetic may still fail, after it has taken two values.
def Outcome.Agrees (before : Stack) : Outcome → Except Fault Nat → Prop
  | .done after, .ok height => after.length = height
  | .failed fault after, .ok _ => fault.isArithmetic = true ∧ after = before.drop 2
  | .failed fault after, .error foreseen => fault = foreseen ∧ after = before
  | .done _, .error _ => False

theorem grow_of_le {height : Nat} (h : maxDepth ≤ height) : grow height = .error .stackOverflow :=
  if_pos h

theorem grow_of_lt {height : Nat} (h : height < maxDepth) : grow height = .ok (height + 1) :=
  if_neg (by omega)

theorem collapse_of_le {count height : Nat} (h : count ≤ height) :
    collapse count height = .ok (height - count + 1) :=
  if_neg (by omega)

theorem pushOn_agrees (stack : Stack) (value : Amount) :
    (pushOn stack value).Agrees stack (grow stack.length) := by
  by_cases hfull : maxDepth ≤ stack.length
  · rw [grow_of_le hfull, pushOn_of_le hfull]
    exact ⟨rfl, rfl⟩
  · have hroom : stack.length < maxDepth := Nat.lt_of_not_le hfull
    rw [grow_of_lt hroom, pushOn_of_lt hroom]
    exact List.length_cons

theorem fetch_agrees (stack : Stack) (value? : Option Amount) (missing : Fault) (there : Prop)
    [Decidable there] (hthere : value?.isSome = true ↔ there) :
    (fetch stack value? missing).Agrees stack
      (if there then grow stack.length else .error missing) := by
  cases value? with
  | none =>
    have hn : ¬there := by simpa using hthere
    rw [if_neg hn]
    exact ⟨rfl, rfl⟩
  | some value =>
    rw [if_pos (hthere.mp rfl)]
    exact pushOn_agrees stack value

-- What has been taken makes room for the push, so on a stack within the limit it does not fail.
theorem pushOn_agrees_collapse {before rest : Stack} {count : Nat} (hcount : 0 < count)
    (hrest : before.length = rest.length + count) (hdepth : before.length ≤ maxDepth)
    (value : Amount) : (pushOn rest value).Agrees before (collapse count before.length) := by
  have hroom : rest.length < maxDepth := by omega
  rw [pushOn_of_lt hroom, collapse_of_le (by omega), hrest, Nat.add_sub_cancel]
  exact List.length_cons

section Agrees

variable {stack : Stack} (hdepth : stack.length ≤ maxDepth)
include hdepth

theorem binary_agrees (combine : Amount → Amount → Except Fault Amount)
    (hcombine : ∀ a b fault, combine a b = .error fault → fault.isArithmetic = true) :
    (binary stack combine).Agrees stack (collapse 2 stack.length) := by
  rcases stack with _ | ⟨b, _ | ⟨a, rest⟩⟩
  · exact ⟨rfl, rfl⟩
  · exact ⟨rfl, rfl⟩
  · simp only [binary]
    cases hc : combine a b with
    | ok value => exact pushOn_agrees_collapse (by decide) rfl hdepth value
    | error fault =>
      rw [collapse_of_le (by simp)]
      exact ⟨hcombine a b fault hc, rfl⟩

theorem unary_agrees (apply : Amount → Amount) :
    (unary stack apply).Agrees stack (collapse 1 stack.length) := by
  rcases stack with _ | ⟨a, rest⟩
  · exact ⟨rfl, rfl⟩
  · exact pushOn_agrees_collapse (by decide) rfl hdepth _

theorem choose_agrees : (choose stack).Agrees stack (collapse 3 stack.length) := by
  rcases stack with _ | ⟨otherwise, _ | ⟨chosen, _ | ⟨condition, rest⟩⟩⟩
  · exact ⟨rfl, rfl⟩
  · exact ⟨rfl, rfl⟩
  · exact ⟨rfl, rfl⟩
  · exact pushOn_agrees_collapse (by decide) rfl hdepth _

end Agrees

theorem checked_fault {fault found : Fault} {value? : Option Amount}
    (h : checked fault value? = .error found) : found = fault := by
  cases value? with
  | none => exact (Except.error.inj h).symm
  | some value => cases h

theorem checked_isArithmetic {fault found : Fault} {value? : Option Amount}
    (hfault : fault.isArithmetic = true) (h : checked fault value? = .error found) :
    found.isArithmetic = true :=
  checked_fault h ▸ hfault

theorem slot?_isSome (context : Context) (index : UInt8) :
    (context.slot? index).isSome = true ↔ index.toNat < 2 := by
  by_cases hbuyer : index = 0
  · subst hbuyer
    exact ⟨fun _ => by decide, fun _ => rfl⟩
  by_cases hunits : index = 1
  · subst hunits
    exact ⟨fun _ => by decide, fun _ => rfl⟩
  have h0 : index.toNat ≠ 0 := fun h => hbuyer (UInt8.toNat_inj.mp h)
  have h1 : index.toNat ≠ 1 := fun h => hunits (UInt8.toNat_inj.mp h)
  simp only [Context.slot?, hbuyer, hunits, if_false, Option.isSome_none, Bool.false_eq_true,
    false_iff]
  omega

theorem perform_agrees (env : Environment) (op : Opcode) (operand : UInt8) {stack : Stack}
    (hdepth : stack.length ≤ maxDepth) :
    (perform env op operand stack).Agrees stack
      (heightAfter env.constants.length op operand stack.length) := by
  cases op with
  | constant => exact fetch_agrees _ _ _ _ (by simp)
  | stack => exact fetch_agrees _ _ _ _ (by simp [fromBottom?])
  | context => exact fetch_agrees _ _ _ _ (slot?_isSome env.context operand)
  | add | sub | mul | div | mod =>
    apply binary_agrees hdepth
    intro a b fault h
    exact checked_isArithmetic rfl h
  | min | max | eq | lt | gt =>
    simp only [perform, heightAfter]
    apply binary_agrees hdepth
    intro a b fault h
    cases h
  | isZero => exact unary_agrees hdepth _
  | eagerIf => exact choose_agrees hdepth

-- Everything a step can do to a stack within the limit, as far as it can be told from the height.
theorem step_agrees (env : Environment) (i : Invocation) {stack : Stack}
    (hdepth : stack.length ≤ maxDepth) :
    (step env i stack).Agrees stack (heightStep env.constants.length i stack.length) := by
  unfold heightStep
  cases hop : i.op? with
  | none =>
    rw [step_of_unknown hop]
    exact ⟨rfl, rfl⟩
  | some op =>
    rw [step_of_op? hop]
    exact perform_agrees env op i.operand hdepth

theorem heightStep_of_step_failed {env : Environment} {i : Invocation} {stack left : Stack}
    {fault : Fault} (hdepth : stack.length ≤ maxDepth) (h : step env i stack = .failed fault left)
    (hfault : fault.isArithmetic = false) :
    heightStep env.constants.length i stack.length = .error fault := by
  have hagrees := step_agrees env i hdepth
  rw [h] at hagrees
  cases hh : heightStep env.constants.length i stack.length with
  | ok height =>
    rw [hh] at hagrees
    exact absurd (hfault.symm.trans hagrees.1) Bool.false_ne_true
  | error foreseen =>
    rw [hh] at hagrees
    rw [hagrees.1]

theorem heights_position_le {poolSize position height : Nat} {invocations : List Invocation}
    {failure : Failure} (h : heights poolSize position invocations height = .error failure) :
    position ≤ failure.position := by
  induction invocations generalizing position height with
  | nil => cases h
  | cons i rest ih =>
    simp only [heights] at h
    cases hs : heightStep poolSize i height with
    | ok next =>
      rw [hs] at h
      exact Nat.le_of_succ_le (ih h)
    | error fault =>
      rw [hs] at h
      cases h
      exact Nat.le_refl position

-- A run and the run of heights from its start. Arithmetic can only fail before the place where the
-- heights stop.
def RunAgrees : Except Failure Stack → Except Failure Nat → Prop
  | .ok stack, .ok height => stack.length = height
  | .error failure, .ok _ => failure.fault.isArithmetic = true
  | .error failure, .error foreseen =>
    failure = foreseen ∨
      failure.position < foreseen.position ∧ failure.fault.isArithmetic = true
  | .ok _, .error _ => False

-- Arithmetic that fails now fails before whatever the heights foresee from here on.
theorem runAgrees_of_isArithmetic {poolSize position height : Nat}
    {invocations : List Invocation} {fault : Fault} (hfault : fault.isArithmetic = true) :
    RunAgrees (.error ⟨position, fault⟩) (heights poolSize (position + 1) invocations height) := by
  cases hr : heights poolSize (position + 1) invocations height with
  | ok final => exact hfault
  | error foreseen => exact .inr ⟨heights_position_le hr, hfault⟩

theorem execute_agrees (env : Environment) (position : Nat) (invocations : List Invocation)
    {stack : Stack} (hdepth : stack.length ≤ maxDepth) :
    RunAgrees (execute env position invocations stack)
      (heights env.constants.length position invocations stack.length) := by
  induction invocations generalizing position stack with
  | nil => exact rfl
  | cons i rest ih =>
    have hstep := step_agrees env i hdepth
    simp only [execute, heights]
    cases ho : step env i stack with
    | done after =>
      rw [ho] at hstep
      cases hh : heightStep env.constants.length i stack.length with
      | ok height =>
        rw [hh] at hstep
        cases (show after.length = height from hstep)
        exact ih (position + 1) (length_step_le ho).2
      | error foreseen =>
        rw [hh] at hstep
        exact hstep.elim
    | failed fault after =>
      rw [ho] at hstep
      cases hh : heightStep env.constants.length i stack.length with
      | ok height =>
        rw [hh] at hstep
        exact runAgrees_of_isArithmetic hstep.1
      | error foreseen =>
        rw [hh] at hstep
        exact .inl (congrArg (Failure.mk position) hstep.1)

theorem run_agrees (env : Environment) (script : Script) :
    RunAgrees (run env script) (heights env.constants.length 0 script.invocations 0) :=
  execute_agrees env 0 script.invocations (Nat.zero_le _)

theorem heights_of_run_ok {env : Environment} {script : Script} {stack : Stack}
    (h : run env script = .ok stack) :
    heights env.constants.length 0 script.invocations 0 = .ok stack.length := by
  have hagrees := run_agrees env script
  rw [h] at hagrees
  cases hh : heights env.constants.length 0 script.invocations 0 with
  | ok height =>
    rw [hh] at hagrees
    exact congrArg Except.ok (Eq.symm hagrees)
  | error foreseen =>
    rw [hh] at hagrees
    exact hagrees.elim

theorem heights_of_run_error {env : Environment} {script : Script} {failure : Failure}
    (h : run env script = .error failure) (hfault : failure.fault.isArithmetic = false) :
    heights env.constants.length 0 script.invocations 0 = .error failure := by
  have hagrees := run_agrees env script
  rw [h] at hagrees
  cases hh : heights env.constants.length 0 script.invocations 0 with
  | ok height =>
    rw [hh] at hagrees
    exact absurd (hfault.symm.trans hagrees) Bool.false_ne_true
  | error foreseen =>
    rw [hh] at hagrees
    obtain rfl | ⟨-, harith⟩ := hagrees
    · rfl
    · exact absurd (hfault.symm.trans harith) Bool.false_ne_true

end Machine

end Tariff

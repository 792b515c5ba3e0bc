import Tariff.Proofs.Machine.Execute

namespace Tariff

-- One script and then another.
def Script.followedBy (s t : Script) : Script :=
  ⟨s.invocations ++ t.invocations⟩

namespace Machine

-- The stacks between the steps: the one in front of the invocation at `position` is reached when
-- all invocations before it have been executed, in their order.
inductive Reaches (env : Environment) (invocations : List Invocation) (start : Stack) :
    Nat → Stack → Prop
  | start : Reaches env invocations start 0 start
  | step {position : Nat} {i : Invocation} {stack next : Stack}
    (hbefore : Reaches env invocations start position stack)
    (hi : invocations[position]? = some i) (hstep : step env i stack = .done next) :
    Reaches env invocations start (position + 1) next

-- The invocation at the position of the failure is reached, and it fails there.
def FailsAt (env : Environment) (invocations : List Invocation) (start : Stack)
    (failure : Failure) : Prop :=
  ∃ i stack left, invocations[failure.position]? = some i ∧
    Reaches env invocations start failure.position stack ∧
    step env i stack = .failed failure.fault left

def Failure.shift (offset : Nat) (f : Failure) : Failure :=
  { f with position := offset + f.position }

theorem execute_concat_eq_ok_iff {env : Environment} {position : Nat} {before : List Invocation}
    {i : Invocation} {start next : Stack} :
    execute env position (before ++ [i]) start = .ok next ↔
      ∃ stack, execute env position before start = .ok stack ∧ step env i stack = .done next := by
  rw [execute_append]
  cases execute env position before start with
  | error failure => simp [Except.bind]
  | ok stack =>
    simp only [Except.bind, execute]
    cases hstep : step env i stack with
    | done found => simp [hstep]
    | failed fault left => simp [hstep]

-- The steps up to a position are the run of what stands before it. The induction is on the steps.
theorem Reaches.execute_take {env : Environment} {invocations : List Invocation}
    {start stack : Stack} {position : Nat} (h : Reaches env invocations start position stack) :
    position ≤ invocations.length ∧
      execute env 0 (invocations.take position) start = .ok stack := by
  induction h with
  | start => exact ⟨Nat.zero_le _, rfl⟩
  | step _ hi hstep ih =>
    obtain ⟨hlt, -⟩ := List.getElem?_eq_some_iff.mp hi
    refine ⟨hlt, ?_⟩
    rw [List.take_add_one, hi, Option.toList_some]
    exact execute_concat_eq_ok_iff.mpr ⟨_, ih.2, hstep⟩

theorem reaches_of_execute_take {env : Environment} {invocations : List Invocation}
    {start stack : Stack} {position : Nat} (hle : position ≤ invocations.length)
    (h : execute env 0 (invocations.take position) start = .ok stack) :
    Reaches env invocations start position stack := by
  induction position generalizing stack with
  | zero =>
    cases h
    exact .start
  | succ position ih =>
    have hi : invocations[position]? = some invocations[position] := List.getElem?_eq_getElem hle
    rw [List.take_add_one, hi, Option.toList_some] at h
    obtain ⟨mid, hbefore, hstep⟩ := execute_concat_eq_ok_iff.mp h
    exact .step (ih (Nat.le_of_succ_le hle) hbefore) hi hstep

theorem execute_eq_ok_iff {env : Environment} {invocations : List Invocation}
    {start stack : Stack} :
    execute env 0 invocations start = .ok stack ↔
      Reaches env invocations start invocations.length stack := by
  constructor
  · intro h
    apply reaches_of_execute_take (Nat.le_refl _)
    rwa [List.take_length]
  · intro h
    have hrun := h.execute_take.2
    rwa [List.take_length] at hrun

theorem FailsAt.execute_eq_error {env : Environment} {invocations : List Invocation}
    {start : Stack} {failure : Failure} (h : FailsAt env invocations start failure) :
    execute env 0 invocations start = .error failure := by
  obtain ⟨i, stack, left, hi, hreaches, hstep⟩ := h
  obtain ⟨hlt, hget⟩ := List.getElem?_eq_some_iff.mp hi
  have hsplit : invocations =
      invocations.take failure.position ++ i :: invocations.drop (failure.position + 1) := by
    rw [← hget, ← List.drop_eq_getElem_cons hlt, List.take_append_drop]
  have hlen : 0 + (invocations.take failure.position).length = failure.position := by
    rw [List.length_take]
    omega
  rw [hsplit, execute_append, hreaches.execute_take.2]
  simp only [Except.bind, execute, hstep, hlen]

theorem execute_eq_error_iff {env : Environment} {invocations : List Invocation} {start : Stack}
    {failure : Failure} :
    execute env 0 invocations start = .error failure ↔
      FailsAt env invocations start failure := by
  refine ⟨?_, FailsAt.execute_eq_error⟩
  intro h
  obtain ⟨before, i, after, mid, left, hsplit, hposition, hrun, hstep⟩ := execute_error h
  rw [Nat.zero_add] at hposition
  refine ⟨i, mid, left, ?_, ?_, hstep⟩
  · rw [hsplit, hposition, List.getElem?_append_right (Nat.le_refl _), Nat.sub_self,
      List.getElem?_cons_zero]
  · apply reaches_of_execute_take
    · rw [hsplit, hposition, List.length_append]
      omega
    · rw [hsplit, hposition, List.take_left]
      exact hrun

-- The positions are counted from wherever the run starts, and nothing else depends on them.
theorem execute_shift (env : Environment) (offset position : Nat)
    (invocations : List Invocation) (stack : Stack) :
    execute env (offset + position) invocations stack =
      (execute env position invocations stack).mapError (·.shift offset) := by
  induction invocations generalizing position stack with
  | nil => rfl
  | cons i rest ih =>
    simp only [execute]
    cases step env i stack with
    | done next => exact ih (position + 1) next
    | failed fault left => rfl

theorem run_followedBy (env : Environment) (s t : Script) :
    run env (s.followedBy t) =
      (run env s).bind fun stack =>
        (execute env 0 t.invocations stack).mapError (·.shift s.length) := by
  have hshift (stack : Stack) :
      execute env (0 + s.length) t.invocations stack =
        (execute env 0 t.invocations stack).mapError (·.shift s.length) := by
    rw [Nat.zero_add]
    exact execute_shift env s.length 0 t.invocations stack
  rw [run, Script.followedBy, execute_append]
  exact congrArg (run env s).bind (funext hshift)

-- What stops a step is a fault. That a source does not exist, or that bytes are no script, is not
-- one of the faults, and neither is a failure of a run: these are errors of other types.
theorem run_fails_at_first_failing_step (env : Environment) :
    (∀ script failure, run env script = .error failure ↔
      ∃ position i stack fault left, position < script.length ∧
        Reaches env script.invocations [] position stack ∧
        script.invocations[position]? = some i ∧ step env i stack = .failed fault left ∧
        failure = ⟨position, fault⟩) ∧
    (∀ script stack, run env script = .ok stack ↔
      Reaches env script.invocations [] script.length stack) ∧
    (∀ (p : Program) (index : Nat) (script : Script), p.sources[index]? = some script →
      p.constants = env.constants → ∀ error, p.run index env.context = .error error ↔
        ∃ failure, run env script = .error failure ∧ error = .step failure) ∧
    (∀ s t failure, run env s = .error failure → run env (s.followedBy t) = .error failure) ∧
    ∀ s t stack, run env s = .ok stack →
      run env (s.followedBy t) =
        (execute env 0 t.invocations stack).mapError (·.shift s.length) := by
  refine ⟨?_, fun _ _ => execute_eq_ok_iff, ?_, ?_, ?_⟩
  · intro script failure
    rw [run, execute_eq_error_iff]
    constructor
    · rintro ⟨i, stack, left, hi, hreaches, hstep⟩
      have hlt : failure.position < script.length := (List.getElem?_eq_some_iff.mp hi).1
      exact ⟨failure.position, i, stack, failure.fault, left, hlt, hreaches, hi, hstep, rfl⟩
    · rintro ⟨position, i, stack, fault, left, -, hreaches, hi, hstep, rfl⟩
      exact ⟨i, stack, left, hi, hreaches, hstep⟩
  · intro p index script hscript hconstants error
    have henv : p.environment env.context = env := by
      rw [Program.environment, hconstants]
    simp only [Program.run, hscript, henv]
    cases run env script with
    | ok stack => simp
    | error failure => simp [eq_comm]
  · intro s t failure h
    rw [run_followedBy, h]
    rfl
  · intro s t stack h
    rw [run_followedBy, h]
    rfl

-- Adds to a stack of one, in the middle of a script.
def loneAddition : Script :=
  ⟨[.of .constant 0, .of .add 0, .of .constant 0]⟩

-- The addition fails behind the constant that the first script leaves, and where it stands in the
-- middle the rest is never looked at.
theorem run_fails_at_first_failing_step_loneAddition :
    (∃ stack left, Reaches ⟨[.one], ⟨.zero, .one⟩⟩ loneAddition.invocations [] 1 stack ∧
      step ⟨[.one], ⟨.zero, .one⟩⟩ (.of .add 0) stack = .failed (.stackUnderflow 2 1) left) ∧
    run ⟨[.one], ⟨.zero, .one⟩⟩ (loneAddition.followedBy ⟨[⟨0x7f, 0⟩]⟩) =
      .error ⟨1, .stackUnderflow 2 1⟩ ∧
    run ⟨[.one], ⟨.zero, .one⟩⟩ (Script.followedBy ⟨[.of .constant 0]⟩ ⟨[.of .add 0]⟩) =
      .error ⟨1, .stackUnderflow 2 1⟩ ∧
    (Program.mk [loneAddition] [.one]).run 0 ⟨.zero, .one⟩ =
      .error (.step ⟨1, .stackUnderflow 2 1⟩) := by
  obtain ⟨hfails, -, hsource, hlonger, hcontinues⟩ :=
    run_fails_at_first_failing_step ⟨[.one], ⟨.zero, .one⟩⟩
  have hrun : run ⟨[.one], ⟨.zero, .one⟩⟩ loneAddition = .error ⟨1, .stackUnderflow 2 1⟩ := rfl
  refine ⟨?_, hlonger _ _ _ hrun, hcontinues _ _ [.one] rfl, ?_⟩
  · obtain ⟨position, i, stack, fault, left, -, hreaches, hi, hstep, heq⟩ :=
      (hfails loneAddition _).mp hrun
    cases heq
    cases hi
    exact ⟨stack, left, hreaches, hstep⟩
  · exact (hsource _ 0 loneAddition rfl rfl _).mpr ⟨_, hrun, rfl⟩

end Machine

end Tariff

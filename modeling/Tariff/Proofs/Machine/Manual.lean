import Mathlib.Data.List.Basic
import Mathlib.Data.Nat.Digits.Defs
import Tariff.Machine

namespace Tariff

namespace Machine

-- The stack as the manual writes it.
def words (stack : Stack) : List Nat :=
  (bottomUp stack).map Amount.toNat

end Machine

namespace Manual

-- What an instruction can read beside the stack.
structure Inputs where
  pool : List Nat
  buyer : Nat
  units : Nat

-- The instruction set, each instruction with its first byte.
def instructions : List (UInt8 × Opcode) :=
  [(0x00, .constant), (0x01, .stack), (0x02, .context), (0x10, .add), (0x11, .sub), (0x12, .mul),
    (0x13, .div), (0x14, .mod), (0x15, .min), (0x16, .max), (0x20, .eq), (0x21, .lt), (0x22, .gt),
    (0x23, .isZero), (0x30, .eagerIf)]

-- The value that an instruction fetches, or why there is none.
inductive Fetches (inputs : Inputs) (stack : List Nat) :
    Opcode → UInt8 → Except Fault Nat → Prop
  | constant {index : UInt8} {value : Nat} (hvalue : inputs.pool[index.toNat]? = some value) :
    Fetches inputs stack .constant index (.ok value)
  | noConstant {index : UInt8} (hindex : inputs.pool.length ≤ index.toNat) :
    Fetches inputs stack .constant index
      (.error (.constantOutOfRange index inputs.pool.length))
  | stack {index : UInt8} {value : Nat} (hvalue : stack[index.toNat]? = some value) :
    Fetches inputs stack .stack index (.ok value)
  | noStack {index : UInt8} (hindex : stack.length ≤ index.toNat) :
    Fetches inputs stack .stack index (.error (.stackUnderflow (index.toNat + 1) stack.length))
  | buyer : Fetches inputs stack .context 0 (.ok inputs.buyer)
  | units : Fetches inputs stack .context 1 (.ok inputs.units)
  | noSlot {index : UInt8} (hindex : 2 ≤ index.toNat) :
    Fetches inputs stack .context index (.error (.contextOutOfRange index))

-- What the instructions on two values compute from `a` and from `b` above it.
def combination? : Opcode → Option (Nat → Nat → Except Fault Nat)
  | .add => some fun a b =>
    if a + b < Nat.pow 2 256 then .ok (a + b) else .error (.arithmeticOverflow .add)
  | .sub => some fun a b => if b ≤ a then .ok (a - b) else .error (.arithmeticOverflow .sub)
  | .mul => some fun a b =>
    if a * b < Nat.pow 2 256 then .ok (a * b) else .error (.arithmeticOverflow .mul)
  | .div => some fun a b => if b = 0 then .error .divisionByZero else .ok (a / b)
  | .mod => some fun a b => if b = 0 then .error .divisionByZero else .ok (a % b)
  | .min => some fun a b => .ok (min a b)
  | .max => some fun a b => .ok (max a b)
  | .eq => some fun a b => .ok (if a = b then 1 else 0)
  | .lt => some fun a b => .ok (if a < b then 1 else 0)
  | .gt => some fun a b => .ok (if a > b then 1 else 0)
  | _ => none

-- One instruction: its two bytes, the stack that it meets, and the stack or the fault that it leads
-- to. The operand of an instruction that fetches nothing stands in no condition.
inductive Executes (inputs : Inputs) :
    UInt8 → UInt8 → List Nat → Except Fault (List Nat) → Prop
  | unknown {id operand : UInt8} {stack : List Nat} (hid : ∀ op, (id, op) ∉ instructions) :
    Executes inputs id operand stack (.error (.unknownOpcode id))
  | fetched {id operand : UInt8} {op : Opcode} {stack : List Nat} {value : Nat}
    (hid : (id, op) ∈ instructions) (hvalue : Fetches inputs stack op operand (.ok value))
    (hroom : stack.length < 1024) :
    Executes inputs id operand stack (.ok (stack ++ [value]))
  | full {id operand : UInt8} {op : Opcode} {stack : List Nat} {value : Nat}
    (hid : (id, op) ∈ instructions) (hvalue : Fetches inputs stack op operand (.ok value))
    (hfull : stack.length = 1024) :
    Executes inputs id operand stack (.error .stackOverflow)
  | notFetched {id operand : UInt8} {op : Opcode} {stack : List Nat} {fault : Fault}
    (hid : (id, op) ∈ instructions) (hfault : Fetches inputs stack op operand (.error fault)) :
    Executes inputs id operand stack (.error fault)
  | combined {id operand : UInt8} {op : Opcode} {rest : List Nat} {a b value : Nat}
    {combine : Nat → Nat → Except Fault Nat} (hid : (id, op) ∈ instructions)
    (hop : combination? op = some combine) (hvalue : combine a b = .ok value) :
    Executes inputs id operand (rest ++ [a, b]) (.ok (rest ++ [value]))
  | notCombined {id operand : UInt8} {op : Opcode} {rest : List Nat} {a b : Nat} {fault : Fault}
    {combine : Nat → Nat → Except Fault Nat} (hid : (id, op) ∈ instructions)
    (hop : combination? op = some combine) (hfault : combine a b = .error fault) :
    Executes inputs id operand (rest ++ [a, b]) (.error fault)
  | lessThanTwo {id operand : UInt8} {op : Opcode} {stack : List Nat}
    {combine : Nat → Nat → Except Fault Nat} (hid : (id, op) ∈ instructions)
    (hop : combination? op = some combine) (hshort : stack.length < 2) :
    Executes inputs id operand stack (.error (.stackUnderflow 2 stack.length))
  | isZero {operand : UInt8} {rest : List Nat} {a : Nat} :
    Executes inputs 0x23 operand (rest ++ [a]) (.ok (rest ++ [if a = 0 then 1 else 0]))
  | lessThanOne {operand : UInt8} {stack : List Nat} (hshort : stack.length < 1) :
    Executes inputs 0x23 operand stack (.error (.stackUnderflow 1 stack.length))
  | eagerIf {operand : UInt8} {rest : List Nat} {condition chosen otherwise : Nat} :
    Executes inputs 0x30 operand (rest ++ [condition, chosen, otherwise])
      (.ok (rest ++ [if condition = 0 then otherwise else chosen]))
  | lessThanThree {operand : UInt8} {stack : List Nat} (hshort : stack.length < 3) :
    Executes inputs 0x30 operand stack (.error (.stackUnderflow 3 stack.length))

-- The manual covers everything: some rule applies to any two bytes and any stack within the limit.
theorem exists_fetches (inputs : Inputs) (stack : List Nat) {op : Opcode} (operand : UInt8)
    (hop : op.takesOperand = true) : ∃ result, Fetches inputs stack op operand result := by
  cases op with
  | constant =>
    by_cases hindex : operand.toNat < inputs.pool.length
    · exact ⟨_, .constant (List.getElem?_eq_getElem hindex)⟩
    · exact ⟨_, .noConstant (Nat.le_of_not_lt hindex)⟩
  | stack =>
    by_cases hindex : operand.toNat < stack.length
    · exact ⟨_, .stack (List.getElem?_eq_getElem hindex)⟩
    · exact ⟨_, .noStack (Nat.le_of_not_lt hindex)⟩
  | context =>
    by_cases hbuyer : operand = 0
    · subst hbuyer
      exact ⟨_, .buyer⟩
    by_cases hunits : operand = 1
    · subst hunits
      exact ⟨_, .units⟩
    have h0 : operand.toNat ≠ 0 := fun h => hbuyer (UInt8.toNat_inj.mp h)
    have h1 : operand.toNat ≠ 1 := fun h => hunits (UInt8.toNat_inj.mp h)
    exact ⟨_, .noSlot (by omega)⟩
  | add | sub | mul | div | mod | min | max | eq | lt | gt | isZero | eagerIf => cases hop

theorem exists_top {stack : List Nat} {count : Nat} (h : count ≤ stack.length) :
    ∃ rest top, stack = rest ++ top ∧ top.length = count := by
  refine ⟨stack.take (stack.length - count), stack.drop (stack.length - count),
    (List.take_append_drop _ _).symm, ?_⟩
  rw [List.length_drop]
  omega

theorem exists_executes_fetch (inputs : Inputs) {stack : List Nat} {id : UInt8} {op : Opcode}
    (hid : (id, op) ∈ instructions) (operand : UInt8) (hop : op.takesOperand = true)
    (hdepth : stack.length ≤ 1024) : ∃ result, Executes inputs id operand stack result := by
  obtain ⟨found, hfound⟩ := exists_fetches inputs stack operand hop
  cases found with
  | error fault => exact ⟨_, .notFetched hid hfound⟩
  | ok value =>
    by_cases hfull : stack.length = 1024
    · exact ⟨_, .full hid hfound hfull⟩
    · exact ⟨_, .fetched hid hfound (by omega)⟩

theorem exists_executes_combination (inputs : Inputs) (stack : List Nat) {id : UInt8} {op : Opcode}
    (hid : (id, op) ∈ instructions) (operand : UInt8) {combine : Nat → Nat → Except Fault Nat}
    (hop : combination? op = some combine) :
    ∃ result, Executes inputs id operand stack result := by
  by_cases hshort : stack.length < 2
  · exact ⟨_, .lessThanTwo hid hop hshort⟩
  obtain ⟨rest, top, rfl, htop⟩ := exists_top (Nat.le_of_not_lt hshort)
  obtain ⟨a, b, rfl⟩ := List.length_eq_two.mp htop
  cases hc : combine a b with
  | ok value => exact ⟨_, .combined hid hop hc⟩
  | error fault => exact ⟨_, .notCombined hid hop hc⟩

-- The machine has the bytes that the manual lists.
theorem mem_instructions_iff {id : UInt8} {op : Opcode} :
    (id, op) ∈ instructions ↔ op.byte = id := by
  have hbyte : ∀ entry ∈ instructions, entry.2.byte = entry.1 := by decide
  constructor
  · exact hbyte (id, op)
  · rintro rfl
    cases op <;> decide

theorem exists_executes (inputs : Inputs) (id operand : UInt8) (stack : List Nat)
    (hdepth : stack.length ≤ 1024) : ∃ result, Executes inputs id operand stack result := by
  by_cases hknown : ∃ op, (id, op) ∈ instructions
  case neg => exact ⟨_, .unknown (not_exists.mp hknown)⟩
  obtain ⟨op, hid⟩ := hknown
  cases op with
  | constant | stack | context => exact exists_executes_fetch inputs hid operand rfl hdepth
  | add | sub | mul | div | mod | min | max | eq | lt | gt =>
    exact exists_executes_combination inputs stack hid operand rfl
  | isZero =>
    obtain rfl : 0x23 = id := mem_instructions_iff.mp hid
    by_cases hshort : stack.length < 1
    · exact ⟨_, .lessThanOne hshort⟩
    obtain ⟨rest, top, rfl, htop⟩ := exists_top (Nat.le_of_not_lt hshort)
    obtain ⟨a, rfl⟩ := List.length_eq_one_iff.mp htop
    exact ⟨_, .isZero⟩
  | eagerIf =>
    obtain rfl : 0x30 = id := mem_instructions_iff.mp hid
    by_cases hshort : stack.length < 3
    · exact ⟨_, .lessThanThree hshort⟩
    obtain ⟨rest, top, rfl, htop⟩ := exists_top (Nat.le_of_not_lt hshort)
    obtain ⟨condition, chosen, otherwise, rfl⟩ := List.length_eq_three.mp htop
    exact ⟨_, .eagerIf⟩

end Manual

theorem Opcode.ofByte?_eq_none {id : UInt8} (h : ∀ op, (id, op) ∉ Manual.instructions) :
    ofByte? id = none := by
  cases ho : ofByte? id with
  | none => rfl
  | some op => exact absurd (Manual.mem_instructions_iff.mpr (byte_of_ofByte? ho)) (h op)

-- The first byte weighs most.
theorem Amount.ofBytes_eq_ofDigits (bytes : List UInt8) :
    Amount.ofBytes bytes = Nat.ofDigits 256 (bytes.reverse.map UInt8.toNat) := by
  rw [Nat.ofDigits_eq_foldr, List.map_reverse, List.foldr_reverse, List.foldl_map]
  unfold Amount.ofBytes
  congr 1
  funext n b
  exact Nat.add_comm _ _

namespace Machine

-- The pool, the twenty bytes of the buyer read as one number with the first byte weighing most, and
-- the units.
def Environment.inputs (env : Environment) : Manual.Inputs where
  pool := env.constants.map Amount.toNat
  buyer := Nat.ofDigits 256 (env.context.buyer.bytes.reverse.map UInt8.toNat)
  units := env.context.units.toNat

@[simp] theorem length_words (stack : Stack) : (words stack).length = stack.length := by
  simp [words, bottomUp]

@[simp] theorem words_nil : words [] = [] := rfl

@[simp] theorem words_cons (value : Amount) (stack : Stack) :
    words (value :: stack) = words stack ++ [value.toNat] := by
  simp [words, bottomUp]

theorem words_eq_concat {stack : Stack} {rest : List Nat} {a : Nat}
    (h : words stack = rest ++ [a]) :
    ∃ value below, stack = value :: below ∧ words below = rest ∧ value.toNat = a := by
  cases stack with
  | nil => simp at h
  | cons value below =>
    rw [words_cons] at h
    obtain ⟨hrest, ha⟩ := List.append_inj' h rfl
    exact ⟨value, below, rfl, hrest, List.singleton_inj.mp ha⟩

theorem words_eq_append_pair {stack : Stack} {rest : List Nat} {a b : Nat}
    (h : words stack = rest ++ [a, b]) :
    ∃ lower upper below, stack = upper :: lower :: below ∧ words below = rest ∧
      lower.toNat = a ∧ upper.toNat = b := by
  obtain ⟨upper, middle, rfl, hmiddle, hb⟩ :=
    words_eq_concat (h.trans (List.append_cons rest a [b]))
  obtain ⟨lower, below, rfl, hbelow, ha⟩ := words_eq_concat hmiddle
  exact ⟨lower, upper, below, rfl, hbelow, ha, hb⟩

-- What the manual finds is what the machine pushes, and what it misses stops the machine.
theorem perform_of_fetches {env : Environment} {op : Opcode} {operand : UInt8} {stack : Stack}
    {found : Except Fault Nat} (h : Manual.Fetches env.inputs (words stack) op operand found) :
    (∃ value, found = .ok value.toNat ∧ perform env op operand stack = pushOn stack value) ∨
      ∃ fault, found = .error fault ∧ perform env op operand stack = .failed fault stack := by
  cases h with
  | constant hvalue =>
    obtain ⟨value, hget, rfl⟩ := Option.map_eq_some_iff.mp (List.getElem?_map .. ▸ hvalue)
    exact .inl ⟨value, rfl, by simp only [perform, fetch, hget]⟩
  | noConstant hindex =>
    have hlen : env.inputs.pool.length = env.constants.length := List.length_map _
    rw [hlen] at hindex
    refine .inr ⟨_, rfl, ?_⟩
    simp only [perform, fetch, List.getElem?_eq_none hindex, hlen]
  | stack hvalue =>
    obtain ⟨value, hget, rfl⟩ := Option.map_eq_some_iff.mp (List.getElem?_map .. ▸ hvalue)
    have hbottom : fromBottom? stack operand.toNat = some value := hget
    exact .inl ⟨value, rfl, by simp only [perform, fetch, hbottom]⟩
  | noStack hindex =>
    rw [length_words] at hindex ⊢
    have hnone : fromBottom? stack operand.toNat = none :=
      List.getElem?_eq_none (by rwa [List.length_reverse])
    exact .inr ⟨_, rfl, by simp only [perform, fetch, hnone]⟩
  | buyer =>
    exact .inl ⟨env.context.buyer.toAmount, congrArg _ (Amount.ofBytes_eq_ofDigits _).symm, rfl⟩
  | units => exact .inl ⟨env.context.units, rfl, rfl⟩
  | noSlot hindex =>
    have hbuyer : operand ≠ 0 := by
      rintro rfl
      exact absurd hindex (by decide)
    have hunits : operand ≠ 1 := by
      rintro rfl
      exact absurd hindex (by decide)
    exact .inr ⟨_, rfl, by simp only [perform, fetch, Context.slot?, hbuyer, hunits, if_false]⟩

theorem map_checked_ofNat? (fault : Fault) (n : Nat) :
    (checked fault (Amount.ofNat? n)).map Amount.toNat =
      if n < Nat.pow 2 256 then .ok n else .error fault := by
  by_cases hn : n < Nat.pow 2 256
  · rw [if_pos hn, Amount.ofNat?_eq_some_iff.mpr (show (Amount.mk n hn).toNat = n from rfl)]
    rfl
  · rw [if_neg hn, Amount.ofNat?_eq_none_iff.mpr (Nat.le_of_not_lt hn)]
    rfl

-- A result that is no larger than one of the values that it comes from is never out of range.
theorem map_checked_ofNat?_of_le (fault : Fault) {n : Nat} {a : Amount} (h : n ≤ a.toNat) :
    (checked fault (Amount.ofNat? n)).map Amount.toNat = .ok n := by
  rw [map_checked_ofNat?, if_pos (Nat.lt_of_le_of_lt h a.isLt)]

theorem toNat_ofBool (b : Bool) : (Amount.ofBool b).toNat = if b then 1 else 0 := by
  cases b <;> rfl

theorem perform_of_combination? {op : Opcode} {combine : Nat → Nat → Except Fault Nat}
    (h : Manual.combination? op = some combine) :
    ∃ f, (∀ env operand stack, perform env op operand stack = binary stack f) ∧
      ∀ a b : Amount, (f a b).map Amount.toNat = combine a.toNat b.toNat := by
  cases op with
  | constant | stack | context | isZero | eagerIf => cases h
  | add | mul =>
    cases h
    exact ⟨_, fun _ _ _ => rfl, fun a b => map_checked_ofNat? _ _⟩
  | sub =>
    cases h
    refine ⟨_, fun _ _ _ => rfl, fun a b => ?_⟩
    by_cases hle : b.toNat ≤ a.toNat
    · simp only [Amount.sub?, if_pos hle]
      exact map_checked_ofNat?_of_le _ (Nat.sub_le _ _)
    · simp only [Amount.sub?, if_neg hle]
      rfl
  | div =>
    cases h
    refine ⟨_, fun _ _ _ => rfl, fun a b => ?_⟩
    by_cases hzero : b.toNat = 0
    · simp only [Amount.div?, Amount.isZero, hzero]
      rfl
    · simp only [Amount.div?, Amount.isZero, beq_iff_eq, if_neg hzero]
      exact map_checked_ofNat?_of_le _ (Nat.div_le_self _ _)
  | mod =>
    cases h
    refine ⟨_, fun _ _ _ => rfl, fun a b => ?_⟩
    by_cases hzero : b.toNat = 0
    · simp only [Amount.mod?, Amount.isZero, hzero]
      rfl
    · simp only [Amount.mod?, Amount.isZero, beq_iff_eq, if_neg hzero]
      exact map_checked_ofNat?_of_le _ (Nat.mod_le _ _)
  | min =>
    cases h
    refine ⟨fun a b => .ok (a.min b), fun _ _ _ => rfl, fun a b => congrArg Except.ok ?_⟩
    unfold Amount.min
    split <;> omega
  | max =>
    cases h
    refine ⟨fun a b => .ok (a.max b), fun _ _ _ => rfl, fun a b => congrArg Except.ok ?_⟩
    unfold Amount.max
    split <;> omega
  | eq =>
    cases h
    refine ⟨fun a b => .ok (.ofBool (a == b)), fun _ _ _ => rfl, fun a b => congrArg Except.ok ?_⟩
    simp only [toNat_ofBool, beq_iff_eq, Amount.ext_iff]
  | lt =>
    cases h
    refine ⟨fun a b => .ok (.ofBool (a.toNat < b.toNat)), fun _ _ _ => rfl,
      fun a b => congrArg Except.ok ?_⟩
    simp only [toNat_ofBool, decide_eq_true_eq]
  | gt =>
    cases h
    refine ⟨fun a b => .ok (.ofBool (b.toNat < a.toNat)), fun _ _ _ => rfl,
      fun a b => congrArg Except.ok ?_⟩
    simp only [toNat_ofBool, decide_eq_true_eq, gt_iff_lt]

theorem result_pushOn {below : Stack} (hroom : below.length < maxDepth) (value : Amount) :
    (pushOn below value).result.map words = .ok (words below ++ [value.toNat]) := by
  rw [pushOn_of_lt hroom]
  exact congrArg Except.ok (words_cons value below)

theorem result_binary {f : Amount → Amount → Except Fault Amount}
    {combine : Nat → Nat → Except Fault Nat}
    (hf : ∀ a b : Amount, (f a b).map Amount.toNat = combine a.toNat b.toNat)
    (lower upper : Amount) {below : Stack} (hroom : below.length < maxDepth) :
    (binary (upper :: lower :: below) f).result.map words =
      (combine lower.toNat upper.toNat).map fun value => words below ++ [value] := by
  rw [← hf]
  simp only [binary]
  cases f lower upper with
  | ok value => exact result_pushOn hroom value
  | error fault => rfl

theorem binary_of_short {stack : Stack} (f : Amount → Amount → Except Fault Amount)
    (h : stack.length < 2) : binary stack f = .failed (.stackUnderflow 2 stack.length) stack := by
  rcases stack with _ | ⟨b, _ | ⟨a, rest⟩⟩
  · rfl
  · rfl
  · simp only [List.length_cons] at h
    omega

theorem choose_of_short {stack : Stack} (h : stack.length < 3) :
    choose stack = .failed (.stackUnderflow 3 stack.length) stack := by
  rcases stack with _ | ⟨otherwise, _ | ⟨chosen, _ | ⟨condition, rest⟩⟩⟩
  · rfl
  · rfl
  · rfl
  · simp only [List.length_cons] at h
    omega

theorem step_of_byte (env : Environment) (op : Opcode) (operand : UInt8) (stack : Stack) :
    step env ⟨op.byte, operand⟩ stack = perform env op operand stack := by
  have hop : Invocation.op? ⟨op.byte, operand⟩ = some op := Opcode.ofByte?_byte op
  exact step_of_op? hop env stack

-- One case for each rule of the manual.
theorem result_of_executes {env : Environment} {id operand : UInt8} {stack : Stack}
    (hdepth : stack.length ≤ maxDepth) {result : Except Fault (List Nat)}
    (h : Manual.Executes env.inputs id operand (words stack) result) :
    (step env ⟨id, operand⟩ stack).result.map words = result := by
  have hstep {op : Opcode} (hid : (id, op) ∈ Manual.instructions) :
      step env ⟨id, operand⟩ stack = perform env op operand stack := by
    rw [← Manual.mem_instructions_iff.mp hid, step_of_byte]
  generalize hstack : words stack = below at h
  cases h with
  | unknown hid =>
    rw [step_of_unknown (Opcode.ofByte?_eq_none hid)]
    rfl
  | fetched hid hvalue hroom =>
    subst hstack
    obtain ⟨value, heq, hp⟩ | ⟨fault, heq, -⟩ := perform_of_fetches hvalue
    · cases heq
      rw [length_words] at hroom
      rw [hstep hid, hp, result_pushOn hroom]
    · cases heq
  | full hid hvalue hfull =>
    subst hstack
    obtain ⟨value, -, hp⟩ | ⟨fault, heq, -⟩ := perform_of_fetches hvalue
    · rw [length_words] at hfull
      rw [hstep hid, hp, pushOn_of_le (Nat.le_of_eq hfull.symm)]
      rfl
    · cases heq
  | notFetched hid hfault =>
    subst hstack
    obtain ⟨value, heq, -⟩ | ⟨fault, heq, hp⟩ := perform_of_fetches hfault
    · cases heq
    · cases heq
      rw [hstep hid, hp]
      rfl
  | combined hid hop hvalue =>
    obtain ⟨lower, upper, under, rfl, rfl, rfl, rfl⟩ := words_eq_append_pair hstack
    obtain ⟨f, hp, hf⟩ := perform_of_combination? hop
    rw [hstep hid, hp, result_binary hf lower upper (Nat.lt_of_succ_lt hdepth), hvalue]
    rfl
  | notCombined hid hop hfault =>
    obtain ⟨lower, upper, under, rfl, rfl, rfl, rfl⟩ := words_eq_append_pair hstack
    obtain ⟨f, hp, hf⟩ := perform_of_combination? hop
    rw [hstep hid, hp, result_binary hf lower upper (Nat.lt_of_succ_lt hdepth), hfault]
    rfl
  | lessThanTwo hid hop hshort =>
    subst hstack
    obtain ⟨f, hp, -⟩ := perform_of_combination? hop
    rw [length_words] at hshort ⊢
    rw [hstep hid, hp, binary_of_short f hshort]
    rfl
  | isZero =>
    obtain ⟨value, under, rfl, rfl, rfl⟩ := words_eq_concat hstack
    have hid : (0x23, Opcode.isZero) ∈ Manual.instructions := by decide
    rw [hstep hid, perform, unary, result_pushOn hdepth]
    simp only [toNat_ofBool, Amount.isZero, beq_iff_eq]
  | lessThanOne hshort =>
    subst hstack
    rw [length_words, Nat.lt_one_iff, List.length_eq_zero_iff] at hshort
    subst hshort
    rfl
  | eagerIf =>
    obtain ⟨first, second, middle, rfl, hmiddle, rfl, rfl⟩ :=
      words_eq_append_pair (hstack.trans (List.append_cons _ _ _))
    obtain ⟨condition, under, rfl, rfl, rfl⟩ := words_eq_concat hmiddle
    have hroom : under.length < maxDepth := Nat.lt_of_succ_lt (Nat.lt_of_succ_lt hdepth)
    have hid : (0x30, Opcode.eagerIf) ∈ Manual.instructions := by decide
    rw [hstep hid, perform, choose, result_pushOn hroom]
    simp only [Amount.isZero, beq_iff_eq]
    split <;> rfl
  | lessThanThree hshort =>
    subst hstack
    rw [length_words] at hshort ⊢
    have hid : (0x30, Opcode.eagerIf) ∈ Manual.instructions := by decide
    rw [hstep hid, perform, choose_of_short hshort]
    rfl

-- A step of the machine is what the manual says, and the manual says nothing else.
theorem step_follows_manual (env : Environment) (id operand : UInt8) (stack : Stack)
    (hdepth : stack.length ≤ 1024) :
    (∀ result, (step env ⟨id, operand⟩ stack).result.map words = result ↔
      Manual.Executes env.inputs id operand (words stack) result) ∧
    ∀ (op : Opcode) (other : UInt8), op.takesOperand = false → op.byte = id →
      step env ⟨id, other⟩ stack = step env ⟨id, operand⟩ stack := by
  constructor
  · intro result
    refine ⟨?_, result_of_executes hdepth⟩
    rintro rfl
    obtain ⟨found, hfound⟩ :=
      Manual.exists_executes env.inputs id operand (words stack) (by rwa [length_words])
    rw [result_of_executes hdepth hfound]
    exact hfound
  · rintro op other hop rfl
    rw [step_of_byte, step_of_byte]
    cases op with
    | constant | stack | context => cases hop
    | add | sub | mul | div | mod | min | max | eq | lt | gt | isZero | eagerIf => rfl

-- There is no room for the units on a full stack, and three less five is no amount, whatever the
-- operand of the subtraction.
theorem step_follows_manual_fullStack :
    (step ⟨[], ⟨.zero, .one⟩⟩ ⟨0x02, 1⟩ (List.replicate 1024 .one)).result.map words =
      .error .stackOverflow ∧
    (step ⟨[], ⟨.zero, .one⟩⟩ ⟨0x11, 7⟩ [⟨5, by decide⟩, ⟨3, by decide⟩]).result.map words =
      .error (.arithmeticOverflow .sub) := by
  have hfull : Manual.Executes (Environment.mk [] ⟨.zero, .one⟩).inputs 0x02 1
      (words (List.replicate 1024 .one)) (.error .stackOverflow) :=
    .full (by decide) .units (by rw [length_words, List.length_replicate])
  have hsub : Manual.Executes (Environment.mk [] ⟨.zero, .one⟩).inputs 0x11 7
      ([] ++ [3, 5]) (.error (.arithmeticOverflow .sub)) := by
    have hid : (0x11, Opcode.sub) ∈ Manual.instructions := by decide
    exact .notCombined hid rfl rfl
  constructor
  · exact ((step_follows_manual _ _ _ _ (by rw [List.length_replicate])).1 _).mpr hfull
  · exact ((step_follows_manual _ _ _ _ (by decide)).1 _).mpr hsub

end Machine

end Tariff

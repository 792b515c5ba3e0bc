import Tariff.Proofs.Text.Hex
import Tariff.Script

namespace Tariff

namespace Invocation

-- The operand is zero where nothing reads it. Of an unknown opcode nothing is asked.
def Canonical (i : Invocation) : Prop :=
  ∀ op, i.op? = some op → op.takesOperand = false → i.operand = 0

theorem op?_eq_some_iff {i : Invocation} {op : Opcode} : i.op? = some op ↔ op.byte = i.opcode := by
  constructor
  · exact Opcode.byte_of_ofByte?
  · intro h
    rw [op?, ← h, Opcode.ofByte?_byte]

theorem strayOpcode?_eq_some_iff {i : Invocation} {op : Opcode} :
    i.strayOpcode? = some op ↔
      op.byte = i.opcode ∧ op.takesOperand = false ∧ i.operand ≠ 0 := by
  simp [strayOpcode?, Option.filter_eq_some_iff, op?_eq_some_iff]

theorem strayOpcode?_eq_none_iff {i : Invocation} : i.strayOpcode? = none ↔ i.Canonical := by
  simp only [strayOpcode?, Option.filter_eq_none_iff, Canonical, Bool.and_eq_true,
    Bool.not_eq_true', bne_iff_ne, ne_eq, not_and, Decidable.not_not]

end Invocation

namespace Script

def Canonical (s : Script) : Prop :=
  ∀ i ∈ s.invocations, i.Canonical

theorem toBytes_cons (i : Invocation) (rest : List Invocation) :
    toBytes ⟨i :: rest⟩ = i.opcode :: i.operand :: toBytes ⟨rest⟩ := rfl

theorem pairUp_toBytes (s : Script) : pairUp s.toBytes = s.invocations := by
  obtain ⟨invocations⟩ := s
  induction invocations with
  | nil => rfl
  | cons i rest ih => rw [toBytes_cons, pairUp, ih]

theorem length_toBytes (s : Script) : s.toBytes.length = 2 * s.length := by
  obtain ⟨invocations⟩ := s
  induction invocations with
  | nil => rfl
  | cons i rest ih =>
    simp only [length] at ih
    simp only [toBytes_cons, length, List.length_cons, ih]
    omega

theorem toBytes_injective {s r : Script} (h : s.toBytes = r.toBytes) : s = r := by
  have hpairs := congrArg pairUp h
  rw [pairUp_toBytes, pairUp_toBytes] at hpairs
  cases s
  cases r
  exact congrArg Script.mk hpairs

theorem toBytes_pairUp {bytes : List UInt8} (h : bytes.length % 2 = 0) :
    toBytes ⟨pairUp bytes⟩ = bytes := by
  fun_induction pairUp bytes with
  | case1 opcode operand rest ih =>
    simp only [List.length_cons] at h
    rw [toBytes_cons, ih (by omega)]
  | case2 bytes hshort =>
    match bytes, hshort with
    | [], _ => rfl
    | [b], _ => simp at h
    | opcode :: operand :: rest, hshort => exact absurd rfl (hshort opcode operand rest)

theorem getElem?_pairUp (bytes : List UInt8) (k : Nat) (i : Invocation) :
    (pairUp bytes)[k]? = some i ↔
      bytes[2 * k]? = some i.opcode ∧ bytes[2 * k + 1]? = some i.operand := by
  fun_induction pairUp bytes generalizing k with
  | case1 opcode operand rest ih =>
    cases k with
    | zero =>
      obtain ⟨first, second⟩ := i
      simp
    | succ k =>
      have hdouble : 2 * (k + 1) = 2 * k + 1 + 1 := by omega
      simp only [hdouble, List.getElem?_cons_succ, ih]
  | case2 bytes hshort =>
    match bytes, hshort with
    | [], _ => simp
    | [b], _ => simp
    | opcode :: operand :: rest, hshort => exact absurd rfl (hshort opcode operand rest)

theorem firstStray?_eq_none_iff {position : Nat} {invocations : List Invocation} :
    firstStray? position invocations = none ↔ ∀ i ∈ invocations, i.Canonical := by
  induction invocations generalizing position with
  | nil => simp [firstStray?]
  | cons i rest ih =>
    rw [List.forall_mem_cons, ← Invocation.strayOpcode?_eq_none_iff, firstStray?]
    cases hi : i.strayOpcode? with
    | none => simpa using ih
    | some op => simp

-- The search stops at the first invocation with a stray operand, and numbers it from `position` on.
theorem firstStray?_of_first {invocations : List Invocation} {k : Nat} {i : Invocation}
    {op : Opcode} (hk : invocations[k]? = some i) (hi : i.strayOpcode? = some op)
    (hbefore : ∀ j < k, ∀ earlier, invocations[j]? = some earlier → earlier.strayOpcode? = none)
    (position : Nat) :
    firstStray? position invocations = some (position + k, op, i.operand) := by
  induction invocations generalizing k position with
  | nil => simp at hk
  | cons first rest ih =>
    cases k with
    | zero =>
      rw [List.getElem?_cons_zero, Option.some.injEq] at hk
      rw [hk, firstStray?, hi]
      rfl
    | succ k =>
      have hfirst : first.strayOpcode? = none := hbefore 0 (by omega) first rfl
      have hrest := ih hk (fun j hj => hbefore (j + 1) (by omega)) (position + 1)
      rw [firstStray?, hfirst]
      simp only [hrest]
      congr 2
      omega

theorem ofBytes_of_odd {bytes : List UInt8} (h : bytes.length % 2 = 1) :
    ofBytes bytes = .error (.truncated bytes.length) :=
  if_pos h

theorem ofBytes_eq_ok_iff {bytes : List UInt8} {s : Script} :
    ofBytes bytes = .ok s ↔ s.toBytes = bytes ∧ s.Canonical := by
  unfold ofBytes
  by_cases hodd : bytes.length % 2 = 1
  · rw [if_pos hodd]
    constructor
    · intro h
      cases h
    · rintro ⟨rfl, -⟩
      rw [length_toBytes] at hodd
      omega
  · rw [if_neg hodd]
    have htoBytes : toBytes ⟨pairUp bytes⟩ = bytes := toBytes_pairUp (by omega)
    cases hstray : firstStray? 0 (pairUp bytes) with
    | none =>
      simp only [hstray]
      rw [firstStray?_eq_none_iff] at hstray
      constructor
      · intro h
        cases h
        exact ⟨htoBytes, hstray⟩
      · rintro ⟨h, -⟩
        exact congrArg Except.ok (toBytes_injective (htoBytes.trans h.symm))
    | some found =>
      simp only [hstray]
      constructor
      · intro h
        cases h
      · rintro ⟨rfl, hcanonical⟩
        rw [pairUp_toBytes, firstStray?_eq_none_iff.mpr hcanonical] at hstray
        cases hstray

-- The pair at a position is a known opcode that takes no operand, with an operand.
def StrayAt (bytes : List UInt8) (position : Nat) (op : Opcode) (operand : UInt8) : Prop :=
  bytes[2 * position]? = some op.byte ∧ bytes[2 * position + 1]? = some operand ∧
    op.takesOperand = false ∧ operand ≠ 0

theorem strayAt_iff {bytes : List UInt8} {position : Nat} {op : Opcode} {operand : UInt8} :
    StrayAt bytes position op operand ↔
      ∃ i, (pairUp bytes)[position]? = some i ∧ i.strayOpcode? = some op ∧ i.operand = operand := by
  constructor
  · rintro ⟨hopcode, hoperand, htakes, hne⟩
    exact ⟨⟨op.byte, operand⟩, (getElem?_pairUp bytes position _).mpr ⟨hopcode, hoperand⟩,
      Invocation.strayOpcode?_eq_some_iff.mpr ⟨rfl, htakes, hne⟩, rfl⟩
  · rintro ⟨i, hi, hstray, rfl⟩
    obtain ⟨hopcode, hoperand⟩ := (getElem?_pairUp bytes position i).mp hi
    obtain ⟨hbyte, htakes, hne⟩ := Invocation.strayOpcode?_eq_some_iff.mp hstray
    exact ⟨hbyte ▸ hopcode, hoperand, htakes, hne⟩

theorem ofBytes_of_strayAt {bytes : List UInt8} (heven : bytes.length % 2 = 0) {position : Nat}
    {op : Opcode} {operand : UInt8} (h : StrayAt bytes position op operand)
    (hfirst : ∀ earlier < position, ∀ op operand, ¬ StrayAt bytes earlier op operand) :
    ofBytes bytes = .error (.strayOperand position op operand) := by
  obtain ⟨i, hi, hstray, rfl⟩ := strayAt_iff.mp h
  have hbefore : ∀ j < position, ∀ earlier, (pairUp bytes)[j]? = some earlier →
      earlier.strayOpcode? = none := by
    intro j hj earlier hearlier
    rw [Option.eq_none_iff_forall_not_mem]
    intro other hother
    exact hfirst j hj other earlier.operand (strayAt_iff.mpr ⟨earlier, hearlier, hother, rfl⟩)
  have hfound := firstStray?_of_first hi hstray hbefore 0
  rw [Nat.zero_add] at hfound
  rw [ofBytes, if_neg (by omega)]
  simp only [hfound]

theorem exists_ofBytes_of_not_strayAt {bytes : List UInt8} (heven : bytes.length % 2 = 0)
    (h : ∀ position op operand, ¬ StrayAt bytes position op operand) :
    ∃ s, ofBytes bytes = .ok s ∧ s.toBytes = bytes := by
  have htoBytes : toBytes ⟨pairUp bytes⟩ = bytes := toBytes_pairUp heven
  refine ⟨⟨pairUp bytes⟩, ofBytes_eq_ok_iff.mpr ⟨htoBytes, ?_⟩, htoBytes⟩
  intro i hi
  obtain ⟨position, hposition⟩ := List.mem_iff_getElem?.mp hi
  rw [← Invocation.strayOpcode?_eq_none_iff, Option.eq_none_iff_forall_not_mem]
  intro op hop
  exact h position op i.operand (strayAt_iff.mpr ⟨i, hposition, hop, rfl⟩)

theorem ofBytes_toBytes_iff {s : Script} : ofBytes s.toBytes = .ok s ↔ s.Canonical := by
  rw [ofBytes_eq_ok_iff]
  exact and_iff_right rfl

theorem ofText_eq_ok_iff {text : String} {s : Script} :
    ofText text = .ok s ↔
      s.text.toList = '0' :: 'x' :: (Text.Hex.unmark text.toList).map Char.toLower ∧
        s.Canonical := by
  have hdecoded {bytes : List UInt8} :
      Text.Hex.decode (Text.Hex.unmark text.toList) = .ok bytes ↔
        (Text.Hex.unmark text.toList).map Char.toLower = Text.Hex.encode bytes :=
    Text.Hex.decode_eq_ok_iff
  unfold ofText Script.text
  rw [String.toList_ofList, List.cons.injEq, List.cons.injEq]
  simp only [true_and]
  constructor
  · intro h
    cases hd : Text.Hex.decode (Text.Hex.unmark text.toList) with
    | error error =>
      rw [hd] at h
      cases h
    | ok bytes =>
      simp only [hd] at h
      cases hs : ofBytes bytes with
      | error error =>
        rw [hs] at h
        cases h
      | ok script =>
        rw [hs] at h
        cases h
        obtain ⟨rfl, hcanonical⟩ := ofBytes_eq_ok_iff.mp hs
        exact ⟨(hdecoded.mp hd).symm, hcanonical⟩
  · rintro ⟨hlower, hcanonical⟩
    rw [hdecoded.mpr hlower.symm]
    simp only [ofBytes_toBytes_iff.mpr hcanonical]
    rfl

theorem text_injective {s r : Script} (h : s.text = r.text) : s = r := by
  have hencode : Text.Hex.encode s.toBytes = Text.Hex.encode r.toBytes := by
    simpa [Script.text] using congrArg String.toList h
  exact toBytes_injective (Text.Hex.encode_injective hencode)

theorem ofText_text_iff {s : Script} : ofText s.text = .ok s ↔ s.Canonical := by
  have hlower : s.text.toList =
      '0' :: 'x' :: (Text.Hex.unmark s.text.toList).map Char.toLower := by
    rw [Script.text, String.toList_ofList, Text.Hex.unmark, Text.Hex.map_toLower_encode]
  rw [ofText_eq_ok_iff]
  exact and_iff_right hlower

end Script

end Tariff

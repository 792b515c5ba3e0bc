import Tariff.Json.Number
import Tariff.Proofs.Text.Decimal

namespace Tariff

-- Only zero starts with a zero.
theorem Text.Decimal.head?_ofNat_ne {n : Nat} (h : 0 < n) : (ofNat n).head? ≠ some '0' := by
  have hdigit : ∀ d < 10, 0 < d → d.digitChar ≠ '0' := by decide
  rw [ofNat]
  induction n using Nat.strongRecOn with
  | _ n ih =>
    by_cases hlt : n < 10
    · rw [Nat.toDigits_of_lt_base hlt]
      simpa using hdigit n hlt h
    · have hrest := ih (n / 10) (by omega) (by omega)
      obtain ⟨c, cs, hcs⟩ := List.exists_cons_of_ne_nil (Nat.toDigits_ne_nil (n := n / 10) (b := 10))
      rw [Nat.toDigits_of_base_le (by decide) (by omega), hcs]
      rwa [hcs] at hrest

namespace Json.Numeral

open Text.Decimal (isDigit)

-- The literal that is written for a natural number.
def ofNat (n : Nat) : Numeral :=
  ⟨false, Text.Decimal.ofNat n, [], none⟩

-- What follows cannot be part of a literal.
def Ends (rest : List Char) : Prop :=
  ∀ c ∈ rest.head?, isDigit c = false ∧ c ≠ '.' ∧ c ≠ 'e' ∧ c ≠ 'E'

theorem ends_nil : Ends [] := by
  simp [Ends]

theorem Ends.readFraction_eq {rest : List Char} (h : Ends rest) :
    readFraction rest = some ([], rest) := by
  unfold readFraction
  split
  · exact absurd rfl (h '.' rfl).2.1
  · rfl

theorem Ends.readExponent_eq {rest : List Char} (h : Ends rest) :
    readExponent rest = some (none, rest) := by
  cases rest with
  | nil => rfl
  | cons c rest =>
    obtain ⟨-, -, hlower, hupper⟩ := h c rfl
    rw [readExponent, if_neg (by simp [hlower, hupper])]

theorem span_append {digits rest : List Char} (hdigits : ∀ c ∈ digits, isDigit c = true)
    (h : Ends rest) :
    (digits ++ rest).takeWhile isDigit = digits ∧ (digits ++ rest).dropWhile isDigit = rest := by
  rw [List.takeWhile_append_of_pos hdigits, List.dropWhile_append_of_pos hdigits]
  cases rest with
  | nil => simp
  | cons c rest =>
    have hc : isDigit c = false := (h c rfl).1
    simp [hc]

theorem read_ofNat (n : Nat) {rest : List Char} (h : Ends rest) :
    read (Text.Decimal.ofNat n ++ rest) = some (ofNat n, rest) := by
  have hdigits : ∀ c ∈ Text.Decimal.ofNat n, isDigit c = true :=
    fun c hc => Text.Decimal.isDigit_of_mem_ofNat hc
  have hne : Text.Decimal.ofNat n ≠ [] := Nat.toDigits_ne_nil
  have hminus : ∀ tail, Text.Decimal.ofNat n ++ rest ≠ '-' :: tail := by
    intro tail heq
    obtain ⟨c, cs, hcs⟩ := List.exists_cons_of_ne_nil hne
    rw [hcs, List.cons_append, List.cons.injEq] at heq
    have hc := hdigits c (by rw [hcs]; exact List.mem_cons_self)
    rw [heq.1] at hc
    exact absurd hc (by decide)
  have hzero : ((Text.Decimal.ofNat n).isEmpty ||
      ((Text.Decimal.ofNat n).head? == some '0' &&
        decide (1 < (Text.Decimal.ofNat n).length))) = false := by
    by_cases hn : n = 0
    · subst hn
      decide
    · have hhead := Text.Decimal.head?_ofNat_ne (Nat.pos_of_ne_zero hn)
      simp [hne, hhead]
  obtain ⟨htake, hdrop⟩ := span_append hdigits h
  rw [read.eq_2 _ hminus, readUnsigned]
  simp only [htake, hdrop, hzero, h.readFraction_eq, h.readExponent_eq]
  rfl

-- More digits make no number smaller.
theorem le_ofDigitChars (cs : List Char) (n : Nat) : n ≤ Nat.ofDigitChars 10 cs n := by
  induction cs generalizing n with
  | nil => exact Nat.le_refl n
  | cons c cs ih =>
    rw [Nat.ofDigitChars_cons]
    have hnext := ih (10 * n + (c.toNat - '0'.toNat))
    omega

theorem gather_of_lt {cs : List Char} {n : Nat} (h : Nat.ofDigitChars 10 cs n < Nat.pow 2 64) :
    gather n cs = (Nat.ofDigitChars 10 cs n, []) := by
  induction cs generalizing n with
  | nil => rfl
  | cons c cs ih =>
    rw [Nat.ofDigitChars_cons] at h ⊢
    have hnext := le_ofDigitChars cs (10 * n + (c.toNat - '0'.toNat))
    rw [gather, if_pos (Nat.lt_of_le_of_lt hnext h), ih h]

theorem gather_fst_lt (cs : List Char) {n : Nat} (h : n < Nat.pow 2 64) :
    (gather n cs).1 < Nat.pow 2 64 := by
  induction cs generalizing n with
  | nil => exact h
  | cons c cs ih =>
    rw [gather]
    split
    · rename_i hnext
      exact ih hnext
    · exact h

theorem value?_ofNat {n : Nat} (h : n < Nat.pow 2 64) : (ofNat n).value? = some (.natural n) := by
  have hvalue : Nat.ofDigitChars 10 (Text.Decimal.ofNat n) 0 = n :=
    Nat.ofDigitChars_toDigits (by decide) (by decide)
  have hgather : gather 0 (Text.Decimal.ofNat n) = (n, []) := by
    rw [gather_of_lt (by rwa [hvalue]), hvalue]
  simp only [value?, ofNat, hgather]
  rfl

theorem toDouble?_ne_natural (n : Numeral) (k : Nat) : n.toDouble? ≠ some (.natural k) := by
  have hsigned (f : Option Float) (negative : Bool) :
      f.map (signed negative) ≠ some (.natural k) := by
    cases f <;> simp [signed]
  unfold toDouble?
  simp only
  split
  · exact hsigned _ _
  · split
    · split <;> simp [signed]
    · exact hsigned _ _

theorem lt_of_value?_eq_natural {n : Numeral} {k : Nat} (h : n.value? = some (.natural k)) :
    k < Nat.pow 2 64 := by
  have hgather : (gather 0 n.whole).1 < Nat.pow 2 64 := gather_fst_lt n.whole (by decide)
  unfold value? at h
  simp only at h
  split at h
  · split at h
    · cases h
      exact hgather
    · split at h <;> cases h
  · exact absurd h (toDouble?_ne_natural n k)

end Json.Numeral

end Tariff

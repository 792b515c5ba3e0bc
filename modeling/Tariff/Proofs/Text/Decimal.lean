import Tariff.Amount
import Tariff.Proofs.Text.Blank

namespace Tariff.Text.Decimal

theorem isDigit_iff {c : Char} : isDigit c = true ↔ 48 ≤ c.toNat ∧ c.toNat ≤ 57 := by
  rw [isDigit, Bool.and_eq_true, decide_eq_true_eq, decide_eq_true_eq]
  exact Iff.rfl

theorem isDigit_of_mem_ofNat {n : Nat} {c : Char} (h : c ∈ ofNat n) : isDigit c = true := by
  have hdigit : c.isDigit = true := Nat.isDigit_of_mem_toDigits (by decide) (by decide) h
  rw [Char.isDigit, Bool.and_eq_true, decide_eq_true_eq, decide_eq_true_eq] at hdigit
  exact isDigit_iff.mpr hdigit

theorem isBlank_of_isDigit {c : Char} (h : isDigit c = true) : isBlank c = false := by
  rw [isDigit_iff] at h
  simp only [isBlank, Bool.or_eq_false_iff, Bool.and_eq_false_iff, decide_eq_false_iff_not,
    beq_eq_false_iff_ne]
  omega

theorem toNat?_ofNat (n : Nat) : toNat? (ofNat n) = some n := by
  have hall : (ofNat n).all isDigit = true :=
    List.all_eq_true.mpr fun c hc => isDigit_of_mem_ofNat hc
  rw [toNat?, if_pos hall, ofNat, Nat.ofDigitChars_toDigits (by decide) (by decide)]

theorem unsigned?_ofNat {bound n : Nat} (h : n < bound) : unsigned? bound (ofNat n) = some n := by
  have hne : ofNat n ≠ [] := Nat.toDigits_ne_nil
  have hplus : ∀ rest, ofNat n ≠ '+' :: rest := by
    intro rest heq
    have hdigit : isDigit '+' = true := isDigit_of_mem_ofNat (n := n) (heq ▸ List.mem_cons_self)
    exact absurd hdigit (by decide)
  unfold unsigned?
  split
  · rename_i rest heq
    exact absurd heq (hplus rest)
  · rw [if_neg (by simpa using hne), toNat?_ofNat]
    simpa using h

theorem lt_of_unsigned? {bound n : Nat} {cs : List Char} (h : unsigned? bound cs = some n) :
    n < bound := by
  have hdigits (digits : List Char)
      (hfound : (if digits.isEmpty then none else (toNat? digits).filter (· < bound)) = some n) :
      n < bound := by
    split at hfound
    · cases hfound
    · exact of_decide_eq_true (Option.filter_eq_some_iff.mp hfound).2
  exact hdigits _ h

end Tariff.Text.Decimal

namespace Tariff.Amount

-- Digits are not blank, and none of them is the second character of a hexadecimal marker.
theorem ofDigits?_of_isDigit {before cs after : List Char}
    (hbefore : ∀ c ∈ before, Text.isBlank c = true)
    (hdigit : ∀ c ∈ cs, Text.Decimal.isDigit c = true)
    (hafter : ∀ c ∈ after, Text.isBlank c = true) :
    ofDigits? (before ++ cs ++ after) = (Text.Decimal.toNat? cs).bind ofNat? := by
  have htrim : Text.trim (before ++ cs ++ after) = cs :=
    Text.trim_of_word hbefore (fun c hc => Text.Decimal.isBlank_of_isDigit (hdigit c hc)) hafter
  have hmarker {mark : Char} (hmark : Text.Decimal.isDigit mark = false) (rest : List Char) :
      cs ≠ '0' :: mark :: rest := by
    intro heq
    have hmem : mark ∈ cs := by simp [heq]
    rw [hdigit mark hmem] at hmark
    cases hmark
  unfold ofDigits?
  rw [htrim]
  split
  · rename_i rest
    exact absurd rfl (hmarker (by decide) rest)
  · rename_i rest
    exact absurd rfl (hmarker (by decide) rest)
  · rfl

theorem ofDigits?_digits (a : Amount) : ofDigits? a.digits = some a := by
  have hread := ofDigits?_of_isDigit (List.forall_mem_nil _)
    (fun c (hc : c ∈ a.digits) => Text.Decimal.isDigit_of_mem_ofNat hc) (List.forall_mem_nil _)
  rw [List.nil_append, List.append_nil] at hread
  rw [hread, digits, Text.Decimal.toNat?_ofNat, Option.bind_some, ofNat?_eq_some_iff]

end Tariff.Amount

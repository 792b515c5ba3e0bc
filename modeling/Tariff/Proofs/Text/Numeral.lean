import Mathlib.Data.List.Basic
import Mathlib.Data.Nat.Digits.Defs
import Tariff.Proofs.Text.Decimal
import Tariff.Proofs.Text.Hex

namespace Tariff

namespace Text

namespace Numeral

-- The place of a character in the row of digits, whatever its case. What is no digit has the place
-- behind the last one.
def digitValue (c : Char) : Nat :=
  "0123456789abcdef".toList.idxOf c.toLower

-- Digits to a base, one at least.
def IsNumeral (base : Nat) (cs : List Char) : Prop :=
  cs ≠ [] ∧ ∀ c ∈ cs, digitValue c < base

instance (base : Nat) (cs : List Char) : Decidable (IsNumeral base cs) :=
  decidable_of_iff (cs.isEmpty = false ∧ cs.all (decide <| digitValue · < base) = true) <| by
    simp [IsNumeral]

-- The last digit counts ones, and each further to the left counts for `base` times as much.
def value (base : Nat) (cs : List Char) : Nat :=
  Nat.ofDigits base (cs.reverse.map digitValue)

theorem value_eq_foldl (base : Nat) (cs : List Char) :
    value base cs = cs.foldl (fun n c => base * n + digitValue c) 0 := by
  rw [value, Nat.ofDigits_eq_foldr, List.map_reverse, List.foldr_reverse, List.foldl_map]
  congr 1
  funext n c
  exact Nat.add_comm _ _

theorem value_lt {base : Nat} {cs : List Char} (hbase : 1 < base) (h : IsNumeral base cs) :
    value base cs < base ^ cs.length := by
  have hdigits : ∀ d ∈ cs.reverse.map digitValue, d < base := by
    intro d hd
    obtain ⟨c, hc, rfl⟩ := List.mem_map.mp hd
    exact h.2 c (List.mem_reverse.mp hc)
  have hlt := Nat.ofDigits_lt_base_pow_length hbase hdigits
  rwa [List.length_map, List.length_reverse] at hlt

-- The row of digits is the one that is used for writing.
theorem toLower_of_lt {c : Char} (h : digitValue c < 16) :
    c.toLower = Hex.digit (digitValue c) := by
  have hrow : ∀ d < 16, "0123456789abcdef".toList[d]? = some (Hex.digit d) := by decide
  have hplace : "0123456789abcdef".toList[digitValue c]? = some c.toLower :=
    List.getElem?_eq_some_iff.mpr ⟨h, List.getElem_idxOf h⟩
  exact Option.some.inj (hplace.symm.trans (hrow _ h))

theorem value?_of_lt {c : Char} (h : digitValue c < 16) : Hex.value? c = some (digitValue c) :=
  Hex.value?_eq_some_iff.mpr ⟨h, toLower_of_lt h⟩

-- All digits are among the first 128 characters, and these can be looked at one by one.
theorem forall_of_ascii {P : Char → Prop} (h : ∀ n < 128, P (Char.ofNat n)) {c : Char}
    (hc : c.toNat < 128) : P c := by
  have hp := h c.toNat hc
  rwa [Char.ofNat_toNat] at hp

theorem toNat_lt_of_lt {c : Char} (h : digitValue c < 16) : c.toNat < 128 :=
  Hex.toNat_lt_of_value? (value?_of_lt h)

theorem isBlank_of_lt {c : Char} (h : digitValue c < 16) : isBlank c = false :=
  forall_of_ascii (P := fun c => digitValue c < 16 → isBlank c = false) (by decide)
    (toNat_lt_of_lt h) h

theorem lt_ten_of_isDigit {c : Char} (h : Decimal.isDigit c = true) : digitValue c < 10 := by
  have hascii : c.toNat < 128 := by
    rw [Decimal.isDigit_iff] at h
    omega
  exact forall_of_ascii (P := fun c => Decimal.isDigit c = true → digitValue c < 10) (by decide)
    hascii h

theorem isDigit_of_lt_ten {c : Char} (h : digitValue c < 10) :
    Decimal.isDigit c = true ∧ digitValue c = c.toNat - '0'.toNat :=
  forall_of_ascii
    (P := fun c => digitValue c < 10 →
      Decimal.isDigit c = true ∧ digitValue c = c.toNat - '0'.toNat)
    (by decide) (toNat_lt_of_lt (by omega)) h

theorem decimal_toNat? {cs : List Char} (h : IsNumeral 10 cs) :
    Decimal.toNat? cs = some (value 10 cs) := by
  have hall : cs.all Decimal.isDigit = true :=
    List.all_eq_true.mpr fun c hc => (isDigit_of_lt_ten (h.2 c hc)).1
  have hfold : cs.foldl (fun n c => 10 * n + (c.toNat - '0'.toNat)) 0 =
      cs.foldl (fun n c => 10 * n + digitValue c) 0 := by
    apply List.foldl_ext
    intro n c hc
    rw [(isDigit_of_lt_ten (h.2 c hc)).2]
  rw [Decimal.toNat?, if_pos hall, value_eq_foldl, Nat.ofDigitChars_eq_foldl, hfold]

theorem hex_toNat? {cs : List Char} (h : IsNumeral 16 cs) :
    Hex.toNat? cs = some (value 16 cs) := by
  have hmapM : ∀ ds : List Char, (∀ c ∈ ds, digitValue c < 16) →
      ds.mapM Hex.value? = some (ds.map digitValue) := by
    intro ds hds
    induction ds with
    | nil => rfl
    | cons c ds ih =>
      rw [List.forall_mem_cons] at hds
      rw [List.mapM_cons, value?_of_lt hds.1, ih hds.2]
      rfl
  rw [Hex.toNat?, hmapM cs h.2, Option.map_some, List.foldl_map, value_eq_foldl]

-- No digit is an `x`, so no second marker can be found in front of digits.
theorem unmark_of_isNumeral {cs : List Char} (h : IsNumeral 16 cs) : Hex.unmark cs = cs := by
  unfold Hex.unmark
  split
  · rename_i rest
    have hx : digitValue 'x' < 16 := h.2 'x' (by simp)
    exact absurd hx (by decide)
  · rfl

end Numeral

open Numeral (IsNumeral value)

-- A text that is a word, but for the blanks around it.
def Padded (word : List Char) (s : String) : Prop :=
  ∃ before after, s.toList = before ++ word ++ after ∧ (∀ c ∈ before, isBlank c = true) ∧
    ∀ c ∈ after, isBlank c = true

inductive WritesDecimal (s : String) : Nat → Prop
  | intro {digits : List Char} (hdigits : IsNumeral 10 digits) (hpadded : Padded digits s) :
    WritesDecimal s (value 10 digits)

-- The marker has either case too, and there is room for 64 digits.
inductive WritesHexadecimal (s : String) : Nat → Prop
  | intro {mark : Char} {digits : List Char} (hmark : mark = 'x' ∨ mark = 'X')
    (hdigits : IsNumeral 16 digits) (hlength : digits.length ≤ 64)
    (hpadded : Padded ('0' :: mark :: digits) s) : WritesHexadecimal s (value 16 digits)

end Text

namespace Amount

open Text (Padded WritesDecimal WritesHexadecimal)
open Text.Numeral (IsNumeral value)

theorem ofText?_of_decimal {s : String} {n : Nat} (h : WritesDecimal s n) :
    ofText? s = ofNat? n := by
  obtain @⟨digits, hdigits, before, after, hs, hbefore, hafter⟩ := h
  rw [ofText?, hs, ofDigits?_of_isDigit hbefore _ hafter, Text.Numeral.decimal_toNat? hdigits]
  · rfl
  · intro c hc
    exact (Text.Numeral.isDigit_of_lt_ten (hdigits.2 c hc)).1

theorem value_sixteen_lt {digits : List Char} (hdigits : IsNumeral 16 digits)
    (hlength : digits.length ≤ 64) : value 16 digits < Nat.pow 2 256 :=
  calc value 16 digits < 16 ^ digits.length := Text.Numeral.value_lt (by decide) hdigits
    _ ≤ 16 ^ 64 := Nat.pow_le_pow_right (by decide) hlength
    _ = Nat.pow 2 256 := by decide

theorem ofDigits?_of_marked {mark : Char} {before digits after : List Char}
    (hmark : mark = 'x' ∨ mark = 'X') (hdigits : IsNumeral 16 digits)
    (hbefore : ∀ c ∈ before, Text.isBlank c = true) (hafter : ∀ c ∈ after, Text.isBlank c = true) :
    ofDigits? (before ++ '0' :: mark :: digits ++ after) = ofHex? digits := by
  have hword : ∀ c ∈ '0' :: mark :: digits, Text.isBlank c = false := by
    have hblank : Text.isBlank mark = false := by
      obtain rfl | rfl := hmark <;> decide
    simp only [List.forall_mem_cons]
    exact ⟨by decide, hblank, fun c hc => Text.Numeral.isBlank_of_lt (hdigits.2 c hc)⟩
  have hne : digits.isEmpty = false := by
    rw [List.isEmpty_eq_false_iff]
    exact hdigits.1
  rw [ofDigits?, Text.trim_of_word hbefore hword hafter]
  obtain rfl | rfl := hmark
  · simp only [hne]
    rfl
  · simp only [hne]
    rfl

theorem ofText?_of_hexadecimal {s : String} {n : Nat} (h : WritesHexadecimal s n) :
    ∃ hlt : n < Nat.pow 2 256, ofText? s = some ⟨n, hlt⟩ := by
  obtain @⟨mark, digits, hmark, hdigits, hlength, before, after, hs, hbefore, hafter⟩ := h
  refine ⟨value_sixteen_lt hdigits hlength, ?_⟩
  rw [ofText?, hs, ofDigits?_of_marked hmark hdigits hbefore hafter, ofHex?,
    Text.Numeral.unmark_of_isNumeral hdigits]
  simp only [if_pos hlength, Text.Numeral.hex_toNat? hdigits, Option.bind_some]
  exact ofNat?_eq_some_iff.mpr rfl

theorem writesDecimal_text (a : Amount) : WritesDecimal a.text a.toNat := by
  have hdigits : IsNumeral 10 a.digits := by
    refine ⟨Nat.toDigits_ne_nil, ?_⟩
    intro c hc
    exact Text.Numeral.lt_ten_of_isDigit (Text.Decimal.isDigit_of_mem_ofNat hc)
  have hvalue : value 10 a.digits = a.toNat := by
    have hread := Text.Decimal.toNat?_ofNat a.toNat
    exact Option.some.inj ((Text.Numeral.decimal_toNat? hdigits).symm.trans hread)
  rw [← hvalue]
  exact .intro hdigits ⟨[], [], by simp [text], List.forall_mem_nil _, List.forall_mem_nil _⟩

-- A number that is too large for an amount is refused, not cut short.
theorem numerals_read_exactly :
    (∀ s n, WritesDecimal s n →
      (∀ hlt : n < Nat.pow 2 256, ofText? s = some ⟨n, hlt⟩) ∧
      (Nat.pow 2 256 ≤ n → ofText? s = none)) ∧
    (∀ s n, WritesHexadecimal s n → ∃ hlt : n < Nat.pow 2 256, ofText? s = some ⟨n, hlt⟩) ∧
    (∀ a : Amount, WritesDecimal a.text a.toNat ∧ ofText? a.text = some a) ∧
    ∀ s t n, WritesDecimal s n → WritesHexadecimal t n → ofText? s = ofText? t := by
  refine ⟨?_, fun s n => ofText?_of_hexadecimal, ?_, ?_⟩
  · intro s n h
    rw [ofText?_of_decimal h]
    exact ⟨fun hlt => ofNat?_eq_some_iff.mpr rfl, ofNat?_eq_none_iff.mpr⟩
  · intro a
    refine ⟨a.writesDecimal_text, ?_⟩
    rw [ofText?_of_decimal a.writesDecimal_text, ofNat?_eq_some_iff]
  · intro s t n hs ht
    obtain ⟨hlt, hread⟩ := ofText?_of_hexadecimal ht
    rw [ofText?_of_decimal hs, hread, ofNat?_eq_some_iff]

-- The smallest number that is no amount.
def beyondAmounts : String :=
  "115792089237316195423570985008687907853269984665640564039457584007913129639936"

theorem numerals_read_exactly_padded :
    ofText? "\u3000 00255\n" = some ⟨255, by decide⟩ ∧ ofText? beyondAmounts = none ∧
      ofText? "\t0X0fF " = some ⟨255, by decide⟩ ∧
      ofText? "\u3000 00255\n" = ofText? "\t0X0fF " := by
  obtain ⟨hdecimal, hhexadecimal, -, hagree⟩ := numerals_read_exactly
  have hpadded : WritesDecimal "\u3000 00255\n" (value 10 "00255".toList) :=
    .intro (by decide) ⟨"\u3000 ".toList, "\n".toList, by decide, List.all_eq_true.mp (by decide),
      List.all_eq_true.mp (by decide)⟩
  have hbeyond : WritesDecimal beyondAmounts (value 10 beyondAmounts.toList) :=
    .intro (by decide +kernel) ⟨[], [], by simp, List.forall_mem_nil _, List.forall_mem_nil _⟩
  have hmarked : WritesHexadecimal "\t0X0fF " (value 16 "0fF".toList) :=
    .intro (.inr rfl) (by decide) (by decide)
      ⟨"\t".toList, " ".toList, by decide, List.all_eq_true.mp (by decide),
        List.all_eq_true.mp (by decide)⟩
  obtain ⟨hlt, hread⟩ := hhexadecimal _ _ hmarked
  exact ⟨(hdecimal _ _ hpadded).1 (by decide), (hdecimal _ _ hbeyond).2 (by decide +kernel), hread,
    hagree _ _ _ hpadded hmarked⟩

end Amount

end Tariff

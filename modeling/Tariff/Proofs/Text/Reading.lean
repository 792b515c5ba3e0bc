import Tariff.Assembly
import Tariff.Document.Basic
import Tariff.Proofs.Text.Numeral

namespace Tariff

namespace Text

open Numeral (digitValue IsNumeral value)

theorem exists_append_trim (cs : List Char) :
    ∃ before after, cs = before ++ trim cs ++ after ∧ (∀ c ∈ before, isBlank c = true) ∧
      ∀ c ∈ after, isBlank c = true := by
  have hleft : cs = cs.takeWhile isBlank ++ trimLeft cs :=
    List.takeWhile_append_dropWhile.symm
  have hright : (trimLeft cs).reverse =
      (trimLeft cs).reverse.takeWhile isBlank ++ trimLeft (trimLeft cs).reverse :=
    List.takeWhile_append_dropWhile.symm
  refine ⟨cs.takeWhile isBlank, ((trimLeft cs).reverse.takeWhile isBlank).reverse, ?_, ?_, ?_⟩
  · rw [List.append_assoc, trim, ← List.reverse_append, ← hright, List.reverse_reverse]
    exact hleft
  · intro c hc
    exact List.all_eq_true.mp List.all_takeWhile c hc
  · intro c hc
    exact List.all_eq_true.mp List.all_takeWhile c (List.mem_reverse.mp hc)

theorem padded_trim (s : String) : Padded (trim s.toList) s :=
  exists_append_trim s.toList

theorem Padded.trim_eq {word : List Char} {s : String} (h : Padded word s)
    (hword : ∀ c ∈ word, isBlank c = false) : trim s.toList = word := by
  obtain ⟨before, after, hs, hbefore, hafter⟩ := h
  rw [hs, trim_of_word hbefore hword hafter]

-- A text of blanks is what is left of nothing.
theorem trim_eq_nil_iff {cs : List Char} : trim cs = [] ↔ ∀ c ∈ cs, isBlank c = true := by
  constructor
  · intro h
    obtain ⟨before, after, hcs, hbefore, hafter⟩ := exists_append_trim cs
    rw [h, List.append_nil] at hcs
    intro c hc
    rw [hcs, List.mem_append] at hc
    exact hc.elim (hbefore c) (hafter c)
  · intro h
    have htrim := trim_of_word h (List.forall_mem_nil _) (List.forall_mem_nil _)
    rwa [List.append_nil, List.append_nil] at htrim

namespace Numeral

theorem digitValue_of_value? {c : Char} {d : Nat} (h : Hex.value? c = some d) :
    digitValue c = d := by
  have hplace : ∀ e < 16, "0123456789abcdef".toList.idxOf (Hex.digit e) = e := by decide
  obtain ⟨hd, hlower⟩ := Hex.value?_eq_some_iff.mp h
  rw [digitValue, hlower, hplace d hd]

theorem decimal_toNat?_eq_some_iff {cs : List Char} {n : Nat} :
    Decimal.toNat? cs = some n ↔ (∀ c ∈ cs, digitValue c < 10) ∧ value 10 cs = n := by
  by_cases hempty : cs = []
  · subst hempty
    simp [Decimal.toNat?, value]
  constructor
  · intro h
    have hall : cs.all Decimal.isDigit = true := by
      by_contra hnot
      rw [Decimal.toNat?, if_neg hnot] at h
      cases h
    have hdigits : ∀ c ∈ cs, digitValue c < 10 := fun c hc =>
      lt_ten_of_isDigit (List.all_eq_true.mp hall c hc)
    rw [decimal_toNat? ⟨hempty, hdigits⟩] at h
    exact ⟨hdigits, Option.some.inj h⟩
  · rintro ⟨hdigits, rfl⟩
    exact decimal_toNat? ⟨hempty, hdigits⟩

theorem lt_of_mapM_value? {cs : List Char} {ds : List Nat} (h : cs.mapM Hex.value? = some ds) :
    ∀ c ∈ cs, digitValue c < 16 := by
  induction cs generalizing ds with
  | nil => exact List.forall_mem_nil _
  | cons c cs ih =>
    rw [List.mapM_cons] at h
    obtain ⟨d, hc, h⟩ := Option.bind_eq_some_iff.mp h
    obtain ⟨rest, hrest, -⟩ := Option.bind_eq_some_iff.mp h
    refine List.forall_mem_cons.mpr ⟨?_, ih hrest⟩
    rw [digitValue_of_value? hc]
    exact (Hex.value?_eq_some_iff.mp hc).1

theorem hex_toNat?_eq_some_iff {cs : List Char} {n : Nat} :
    Hex.toNat? cs = some n ↔ (∀ c ∈ cs, digitValue c < 16) ∧ value 16 cs = n := by
  by_cases hempty : cs = []
  · subst hempty
    simp [Hex.toNat?, value]
  constructor
  · intro h
    have hdigits : ∀ c ∈ cs, digitValue c < 16 := by
      rw [Hex.toNat?, Option.map_eq_some_iff] at h
      obtain ⟨ds, hds, -⟩ := h
      exact lt_of_mapM_value? hds
    rw [hex_toNat? ⟨hempty, hdigits⟩] at h
    exact ⟨hdigits, Option.some.inj h⟩
  · rintro ⟨hdigits, rfl⟩
    exact hex_toNat? ⟨hempty, hdigits⟩

end Numeral

theorem isBlank_marker {mark : Char} (hmark : mark = 'x' ∨ mark = 'X') :
    isBlank mark = false := by
  obtain rfl | rfl := hmark <;> decide

-- The digits are all that is left between the blanks.
theorem writesDecimal_iff {s : String} {n : Nat} :
    WritesDecimal s n ↔ IsNumeral 10 (trim s.toList) ∧ value 10 (trim s.toList) = n := by
  constructor
  · rintro ⟨hdigits, hpadded⟩
    rw [hpadded.trim_eq fun c hc =>
      Numeral.isBlank_of_lt (Nat.lt_trans (hdigits.2 c hc) (by decide))]
    exact ⟨hdigits, rfl⟩
  · rintro ⟨hdigits, rfl⟩
    exact .intro hdigits (padded_trim s)

theorem writesHexadecimal_iff {s : String} {n : Nat} :
    WritesHexadecimal s n ↔
      ∃ mark digits, (mark = 'x' ∨ mark = 'X') ∧ trim s.toList = '0' :: mark :: digits ∧
        IsNumeral 16 digits ∧ digits.length ≤ 64 ∧ value 16 digits = n := by
  constructor
  · rintro @⟨mark, digits, hmark, hdigits, hlength, hpadded⟩
    refine ⟨mark, digits, hmark, hpadded.trim_eq ?_, hdigits, hlength, rfl⟩
    simp only [List.forall_mem_cons]
    exact ⟨by decide, isBlank_marker hmark, fun c hc => Numeral.isBlank_of_lt (hdigits.2 c hc)⟩
  · rintro ⟨mark, digits, hmark, htrim, hdigits, hlength, rfl⟩
    exact .intro hmark hdigits hlength (htrim ▸ padded_trim s)

-- What is read and is no numeral. Blanks alone are taken for zero. A second marker, in lower case,
-- is dropped, and behind it the digits may be missing.
inductive LetThrough (s : String) : Nat → Prop
  | blank (h : ∀ c ∈ s.toList, isBlank c = true) : LetThrough s 0
  | markedTwice {mark : Char} {digits : List Char} (hmark : mark = 'x' ∨ mark = 'X')
    (hdigits : ∀ c ∈ digits, digitValue c < 16) (hlength : digits.length ≤ 64)
    (hpadded : Padded ('0' :: mark :: '0' :: 'x' :: digits) s) : LetThrough s (value 16 digits)

end Text

namespace Amount

open Text (Padded WritesDecimal WritesHexadecimal LetThrough trim)
open Text.Numeral (digitValue IsNumeral value)

theorem ofHex?_eq_some_iff {cs : List Char} {v : Amount} :
    ofHex? cs = some v ↔ (Text.Hex.unmark cs).length ≤ 64 ∧
      (∀ c ∈ Text.Hex.unmark cs, digitValue c < 16) ∧
      value 16 (Text.Hex.unmark cs) = v.toNat := by
  simp only [ofHex?]
  by_cases hlength : (Text.Hex.unmark cs).length ≤ 64
  · rw [if_pos hlength, Option.bind_eq_some_iff]
    constructor
    · rintro ⟨n, hn, hv⟩
      obtain ⟨hdigits, rfl⟩ := Text.Numeral.hex_toNat?_eq_some_iff.mp hn
      exact ⟨hlength, hdigits, (ofNat?_eq_some_iff.mp hv).symm⟩
    · rintro ⟨-, hdigits, hv⟩
      exact ⟨_, Text.Numeral.hex_toNat?_eq_some_iff.mpr ⟨hdigits, rfl⟩,
        ofNat?_eq_some_iff.mpr hv.symm⟩
  · rw [if_neg hlength]
    simp [hlength]

-- Behind the marker stand the digits, or a second marker and the digits.
theorem marked_of_ofHex? {s : String} {mark : Char} {rest : List Char} {v : Amount}
    (hmark : mark = 'x' ∨ mark = 'X') (htrim : trim s.toList = '0' :: mark :: rest)
    (hrest : rest ≠ []) (h : ofHex? rest = some v) :
    WritesHexadecimal s v.toNat ∨ LetThrough s v.toNat := by
  have hpadded : Padded ('0' :: mark :: rest) s := htrim ▸ Text.padded_trim s
  obtain ⟨hlength, hdigits, hv⟩ := ofHex?_eq_some_iff.mp h
  rw [← hv]
  revert hlength hdigits
  unfold Text.Hex.unmark
  split
  · rename_i digits
    intro hlength hdigits
    exact .inr (.markedTwice hmark hdigits hlength hpadded)
  · intro hlength hdigits
    exact .inl (.intro hmark ⟨hrest, hdigits⟩ hlength hpadded)

theorem writes_of_ofText? {s : String} {v : Amount} (h : ofText? s = some v) :
    WritesDecimal s v.toNat ∨ WritesHexadecimal s v.toNat ∨ LetThrough s v.toNat := by
  rw [ofText?, ofDigits?] at h
  split at h
  · rename_i rest htrim
    split at h
    · cases h
    · rename_i hrest
      exact .inr (marked_of_ofHex? (.inl rfl) htrim (by simpa using hrest) h)
  · rename_i rest htrim
    split at h
    · cases h
    · rename_i hrest
      exact .inr (marked_of_ofHex? (.inr rfl) htrim (by simpa using hrest) h)
  · obtain ⟨n, hn, hv⟩ := Option.bind_eq_some_iff.mp h
    obtain ⟨hdigits, rfl⟩ := Text.Numeral.decimal_toNat?_eq_some_iff.mp hn
    rw [ofNat?_eq_some_iff] at hv
    rw [hv]
    by_cases hempty : trim s.toList = []
    · rw [hempty]
      exact .inr (.inr (.blank (Text.trim_eq_nil_iff.mp hempty)))
    · exact .inl (Text.writesDecimal_iff.mpr ⟨⟨hempty, hdigits⟩, rfl⟩)

theorem ofText?_of_letThrough {s : String} {v : Amount} (h : LetThrough s v.toNat) :
    ofText? s = some v := by
  generalize hn : v.toNat = n at h
  cases h with
  | blank hblank =>
    rw [ofText?, ofDigits?, Text.trim_eq_nil_iff.mpr hblank]
    exact ofNat?_eq_some_iff.mpr hn
  | @markedTwice mark digits hmark hdigits hlength hpadded =>
    have htrim : trim s.toList = '0' :: mark :: '0' :: 'x' :: digits := by
      apply hpadded.trim_eq
      simp only [List.forall_mem_cons]
      exact ⟨by decide, Text.isBlank_marker hmark, by decide, by decide,
        fun c hc => Text.Numeral.isBlank_of_lt (hdigits c hc)⟩
    have hread : ofHex? ('0' :: 'x' :: digits) = some v :=
      ofHex?_eq_some_iff.mpr ⟨hlength, hdigits, hn.symm⟩
    rw [ofText?, ofDigits?, htrim]
    obtain rfl | rfl := hmark <;> exact hread

theorem ofText?_eq_some_iff {s : String} {v : Amount} :
    ofText? s = some v ↔
      WritesDecimal s v.toNat ∨ WritesHexadecimal s v.toNat ∨ LetThrough s v.toNat := by
  refine ⟨writes_of_ofText?, ?_⟩
  rintro (h | h | h)
  · rw [ofText?_of_decimal h, ofNat?_eq_some_iff]
  · exact (ofText?_of_hexadecimal h).2
  · exact ofText?_of_letThrough h

-- Only blanks are read without a digit: a marker starts with one.
theorem exists_digit_of_ofText? {s : String} {v : Amount} (h : ofText? s = some v) :
    (∃ c ∈ s.toList, digitValue c < 10) ∨ (∀ c ∈ s.toList, Text.isBlank c = true) ∧ v = zero := by
  have hmem {word : List Char} (hpadded : Padded word s) {c : Char} (hc : c ∈ word) :
      c ∈ s.toList := by
    obtain ⟨before, after, hs, -, -⟩ := hpadded
    simp [hs, hc]
  have hzero {mark : Char} {rest : List Char} (hpadded : Padded ('0' :: mark :: rest) s) :
      ∃ c ∈ s.toList, digitValue c < 10 :=
    ⟨'0', hmem hpadded List.mem_cons_self, by decide⟩
  obtain h | h | h := writes_of_ofText? h
  · obtain ⟨⟨hne, hdigits⟩, -⟩ := Text.writesDecimal_iff.mp h
    obtain ⟨c, rest, hcs⟩ := List.exists_cons_of_ne_nil hne
    have hc : c ∈ trim s.toList := hcs ▸ List.mem_cons_self
    exact .inl ⟨c, hmem (Text.padded_trim s) hc, hdigits c hc⟩
  · obtain ⟨mark, digits, -, htrim, -⟩ := Text.writesHexadecimal_iff.mp h
    exact .inl (hzero (htrim ▸ Text.padded_trim s))
  · generalize hn : v.toNat = n at h
    cases h with
    | blank hblank => exact .inr ⟨hblank, Amount.ext hn⟩
    | markedTwice hmark hdigits hlength hpadded => exact .inl (hzero hpadded)

end Amount

namespace Context

theorem unitsOf_eq_ok_iff {s : String} {v : Amount} :
    unitsOf (some s) = .ok v ↔ Amount.ofText? s = some v := by
  rw [unitsOf]
  cases Amount.ofText? s <;> simp

end Context

namespace Document

theorem amount_text_eq_ok_iff {s : String} {v : Amount} :
    Literal.amount (.text s) = .ok v ↔ Amount.ofText? s = some v := by
  rw [Literal.amount, Literal.amount?]
  cases Amount.ofText? s <;> simp

end Document

namespace Assembly

theorem readConstant_eq_ok_iff {word : List Char} {v : Amount} :
    readConstant [word] = .ok (.constant v) ↔ Amount.ofText? (String.ofList word) = some v := by
  rw [readConstant, Amount.ofText?, String.toList_ofList]
  cases Amount.ofDigits? word <;> simp

end Assembly

namespace Amount

open Text (Padded WritesDecimal WritesHexadecimal LetThrough trim isBlank)
open Text.Numeral (digitValue IsNumeral)

def Reads (s : String) (v : Amount) : Prop :=
  WritesDecimal s v.toNat ∨ WritesHexadecimal s v.toNat ∨ LetThrough s v.toNat

-- The same texts are read as units, in documents and as constants of assembly text.
theorem numerals_and_two_more_are_read (s : String) (v : Amount) :
    (ofText? s = some v ↔ Reads s v) ∧
    (Context.unitsOf (some s) = .ok v ↔ Reads s v) ∧
    (Document.Literal.amount (.text s) = .ok v ↔ Reads s v) ∧
    (Assembly.readConstant [s.toList] = .ok (.constant v) ↔ Reads s v) ∧
    -- what is not blank and has no second marker is a numeral and nothing else
    (ofText? s = some v → (∃ c ∈ s.toList, isBlank c = false) →
      (∀ mark digits, ¬Padded ('0' :: mark :: '0' :: 'x' :: digits) s) →
      WritesDecimal s v.toNat ∨ WritesHexadecimal s v.toNat) ∧
    -- and only what is blank is read without a digit
    (ofText? s = some v → (∀ c ∈ s.toList, ¬digitValue c < 10) →
      (∀ c ∈ s.toList, isBlank c = true) ∧ v = zero) := by
  have hreads : ofText? s = some v ↔ Reads s v := ofText?_eq_some_iff
  refine ⟨hreads, Context.unitsOf_eq_ok_iff.trans hreads,
    Document.amount_text_eq_ok_iff.trans hreads, ?_, ?_, ?_⟩
  · rw [Assembly.readConstant_eq_ok_iff, String.ofList_toList]
    exact hreads
  · rintro h ⟨c, hc, hblank⟩ hunmarked
    obtain hdecimal | hhexadecimal | hletThrough := hreads.mp h
    · exact .inl hdecimal
    · exact .inr hhexadecimal
    · generalize v.toNat = n at hletThrough
      cases hletThrough with
      | blank hall =>
        rw [hall c hc] at hblank
        cases hblank
      | markedTwice hmark hdigits hlength hpadded => exact absurd hpadded (hunmarked _ _)
  · intro h hnone
    obtain ⟨c, hc, hdigit⟩ | hblank := exists_digit_of_ofText? h
    · exact absurd hdigit (hnone c hc)
    · exact hblank

theorem numerals_and_two_more_are_read_padded :
    Reads "\t0X0fF " ⟨255, by decide⟩ ∧ WritesHexadecimal "\t0X0fF " 255 ∧
      Context.unitsOf (some " \n") = .ok zero ∧ ∀ c ∈ " \n".toList, isBlank c = true := by
  obtain ⟨hmarked, -, -, -, hnumeral, -⟩ :=
    numerals_and_two_more_are_read "\t0X0fF " ⟨255, by decide⟩
  obtain ⟨-, -, -, -, -, hblank⟩ := numerals_and_two_more_are_read " \n" zero
  have hread : ofText? "\t0X0fF " = some ⟨255, by decide⟩ := by decide
  have hunmarked : ∀ mark digits, ¬Padded ('0' :: mark :: '0' :: 'x' :: digits) "\t0X0fF " := by
    rintro mark digits ⟨before, after, hs, -, -⟩
    have hx : 'x' ∈ "\t0X0fF ".toList := by simp [hs]
    exact absurd hx (by decide)
  have hnone : ∀ c ∈ " \n".toList, ¬digitValue c < 10 :=
    List.forall_iff_forall_mem.mp (by decide)
  refine ⟨hmarked.mp hread, ?_, by decide, (hblank (by decide) hnone).1⟩
  obtain hdecimal | hhexadecimal := hnumeral hread ⟨'0', by decide, by decide⟩ hunmarked
  · exact absurd (Text.writesDecimal_iff.mp hdecimal).1 (by decide)
  · exact hhexadecimal

-- One text is read though it has no digit, the other though an `x` stands among its digits.
theorem empty_and_marked_twice_are_read :
    ofText? "" = some zero ∧ ofText? "0x0x1f" = some ⟨31, by decide⟩ ∧
      ∀ s ∈ ["", "0x0x1f"], ¬IsNumeral 10 (trim s.toList) ∧
        ∀ mark digits, trim s.toList = '0' :: mark :: digits → ¬IsNumeral 16 digits := by
  refine ⟨by decide, by decide, ?_⟩
  intro s hs
  simp only [List.mem_cons, List.not_mem_nil, or_false] at hs
  obtain rfl | rfl := hs
  · refine ⟨by decide, fun mark digits htrim => ?_⟩
    cases htrim
  · refine ⟨by decide, fun mark digits htrim => ?_⟩
    cases htrim
    decide

end Amount

end Tariff

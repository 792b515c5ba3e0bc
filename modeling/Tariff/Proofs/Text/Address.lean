import Tariff.Proofs.Document.Basic
import Tariff.Proofs.Machine.Manual
import Tariff.Proofs.Text.Reading
import Tariff.Proofs.Text.Utf8

namespace Tariff

namespace Text.Hex

open Numeral (digitValue)

theorem byteLength_eq_utf8ByteSize (cs : List Char) :
    byteLength cs = (String.ofList cs).utf8ByteSize := by
  rw [Utf8.utf8ByteSize_ofList]
  induction cs with
  | nil => rfl
  | cons c cs ih =>
    rw [List.flatMap_cons, List.length_append, ← ih, String.length_utf8EncodeChar]
    rfl

theorem map_toLower_of_lt {cs : List Char} (h : ∀ c ∈ cs, digitValue c < 16) :
    cs.map Char.toLower = (cs.map digitValue).map digit := by
  rw [List.map_map]
  exact List.map_congr_left fun c hc => Numeral.toLower_of_lt (h c hc)

theorem lt_of_map_toLower {cs : List Char} {ds : List Nat} (hds : ∀ d ∈ ds, d < 16)
    (h : cs.map Char.toLower = ds.map digit) : ∀ c ∈ cs, digitValue c < 16 := by
  intro c hc
  have hmem : c.toLower ∈ ds.map digit := h ▸ List.mem_map_of_mem hc
  obtain ⟨d, hd, hdigit⟩ := List.mem_map.mp hmem
  have hvalue : value? c = some d := value?_eq_some_iff.mpr ⟨hds d hd, hdigit.symm⟩
  rw [Numeral.digitValue_of_value? hvalue]
  exact hds d hd

theorem byteLength_of_lt {cs : List Char} (h : ∀ c ∈ cs, digitValue c < 16) :
    byteLength cs = cs.length := by
  have hds : ∀ d ∈ cs.map digitValue, d < 16 := List.forall_mem_map.mpr h
  rw [byteLength_of_map_toLower hds (map_toLower_of_lt h), List.length_map]

theorem length_encode (bytes : List UInt8) : (encode bytes).length = 2 * bytes.length := by
  rw [encode_eq_map_halves, List.length_map, length_halves]

-- Nothing but digits, and an even number of them.
theorem exists_decode_eq_ok_iff {cs : List Char} :
    (∃ bytes, decode cs = .ok bytes) ↔ cs.length % 2 = 0 ∧ ∀ c ∈ cs, digitValue c < 16 := by
  constructor
  · rintro ⟨bytes, h⟩
    rw [decode_eq_ok_iff] at h
    have hlength := congrArg List.length h
    rw [List.length_map, length_encode] at hlength
    rw [encode_eq_map_halves] at h
    exact ⟨by omega, lt_of_map_toLower (fun d hd => lt_of_mem_halves hd) h⟩
  · rintro ⟨heven, hdigits⟩
    have hds : ∀ d ∈ cs.map digitValue, d < 16 := List.forall_mem_map.mpr hdigits
    refine ⟨pairUp (cs.map digitValue), decode_eq_ok_iff.mpr ?_⟩
    rw [encode_eq_map_halves, halves_pairUp hds (by rwa [List.length_map]),
      map_toLower_of_lt hdigits]

theorem length_of_decode {cs : List Char} {bytes : List UInt8} (h : decode cs = .ok bytes) :
    cs.length = 2 * bytes.length := by
  have hlength := congrArg List.length (decode_eq_ok_iff.mp h)
  rwa [List.length_map, length_encode] at hlength

theorem digitValue_digit {d : Nat} (h : d < 16) : digitValue (digit d) = d :=
  Numeral.digitValue_of_value? (value?_digit h)

-- Two digits more make the number as large as one byte more does.
theorem value_encode (bytes : List UInt8) :
    Numeral.value 16 (encode bytes) = Amount.ofBytes bytes := by
  rw [Numeral.value_eq_foldl, Amount.ofBytes]
  generalize 0 = n
  induction bytes generalizing n with
  | nil => rfl
  | cons b bytes ih =>
    have hb : b.toNat < 256 := b.toNat_lt
    have hsum : 16 * (16 * n + b.toNat / 16) + b.toNat % 16 = 256 * n + b.toNat := by omega
    have hcons : encode (b :: bytes) =
        digit (b.toNat / 16) :: digit (b.toNat % 16) :: encode bytes :=
      rfl
    rw [hcons, List.foldl_cons, List.foldl_cons, List.foldl_cons,
      digitValue_digit (by omega : b.toNat / 16 < 16),
      digitValue_digit (by omega : b.toNat % 16 < 16), hsum, ih]

end Text.Hex

theorem Amount.ofBytes_injective {bytes other : List UInt8} (hlength : bytes.length = other.length)
    (h : Amount.ofBytes bytes = Amount.ofBytes other) : bytes = other := by
  have hlt (bs : List UInt8) : ∀ d ∈ bs.reverse.map UInt8.toNat, d < 256 :=
    List.forall_mem_map.mpr fun b _ => b.toNat_lt
  rw [Amount.ofBytes_eq_ofDigits, Amount.ofBytes_eq_ofDigits] at h
  have hdigits := Nat.ofDigits_inj_of_len_eq (by decide) (by simpa using hlength) (hlt bytes)
    (hlt other) h
  have hbytes := List.map_injective_iff.mpr (fun _ _ => UInt8.toNat_inj.mp) hdigits
  exact List.reverse_injective hbytes

namespace Address

open Text (WritesHexadecimal)
open Text.Numeral (digitValue)

-- The text less the marker in front of it, if there is one.
def IsBody (s : String) (body : List Char) : Prop :=
  s.toList = '0' :: 'x' :: body ∨ s.toList = body ∧ ∀ rest, body ≠ '0' :: 'x' :: rest

theorem IsBody.unmark_eq {s : String} {body : List Char} (h : IsBody s body) :
    Text.Hex.unmark s.toList = body := by
  obtain h | ⟨h, hbare⟩ := h
  · rw [h, Text.Hex.unmark]
  · rw [h]
    unfold Text.Hex.unmark
    split
    · exact absurd rfl (hbare _)
    · rfl

theorem existsUnique_isBody (s : String) : ∃! body, IsBody s body := by
  refine ⟨Text.Hex.unmark s.toList, ?_, fun body h => h.unmark_eq.symm⟩
  unfold Text.Hex.unmark
  split
  · rename_i rest hs
    exact .inl hs
  · rename_i hbare
    exact .inr ⟨rfl, hbare⟩

-- The text denotes no bytes: its own bytes do not pair up, or one character is no digit.
def Broken (body : List Char) : Prop :=
  (String.ofList body).utf8ByteSize % 2 = 1 ∨ ∃ c ∈ body, ¬digitValue c < 16

theorem digits_of_not_broken {body : List Char} (h : ¬Broken body) :
    ∀ c ∈ body, digitValue c < 16 := by
  intro c hc
  by_contra hbad
  exact h (.inr ⟨c, hc, hbad⟩)

theorem utf8ByteSize_of_digits {body : List Char} (h : ∀ c ∈ body, digitValue c < 16) :
    (String.ofList body).utf8ByteSize = body.length := by
  rw [← Text.Hex.byteLength_eq_utf8ByteSize, Text.Hex.byteLength_of_lt h]

theorem exists_decode_iff_not_broken {body : List Char} :
    (∃ bytes, Text.Hex.decode body = .ok bytes) ↔ ¬Broken body := by
  rw [Text.Hex.exists_decode_eq_ok_iff]
  constructor
  · rintro ⟨heven, hdigits⟩ (hodd | ⟨c, hc, hbad⟩)
    · rw [utf8ByteSize_of_digits hdigits, heven] at hodd
      cases hodd
    · exact hbad (hdigits c hc)
  · intro h
    have hdigits := digits_of_not_broken h
    have heven : ¬(String.ofList body).utf8ByteSize % 2 = 1 := fun hodd => h (.inl hodd)
    rw [utf8ByteSize_of_digits hdigits] at heven
    exact ⟨by omega, hdigits⟩

section Reading

variable {s : String} {body : List Char}

-- Forty digits are an address, and all else is refused, for its digits first.
theorem ofText_cases (hbody : IsBody s body) :
    (Broken body ∧ ofText s = .error (.badHex s)) ∨
    (¬Broken body ∧ body.length = 40 ∧ ∃ a, ofText s = .ok a) ∨
    (¬Broken body ∧ body.length ≠ 40 ∧
      ofText s = .error (.badLength ((String.ofList body).utf8ByteSize / 2))) := by
  rw [ofText, hbody.unmark_eq]
  cases hdecode : Text.Hex.decode body with
  | error error =>
    have hbroken : Broken body := by
      by_contra hnot
      obtain ⟨bytes, hbytes⟩ := exists_decode_iff_not_broken.mpr hnot
      rw [hdecode] at hbytes
      cases hbytes
    exact .inl ⟨hbroken, rfl⟩
  | ok bytes =>
    have hsound : ¬Broken body := exists_decode_iff_not_broken.mp ⟨bytes, hdecode⟩
    have hlength := Text.Hex.length_of_decode hdecode
    rw [utf8ByteSize_of_digits (digits_of_not_broken hsound)]
    by_cases htwenty : bytes.length = 20
    · exact .inr (.inl ⟨hsound, by omega, ⟨bytes, htwenty⟩, dif_pos htwenty⟩)
    · have hhalf : body.length / 2 = bytes.length := by omega
      rw [hhalf]
      exact .inr (.inr ⟨hsound, by omega, dif_neg htwenty⟩)

theorem exists_ofText_eq_ok_iff (hbody : IsBody s body) :
    (∃ a, ofText s = .ok a) ↔ body.length = 40 ∧ ∀ c ∈ body, digitValue c < 16 := by
  obtain ⟨hbroken, h⟩ | ⟨hsound, hforty, h⟩ | ⟨hsound, hforty, h⟩ := ofText_cases hbody
  · have hnot : ¬(body.length = 40 ∧ ∀ c ∈ body, digitValue c < 16) := by
      rintro ⟨hforty, hdigits⟩
      exact exists_decode_iff_not_broken.mp
        (Text.Hex.exists_decode_eq_ok_iff.mpr ⟨by omega, hdigits⟩) hbroken
    simp [h, hnot]
  · exact ⟨fun _ => ⟨hforty, digits_of_not_broken hsound⟩, fun _ => h⟩
  · simp [h, hforty]

theorem ofText_eq_badHex_iff (hbody : IsBody s body) (t : String) :
    ofText s = .error (.badHex t) ↔ t = s ∧ Broken body := by
  obtain ⟨hbroken, h⟩ | ⟨hsound, -, a, h⟩ | ⟨hsound, -, h⟩ := ofText_cases hbody
  · simp [h, hbroken, eq_comm]
  · simp [h, hsound]
  · simp [h, hsound]

theorem ofText_eq_badLength_iff (hbody : IsBody s body) (n : Nat) :
    ofText s = .error (.badLength n) ↔
      n = (String.ofList body).utf8ByteSize / 2 ∧ ¬Broken body ∧ body.length ≠ 40 := by
  obtain ⟨hbroken, h⟩ | ⟨-, hforty, a, h⟩ | ⟨hsound, hforty, h⟩ := ofText_cases hbody
  · simp [h, hbroken]
  · simp [h, hforty]
  · simp [h, hsound, hforty, eq_comm]

theorem toList_text_of_ofText (hbody : IsBody s body) {a : Address} (h : ofText s = .ok a) :
    a.text.toList = '0' :: 'x' :: body.map Char.toLower := by
  rw [ofText, hbody.unmark_eq] at h
  cases hdecode : Text.Hex.decode body with
  | error error =>
    rw [hdecode] at h
    cases h
  | ok bytes =>
    rw [hdecode] at h
    have hbytes : a.bytes = bytes := by
      simp only [ofBytes] at h
      split at h
      · cases h
        rfl
      · cases h
    rw [text, String.toList_ofList, hbytes, Text.Hex.decode_eq_ok_iff.mp hdecode]

end Reading

theorem ofText?_text (a : Address) : Amount.ofText? a.text = some a.toAmount := by
  have hdigits : Text.Numeral.IsNumeral 16 (Text.Hex.encode a.bytes) := by
    refine ⟨?_, ?_⟩
    · rw [← List.length_pos_iff, Text.Hex.length_encode, a.length_eq]
      decide
    · exact Text.Hex.lt_of_map_toLower (fun d hd => Text.Hex.lt_of_mem_halves hd)
        ((Text.Hex.map_toLower_encode a.bytes).trans (Text.Hex.encode_eq_map_halves a.bytes))
  have hlength : (Text.Hex.encode a.bytes).length ≤ 64 := by
    rw [Text.Hex.length_encode, a.length_eq]
    decide
  have hwrites : WritesHexadecimal a.text (Text.Numeral.value 16 (Text.Hex.encode a.bytes)) :=
    .intro (.inl rfl) hdigits hlength
      ⟨[], [], by simp [text], List.forall_mem_nil _, List.forall_mem_nil _⟩
  obtain ⟨hlt, hread⟩ := Amount.ofText?_of_hexadecimal hwrites
  rw [hread, Option.some.injEq]
  exact Amount.ext (Text.Hex.value_encode a.bytes)

theorem toAmount_lt (a : Address) : a.toAmount.toNat < Nat.pow 2 160 := by
  have hlt := ofBytes_foldl_lt a.bytes 0
  rw [a.length_eq] at hlt
  exact Nat.lt_of_lt_of_le hlt (by decide)

theorem toAmount_injective {a b : Address} (h : a.toAmount = b.toAmount) : a = b := by
  have hbytes : a.bytes = b.bytes :=
    Amount.ofBytes_injective (a.length_eq.trans b.length_eq.symm) (congrArg Amount.toNat h)
  cases a
  cases b
  cases hbytes
  rfl

end Address

namespace Machine

-- The buyer stands in slot 0 of the context.
theorem step_buyer (env : Environment) {stack : Stack} (hroom : stack.length < maxDepth) :
    step env (.of .context 0) stack = .done (env.context.buyer.toAmount :: stack) := by
  have hslot : env.context.slot? 0 = some env.context.buyer.toAmount := rfl
  have hnotFull : ¬maxDepth ≤ stack.length := Nat.not_le_of_lt hroom
  rw [Invocation.of, step_of_byte]
  simp only [perform, hslot, fetch, pushOn, push, if_neg hnotFull]

end Machine

namespace Address

open Text.Numeral (digitValue)

theorem addresses_have_one_text_and_one_number :
    (∀ s, ∃! body, IsBody s body) ∧
    (∀ s body, IsBody s body →
      ((∃ a, ofText s = .ok a) ↔ body.length = 40 ∧ ∀ c ∈ body, digitValue c < 16) ∧
      (∀ t, ofText s = .error (.badHex t) ↔ t = s ∧ Broken body) ∧
      (∀ n, ofText s = .error (.badLength n) ↔
        n = (String.ofList body).utf8ByteSize / 2 ∧ ¬Broken body ∧ body.length ≠ 40) ∧
      ∀ a, ofText s = .ok a → a.text.toList = '0' :: 'x' :: body.map Char.toLower) ∧
    ∀ a : Address,
      ofText a.text = .ok a ∧
      Amount.ofText? a.text = some a.toAmount ∧
      a.toAmount.toNat < Nat.pow 2 160 ∧
      (∀ b : Address, b ≠ a → b.toAmount ≠ a.toAmount) ∧
      ∀ (env : Machine.Environment) (stack : Machine.Stack), env.context.buyer = a →
        stack.length < Machine.maxDepth →
        Machine.step env (.of .context 0) stack = .done (a.toAmount :: stack) := by
  refine ⟨existsUnique_isBody, ?_, ?_⟩
  · intro s body hbody
    exact ⟨exists_ofText_eq_ok_iff hbody, ofText_eq_badHex_iff hbody,
      ofText_eq_badLength_iff hbody, fun a h => toList_text_of_ofText hbody h⟩
  · intro a
    refine ⟨ofText_text a, ofText?_text a, toAmount_lt a, ?_, ?_⟩
    · intro b hne h
      exact hne (toAmount_injective h)
    · rintro env stack rfl hroom
      exact Machine.step_buyer env hroom

-- Digits in mixed case behind a marker, a text of too few bytes and one of half a byte too many.
theorem addresses_have_one_text_and_one_number_mixed :
    (∃ a, ofText "0xAbcdef0123456789abcdef0123456789ABCDEF01" = .ok a ∧
      a.text.toList = "0xabcdef0123456789abcdef0123456789abcdef01".toList) ∧
    ofText "0102" = .error (.badLength 2) ∧
    ofText "0x012" = .error (.badHex "0x012") ∧
    toAmount ⟨List.replicate 20 1, by decide⟩ ≠ zero.toAmount ∧
    Machine.step ⟨[], ⟨zero, .one⟩⟩ (.of .context 0) [] = .done [zero.toAmount] := by
  obtain ⟨-, hread, hwrite⟩ := addresses_have_one_text_and_one_number
  obtain ⟨-, -, -, hinjective, hstep⟩ := hwrite zero
  obtain ⟨hok, -, -, htext⟩ := hread "0xAbcdef0123456789abcdef0123456789ABCDEF01"
    "Abcdef0123456789abcdef0123456789ABCDEF01".toList (.inl (by decide))
  obtain ⟨-, -, hshort, -⟩ := hread "0102" "0102".toList
    (.inr ⟨rfl, fun rest h => absurd (congrArg List.tail h) (by simp)⟩)
  obtain ⟨-, hbroken, -, -⟩ := hread "0x012" "012".toList (.inl (by decide))
  obtain ⟨a, ha⟩ := hok.mpr ⟨by decide, List.forall_iff_forall_mem.mp (by decide)⟩
  refine ⟨⟨a, ha, (htext a ha).trans (by decide)⟩, (hshort 2).mpr ⟨by decide, ?_, by decide⟩,
    (hbroken "0x012").mpr ⟨rfl, .inl (by decide)⟩, hinjective _ (by decide),
    hstep _ _ rfl (by decide)⟩
  rintro (hodd | ⟨c, hc, hbad⟩)
  · exact absurd hodd (by decide)
  · have hdigits : ∀ c ∈ "0102".toList, digitValue c < 16 :=
      List.forall_iff_forall_mem.mp (by decide)
    exact hbad (hdigits c hc)

end Address

end Tariff

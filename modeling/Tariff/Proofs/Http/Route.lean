import Tariff.Http.Service
import Tariff.Proofs.Text.Blank
import Tariff.Proofs.Text.Decimal
import Tariff.Proofs.Text.Utf8

namespace Tariff.Http

namespace Route

theorem ofPath_intercalate {parts : List (List Char)} (h : ∀ part ∈ parts, '/' ∉ part)
    (hne : parts ≠ []) : ofPath (['/'].intercalate parts) = ofParts (parts.map String.ofList) := by
  have hsplit : Text.splitOn (· == '/') (['/'].intercalate parts) = parts := by
    rw [Text.splitOn_eq_splitOnP]
    exact List.splitOn_intercalate '/' h hne
  rw [ofPath, hsplit]

end Route

theorem unescape_of_not_mem {bytes : List UInt8} (h : 0x25 ∉ bytes) : unescape bytes = bytes := by
  fun_induction unescape bytes with
  | case1 => rfl
  | case2 high low rest => exact absurd List.mem_cons_self h
  | case3 high low rest => exact absurd List.mem_cons_self h
  | case4 b rest hb ih => rw [ih (fun hmem => h (List.mem_cons_of_mem b hmem))]

-- Digits are written in one byte each, and none of them starts an escape.
theorem pathPart?_of_isDigit {cs : List Char} (h : ∀ c ∈ cs, Text.Decimal.isDigit c = true) :
    pathPart? cs = some (String.ofList cs) := by
  have hplain : 0x25 ∉ Text.Utf8.encode (String.ofList cs) := by
    rw [Text.Utf8.encode_ofList, List.mem_flatMap]
    rintro ⟨c, hc, hmem⟩
    have hdigit := Text.Decimal.isDigit_iff.mp (h c hc)
    rw [Text.Utf8.utf8EncodeChar_of_lt (by omega), List.mem_singleton] at hmem
    have hbyte := congrArg UInt8.toNat hmem
    rw [Text.Utf8.toNat_ofNat (by omega)] at hbyte
    have hescape : (0x25 : UInt8).toNat = 37 := rfl
    omega
  rw [pathPart?, unescape_of_not_mem hplain, Text.Utf8.decode?_encode]

namespace Service

theorem readId?_ofNat {id : Nat} (h : id < Nat.pow 2 64) :
    readId? (Text.Decimal.ofNat id) = some id := by
  have hpart := pathPart?_of_isDigit fun c (hc : c ∈ Text.Decimal.ofNat id) =>
    Text.Decimal.isDigit_of_mem_ofNat hc
  simp only [readId?, hpart, Option.bind_eq_bind, Option.bind_some, String.toList_ofList]
  exact Text.Decimal.unsigned?_ofNat h

theorem lt_of_readId? {text : List Char} {id : Nat} (h : readId? text = some id) :
    id < Nat.pow 2 64 := by
  simp only [readId?, Option.bind_eq_bind, Option.bind_eq_some_iff] at h
  obtain ⟨part, -, hid⟩ := h
  exact Text.Decimal.lt_of_unsigned? hid

end Service

end Tariff.Http

import Tariff.Text.Utf8

namespace Tariff.Text.Utf8

-- The loop has the first `i` bytes behind it, the latest first.
theorem toList_loop (bytes : ByteArray) (i : Nat) (found : List UInt8) :
    ByteArray.toList.loop bytes i found = found.reverse ++ bytes.data.toList.drop i := by
  fun_induction ByteArray.toList.loop bytes i found with
  | case1 i found h ih =>
    have hlength : i < bytes.data.toList.length := h
    rw [ih, List.drop_eq_getElem_cons hlength]
    simp [ByteArray.get!, h]
  | case2 i found h =>
    have hlength : bytes.data.toList.length ≤ i := Nat.le_of_not_lt h
    rw [List.drop_eq_nil_of_le hlength, List.append_nil]

theorem encode_ofList (cs : List Char) :
    encode (String.ofList cs) = cs.flatMap String.utf8EncodeChar := by
  rw [encode, String.toUTF8_eq_toByteArray, String.toByteArray_ofList, ByteArray.toList,
    toList_loop, List.utf8Encode, List.data_toByteArray]
  rfl

theorem utf8ByteSize_ofList (cs : List Char) :
    (String.ofList cs).utf8ByteSize = (cs.flatMap String.utf8EncodeChar).length := by
  rw [String.utf8ByteSize, String.toByteArray_ofList, List.utf8Encode, ByteArray.size,
    List.data_toByteArray, List.size_toArray]

theorem toNat_ofNat {k : Nat} (h : k < 256) : (UInt8.ofNat k).toNat = k := by
  rw [UInt8.toNat_ofNat']
  exact Nat.mod_eq_of_lt h

theorem utf8EncodeChar_of_lt {c : Char} (h : c.toNat < 128) :
    String.utf8EncodeChar c = [UInt8.ofNat c.toNat] := by
  have hval : c.val.toNat = c.toNat := rfl
  rw [String.utf8EncodeChar, hval, if_pos (by omega)]

-- A byte within the bounds gives its last six bits.
theorem follow_succ {low high : UInt8} {k : Nat} (hk : k < 64) (hlow : low.toNat ≤ k + 128)
    (hhigh : k + 128 ≤ high.toNat) (count bits : Nat) (rest : List UInt8) :
    follow (count + 1) low high bits (UInt8.ofNat (k + 128) :: rest) =
      ((follow count 0x80 0xBF (bits * 64 + k) rest).1,
        (follow count 0x80 0xBF (bits * 64 + k) rest).2 + 1) := by
  have hb : (UInt8.ofNat (k + 128)).toNat = k + 128 := toNat_ofNat (by omega)
  have hwithin : (low ≤ UInt8.ofNat (k + 128) && UInt8.ofNat (k + 128) ≤ high) = true := by
    simp only [UInt8.le_iff_toNat_le, hb, Bool.and_eq_true, decide_eq_true_eq]
    exact ⟨hlow, hhigh⟩
  have hbits : (k + 128) % 64 = k := by omega
  simp only [follow, hwithin, if_true, hb, hbits]

-- Any byte that may stand behind the second one.
theorem follow_tail (k count bits : Nat) (rest : List UInt8) :
    follow (count + 1) 0x80 0xBF bits (UInt8.ofNat (k % 64 + 128) :: rest) =
      ((follow count 0x80 0xBF (bits * 64 + k % 64) rest).1,
        (follow count 0x80 0xBF (bits * 64 + k % 64) rest).2 + 1) := by
  have hk : k % 64 < 64 := Nat.mod_lt k (by decide)
  have hhigh : k % 64 + 128 ≤ (0xBF : UInt8).toNat := by
    change _ ≤ 191
    omega
  exact follow_succ hk (Nat.le_add_left 128 _) hhigh count bits rest

theorem scan_of_lead {b : UInt8} {lead : Lead} (hb : 0x80 ≤ b.toNat) (hlead : lead? b = some lead)
    {rest : List UInt8} {code taken : Nat}
    (hfollow : follow lead.count lead.low lead.high lead.bits rest = (some code, taken)) :
    scan (b :: rest) = some (Char.ofNat code) :: scan (rest.drop taken) := by
  have hascii : ¬ b < 0x80 := by
    rw [UInt8.lt_iff_toNat_lt]
    exact Nat.not_lt_of_le hb
  rw [scan, if_neg hascii]
  simp only [hlead, hfollow, Option.map_some]

-- What the first byte of a character of three bytes asks for leaves out longer spellings of shorter
-- characters, and surrogates.
theorem exists_lead_three {n : Nat} (hlow : 0x800 ≤ n) (hhigh : n < 0x10000)
    (hvalid : n < 0xD800 ∨ 0xDFFF < n) :
    ∃ low high, lead? (UInt8.ofNat (n / 4096 + 224)) = some ⟨2, low, high, n / 4096⟩ ∧
      low.toNat ≤ n / 64 % 64 + 128 ∧ n / 64 % 64 + 128 ≤ high.toNat := by
  have hb : (UInt8.ofNat (n / 4096 + 224)).toNat = n / 4096 + 224 := toNat_ofNat (by omega)
  have htail : n / 64 % 64 < 64 := Nat.mod_lt _ (by decide)
  simp only [lead?, hb]
  rw [if_neg (by omega), if_neg (by omega)]
  by_cases hfirst : n / 4096 = 0
  · refine ⟨0xA0, 0xBF, ?_, ?_, ?_⟩
    · rw [if_pos (by omega), hfirst]
    · change 160 ≤ _
      omega
    · change _ ≤ 191
      omega
  rw [if_neg (by omega)]
  by_cases hsurrogate : n / 4096 = 13
  · refine ⟨0x80, 0x9F, ?_, ?_, ?_⟩
    · rw [if_pos (by omega), hsurrogate]
    · change 128 ≤ _
      omega
    · change _ ≤ 159
      omega
  · refine ⟨0x80, 0xBF, ?_, ?_, ?_⟩
    · rw [if_neg (by omega), if_pos (by omega), Nat.add_sub_cancel]
    · change 128 ≤ _
      omega
    · change _ ≤ 191
      omega

theorem exists_lead_four {n : Nat} (hlow : 0x10000 ≤ n) (hhigh : n < 0x110000) :
    ∃ low high, lead? (UInt8.ofNat (n / 262144 + 240)) = some ⟨3, low, high, n / 262144⟩ ∧
      low.toNat ≤ n / 4096 % 64 + 128 ∧ n / 4096 % 64 + 128 ≤ high.toNat := by
  have hb : (UInt8.ofNat (n / 262144 + 240)).toNat = n / 262144 + 240 := toNat_ofNat (by omega)
  have htail : n / 4096 % 64 < 64 := Nat.mod_lt _ (by decide)
  simp only [lead?, hb]
  rw [if_neg (by omega), if_neg (by omega), if_neg (by omega), if_neg (by omega),
    if_neg (by omega)]
  by_cases hfirst : n / 262144 = 0
  · refine ⟨0x90, 0xBF, ?_, ?_, ?_⟩
    · rw [if_pos (by omega), hfirst]
    · change 144 ≤ _
      omega
    · change _ ≤ 191
      omega
  rw [if_neg (by omega)]
  by_cases hlast : n / 262144 = 4
  · refine ⟨0x80, 0x8F, ?_, ?_, ?_⟩
    · rw [if_neg (by omega), if_pos (by omega), hlast]
    · change 128 ≤ _
      omega
    · change _ ≤ 143
      omega
  · refine ⟨0x80, 0xBF, ?_, ?_, ?_⟩
    · rw [if_pos (by omega), Nat.add_sub_cancel]
    · change 128 ≤ _
      omega
    · change _ ≤ 191
      omega

theorem scan_two {n : Nat} (hlow : 0x80 ≤ n) (hhigh : n < 0x800) (rest : List UInt8) :
    scan (UInt8.ofNat (n / 64 + 192) :: UInt8.ofNat (n % 64 + 128) :: rest) =
      some (Char.ofNat n) :: scan rest := by
  have hb : (UInt8.ofNat (n / 64 + 192)).toNat = n / 64 + 192 := toNat_ofNat (by omega)
  have hlead : lead? (UInt8.ofNat (n / 64 + 192)) = some ⟨1, 0x80, 0xBF, n / 64⟩ := by
    simp only [lead?, hb]
    rw [if_neg (by omega), if_pos (by omega), Nat.add_sub_cancel]
  have hcode : n / 64 * 64 + n % 64 = n := by omega
  have hfollow : follow 1 0x80 0xBF (n / 64) (UInt8.ofNat (n % 64 + 128) :: rest) =
      (some n, 1) := by
    rw [follow_tail, follow, hcode]
  rw [scan_of_lead (by omega) hlead hfollow]
  rfl

theorem scan_three {n : Nat} (hlow : 0x800 ≤ n) (hhigh : n < 0x10000)
    (hvalid : n < 0xD800 ∨ 0xDFFF < n) (rest : List UInt8) :
    scan (UInt8.ofNat (n / 4096 + 224) :: UInt8.ofNat (n / 64 % 64 + 128) ::
        UInt8.ofNat (n % 64 + 128) :: rest) =
      some (Char.ofNat n) :: scan rest := by
  have hb : (UInt8.ofNat (n / 4096 + 224)).toNat = n / 4096 + 224 := toNat_ofNat (by omega)
  obtain ⟨low, high, hlead, hlower, hupper⟩ := exists_lead_three hlow hhigh hvalid
  have hcode : (n / 4096 * 64 + n / 64 % 64) * 64 + n % 64 = n := by omega
  have hfollow : follow 2 low high (n / 4096)
      (UInt8.ofNat (n / 64 % 64 + 128) :: UInt8.ofNat (n % 64 + 128) :: rest) = (some n, 2) := by
    rw [follow_succ (Nat.mod_lt _ (by decide)) hlower hupper, follow_tail, follow, hcode]
  rw [scan_of_lead (by omega) hlead hfollow]
  rfl

theorem scan_four {n : Nat} (hlow : 0x10000 ≤ n) (hhigh : n < 0x110000) (rest : List UInt8) :
    scan (UInt8.ofNat (n / 262144 + 240) :: UInt8.ofNat (n / 4096 % 64 + 128) ::
        UInt8.ofNat (n / 64 % 64 + 128) :: UInt8.ofNat (n % 64 + 128) :: rest) =
      some (Char.ofNat n) :: scan rest := by
  have hb : (UInt8.ofNat (n / 262144 + 240)).toNat = n / 262144 + 240 := toNat_ofNat (by omega)
  obtain ⟨low, high, hlead, hlower, hupper⟩ := exists_lead_four hlow hhigh
  have hcode : ((n / 262144 * 64 + n / 4096 % 64) * 64 + n / 64 % 64) * 64 + n % 64 = n := by
    omega
  have hfollow : follow 3 low high (n / 262144)
      (UInt8.ofNat (n / 4096 % 64 + 128) :: UInt8.ofNat (n / 64 % 64 + 128) ::
        UInt8.ofNat (n % 64 + 128) :: rest) = (some n, 3) := by
    rw [follow_succ (Nat.mod_lt _ (by decide)) hlower hupper, follow_tail, follow_tail, follow,
      hcode]
  rw [scan_of_lead (by omega) hlead hfollow]
  rfl

theorem scan_one {n : Nat} (h : n < 0x80) (rest : List UInt8) :
    scan (UInt8.ofNat n :: rest) = some (Char.ofNat n) :: scan rest := by
  have hb : (UInt8.ofNat n).toNat = n := toNat_ofNat (by omega)
  have hascii : UInt8.ofNat n < 0x80 := by
    rw [UInt8.lt_iff_toNat_lt, hb]
    exact h
  rw [scan, if_pos hascii, hb]

theorem scan_encode (c : Char) (rest : List UInt8) :
    scan (String.utf8EncodeChar c ++ rest) = some c :: scan rest := by
  have hvalid : c.toNat < 0xD800 ∨ 0xDFFF < c.toNat ∧ c.toNat < 0x110000 := c.valid
  have hchar : Char.ofNat c.toNat = c := Char.ofNat_toNat c
  have hval : c.val.toNat = c.toNat := rfl
  simp only [String.utf8EncodeChar, hval]
  split
  · rw [List.singleton_append, scan_one (by omega), hchar]
  split
  · have hfirst : c.toNat / 64 % 32 = c.toNat / 64 := by omega
    rw [hfirst]
    exact (scan_two (by omega) (by omega) rest).trans (by rw [hchar])
  split
  · have hfirst : c.toNat / 4096 % 16 = c.toNat / 4096 := by omega
    rw [hfirst]
    exact (scan_three (by omega) (by omega) (by omega) rest).trans (by rw [hchar])
  · have hfirst : c.toNat / 262144 % 8 = c.toNat / 262144 := by omega
    rw [hfirst]
    exact (scan_four (by omega) (by omega) rest).trans (by rw [hchar])

theorem scan_flatMap_encode (cs : List Char) :
    scan (cs.flatMap String.utf8EncodeChar) = cs.map some := by
  induction cs with
  | nil => rw [List.flatMap_nil, scan, List.map_nil]
  | cons c cs ih => rw [List.flatMap_cons, scan_encode, ih, List.map_cons]

theorem decode?_encode (s : String) : decode? (encode s) = some s := by
  have hmapM (cs : List Char) : (cs.map some).mapM id = some cs := by
    induction cs with
    | nil => rfl
    | cons c cs ih => simp [List.mapM_cons, ih]
  have hencode := encode_ofList s.toList
  rw [String.ofList_toList] at hencode
  rw [decode?, hencode, scan_flatMap_encode, hmapM, Option.map_some, String.ofList_toList]

end Tariff.Text.Utf8

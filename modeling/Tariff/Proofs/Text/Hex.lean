import Tariff.Text.Hex

namespace Tariff.Text.Hex

-- The characters below 128 are checked one by one; no other character is a digit.
theorem value?_ofNat : ∀ n < 128, (value? (Char.ofNat n)).all (fun d =>
    decide (d < 16) && (Char.ofNat n).toLower == digit d) = true := by
  decide

theorem value?_of_toLower : ∀ n < 128, ∀ d < 16, (Char.ofNat n).toLower = digit d →
    value? (Char.ofNat n) = some d := by
  decide

theorem digit_toNat_lt : ∀ d < 16, (digit d).toNat < 128 := by
  decide

theorem toNat_lt_of_value? {c : Char} {d : Nat} (h : value? c = some d) : c.toNat < 128 := by
  have hle {a b : Char} (hab : a ≤ b) : a.toNat ≤ b.toNat := hab
  have hbounds : '9'.toNat < 128 ∧ 'f'.toNat < 128 ∧ 'F'.toNat < 128 := by decide
  unfold value? at h
  split at h
  · rename_i hc
    exact Nat.lt_of_le_of_lt (hle hc.2) hbounds.1
  · split at h
    · rename_i hc
      exact Nat.lt_of_le_of_lt (hle hc.2) hbounds.2.1
    · split at h
      · rename_i hc
        exact Nat.lt_of_le_of_lt (hle hc.2) hbounds.2.2
      · cases h

-- Lower case changes nothing above 128, and it changes no character into or out of that range.
theorem toNat_lt_of_toLower {c : Char} (h : c.toLower.toNat < 128) : c.toNat < 128 := by
  unfold Char.toLower at h
  split at h
  · rename_i hc
    have hle : c.toNat ≤ 'Z'.toNat := hc.2
    exact Nat.lt_of_le_of_lt hle (by decide)
  · exact h

theorem value?_eq_some_iff {c : Char} {d : Nat} :
    value? c = some d ↔ d < 16 ∧ c.toLower = digit d := by
  constructor
  · intro h
    have hall := value?_ofNat c.toNat (toNat_lt_of_value? h)
    rw [Char.ofNat_toNat, h] at hall
    simpa using hall
  · rintro ⟨hd, hc⟩
    have hlt : c.toNat < 128 := toNat_lt_of_toLower (hc ▸ digit_toNat_lt d hd)
    have hvalue := value?_of_toLower c.toNat hlt d hd
    rw [Char.ofNat_toNat] at hvalue
    exact hvalue hc

theorem toLower_digit : ∀ d < 16, (digit d).toLower = digit d := by
  decide

theorem value?_digit {d : Nat} (h : d < 16) : value? (digit d) = some d :=
  value?_eq_some_iff.mpr ⟨h, toLower_digit d h⟩

theorem digits_eq_ok_iff {position : Nat} {cs : List Char} {ds : List Nat} :
    digits position cs = .ok ds ↔ (∀ d ∈ ds, d < 16) ∧ cs.map Char.toLower = ds.map digit := by
  induction cs generalizing position ds with
  | nil => cases ds <;> simp [digits]
  | cons c cs ih =>
    simp only [digits]
    cases hc : value? c with
    | none =>
      cases ds with
      | nil => simp
      | cons d ds =>
        have hnot : ¬ (d < 16 ∧ c.toLower = digit d) := by
          rw [← value?_eq_some_iff, hc]
          simp
        simp only [List.forall_mem_cons, List.map_cons, List.cons.injEq, reduceCtorEq, false_iff]
        rintro ⟨⟨hd, -⟩, hlower, -⟩
        exact hnot ⟨hd, hlower⟩
    | some e =>
      obtain ⟨he, hlower⟩ := value?_eq_some_iff.mp hc
      constructor
      · intro h
        cases hrest : digits (position + 1) cs with
        | error error =>
          rw [hrest] at h
          cases h
        | ok rest =>
          rw [hrest] at h
          cases h
          obtain ⟨hall, hmap⟩ := ih.mp hrest
          exact ⟨List.forall_mem_cons.mpr ⟨he, hall⟩, by rw [List.map_cons, hlower, hmap]; rfl⟩
      · rintro ⟨hall, hmap⟩
        cases ds with
        | nil => cases hmap
        | cons d ds =>
          rw [List.forall_mem_cons] at hall
          rw [List.map_cons, List.map_cons, List.cons.injEq] at hmap
          have hd : value? c = some d := value?_eq_some_iff.mpr ⟨hall.1, hmap.1⟩
          obtain rfl : e = d := Option.some.inj (hc.symm.trans hd)
          rw [ih.mpr ⟨hall.2, hmap.2⟩]
          rfl

-- A digit is a single byte.
theorem byteLength_of_map_toLower {cs : List Char} {ds : List Nat} (hds : ∀ d ∈ ds, d < 16)
    (h : cs.map Char.toLower = ds.map digit) : byteLength cs = ds.length := by
  induction cs generalizing ds with
  | nil =>
    cases ds with
    | nil => rfl
    | cons d ds => cases h
  | cons c cs ih =>
    cases ds with
    | nil => cases h
    | cons d ds =>
      rw [List.forall_mem_cons] at hds
      rw [List.map_cons, List.map_cons, List.cons.injEq] at h
      have hlt : c.toNat < 128 := toNat_lt_of_toLower (h.1 ▸ digit_toNat_lt d hds.1)
      have hsize : c.utf8Size = 1 := Char.utf8Size_eq_one_iff.mpr (by
        have hval : c.val.toNat < 128 := hlt
        rw [UInt32.le_iff_toNat_le]
        exact Nat.le_of_lt_succ hval)
      have hrest := ih hds.2 h.2
      simp only [byteLength, List.foldr_cons, List.length_cons] at hrest ⊢
      omega

-- The digits of bytes, two for each.
def halves (bytes : List UInt8) : List Nat :=
  bytes.flatMap fun b => [b.toNat / 16, b.toNat % 16]

theorem halves_cons (b : UInt8) (bytes : List UInt8) :
    halves (b :: bytes) = b.toNat / 16 :: b.toNat % 16 :: halves bytes := rfl

theorem lt_of_mem_halves {bytes : List UInt8} {d : Nat} (h : d ∈ halves bytes) : d < 16 := by
  simp only [halves, List.mem_flatMap, List.mem_cons, List.not_mem_nil, or_false] at h
  obtain ⟨b, -, hd⟩ := h
  have hb : b.toNat < 256 := b.toNat_lt
  omega

theorem length_halves (bytes : List UInt8) : (halves bytes).length = 2 * bytes.length := by
  induction bytes with
  | nil => rfl
  | cons b bytes ih =>
    rw [halves_cons, List.length_cons, List.length_cons, List.length_cons, ih]
    omega

theorem encode_eq_map_halves (bytes : List UInt8) : encode bytes = (halves bytes).map digit := by
  simp only [encode, halves, List.map_flatMap]
  rfl

theorem pairUp_halves (bytes : List UInt8) : pairUp (halves bytes) = bytes := by
  induction bytes with
  | nil => rfl
  | cons b bytes ih =>
    have hb : 16 * (b.toNat / 16) + b.toNat % 16 = b.toNat := by omega
    rw [halves_cons, pairUp, hb, ih, UInt8.ofNat_toNat]

theorem halves_pairUp {ds : List Nat} (hds : ∀ d ∈ ds, d < 16) (heven : ds.length % 2 = 0) :
    halves (pairUp ds) = ds := by
  fun_induction pairUp ds with
  | case1 high low rest ih =>
    have hhigh : high < 16 := hds high (by simp)
    have hlow : low < 16 := hds low (by simp)
    simp only [List.length_cons] at heven
    have hrest := ih (fun d hd => hds d (by simp [hd])) (by omega)
    have hbyte : (UInt8.ofNat (16 * high + low)).toNat = 16 * high + low :=
      UInt8.toNat_ofNat_of_lt' (by simp only [UInt8.size]; omega)
    have hdiv : (16 * high + low) / 16 = high := by omega
    have hmod : (16 * high + low) % 16 = low := by omega
    rw [halves_cons, hbyte, hrest, hdiv, hmod]
  | case2 ds hshort =>
    match ds, hshort with
    | [], _ => rfl
    | [d], _ => simp at heven
    | high :: low :: rest, hshort => exact absurd rfl (hshort high low rest)

theorem decode_eq_ok_iff {cs : List Char} {bytes : List UInt8} :
    decode cs = .ok bytes ↔ cs.map Char.toLower = encode bytes := by
  rw [decode, encode_eq_map_halves]
  constructor
  · intro h
    split at h
    · cases h
    · rename_i hodd
      cases hds : digits 0 cs with
      | error error =>
        rw [hds] at h
        cases h
      | ok ds =>
        rw [hds] at h
        cases h
        obtain ⟨hall, hmap⟩ := digits_eq_ok_iff.mp hds
        have hlength := byteLength_of_map_toLower hall hmap
        rw [halves_pairUp hall (by omega), hmap]
  · intro h
    have hall : ∀ d ∈ halves bytes, d < 16 := fun d hd => lt_of_mem_halves hd
    have hlength := byteLength_of_map_toLower hall h
    have heven := length_halves bytes
    rw [if_neg (by omega), digits_eq_ok_iff.mpr ⟨hall, h⟩]
    exact congrArg Except.ok (pairUp_halves bytes)

theorem map_toLower_encode (bytes : List UInt8) :
    (encode bytes).map Char.toLower = encode bytes := by
  rw [encode_eq_map_halves, List.map_map]
  exact List.map_congr_left fun d hd => toLower_digit d (lt_of_mem_halves hd)

theorem decode_encode (bytes : List UInt8) : decode (encode bytes) = .ok bytes :=
  decode_eq_ok_iff.mpr (map_toLower_encode bytes)

theorem encode_injective {bytes other : List UInt8} (h : encode bytes = encode other) :
    bytes = other := by
  have hdecode := decode_encode bytes
  rw [h, decode_encode] at hdecode
  exact (Except.ok.inj hdecode).symm

end Tariff.Text.Hex

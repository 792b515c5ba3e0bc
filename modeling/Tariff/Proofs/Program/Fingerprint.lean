import Tariff.Program.Fingerprint
import Tariff.Proofs.Script.Encoding
import Tariff.Proofs.Text.Decimal

namespace Tariff

namespace Digest

theorem length_bigEndian (count n : Nat) : (bigEndian count n).length = count := by
  simp [bigEndian]

-- The last byte is the number modulo 256, the bytes before it are those of the quotient.
theorem bigEndian_succ (count n : Nat) :
    bigEndian (count + 1) n = bigEndian count (n / 256) ++ [UInt8.ofNat n] := by
  simp only [bigEndian, List.range_succ, List.map_append, List.map_singleton]
  congr 1
  · apply List.map_congr_left
    intro i hi
    rw [List.mem_range] at hi
    have hshift : 8 * (count + 1 - 1 - i) = 8 + 8 * (count - 1 - i) := by omega
    rw [hshift, Nat.shiftRight_add, Nat.shiftRight_eq_div_pow n 8]
  · have hlast : 8 * (count + 1 - 1 - count) = 0 := by omega
    rw [hlast]
    rfl

theorem bigEndian_injective {count n m : Nat} (hn : n < Nat.pow 256 count)
    (hm : m < Nat.pow 256 count) (h : bigEndian count n = bigEndian count m) : n = m := by
  induction count generalizing n m with
  | zero =>
    simp only [Nat.pow] at hn hm
    omega
  | succ count ih =>
    have hpow : Nat.pow 256 (count + 1) = Nat.pow 256 count * 256 := rfl
    rw [hpow] at hn hm
    rw [bigEndian_succ, bigEndian_succ] at h
    obtain ⟨hquotient, hlast⟩ := List.append_inj h (by rw [length_bigEndian, length_bigEndian])
    have hrest : n / 256 = m / 256 :=
      ih (Nat.div_lt_of_lt_mul (by omega)) (Nat.div_lt_of_lt_mul (by omega)) hquotient
    have hbyte : n % 256 = m % 256 := by
      have hbytes := congrArg UInt8.toNat (List.cons.inj hlast).1
      rwa [UInt8.toNat_ofNat', UInt8.toNat_ofNat'] at hbytes
    omega

end Digest

namespace Program

-- A code ends where it says, so that what follows it cannot be taken for a part of it.
def Delimited {α : Type} (code : α → List UInt8) (fits : α → Prop) : Prop :=
  ∀ {a b : α} {rest other : List UInt8}, fits a → fits b →
    code a ++ rest = code b ++ other → a = b ∧ rest = other

theorem Delimited.flatMap {α : Type} {code : α → List UInt8} {fits : α → Prop}
    (hcode : Delimited code fits) {as bs : List α} {rest other : List UInt8}
    (has : ∀ a ∈ as, fits a) (hbs : ∀ b ∈ bs, fits b) (hlength : as.length = bs.length)
    (h : as.flatMap code ++ rest = bs.flatMap code ++ other) : as = bs ∧ rest = other := by
  induction as generalizing bs with
  | nil =>
    obtain rfl := List.length_eq_zero_iff.mp hlength.symm
    exact ⟨rfl, h⟩
  | cons a as ih =>
    cases bs with
    | nil => simp at hlength
    | cons b bs =>
      rw [List.forall_mem_cons] at has hbs
      rw [List.flatMap_cons, List.flatMap_cons, List.append_assoc, List.append_assoc] at h
      obtain ⟨rfl, hrest⟩ := hcode has.1 hbs.1 h
      obtain ⟨rfl, rfl⟩ := ih has.2 hbs.2 (by simpa using hlength) hrest
      exact ⟨rfl, rfl⟩

-- Codes that are not empty need not be counted when nothing follows them.
theorem Delimited.flatMap_injective {α : Type} {code : α → List UInt8} {fits : α → Prop}
    (hcode : Delimited code fits) (hne : ∀ a, code a ≠ []) {as bs : List α}
    (has : ∀ a ∈ as, fits a) (hbs : ∀ b ∈ bs, fits b)
    (h : as.flatMap code = bs.flatMap code) : as = bs := by
  induction as generalizing bs with
  | nil =>
    cases bs with
    | nil => rfl
    | cons b bs =>
      have hnil : code b = [] := (List.append_eq_nil_iff.mp h.symm).1
      exact absurd hnil (hne b)
  | cons a as ih =>
    cases bs with
    | nil =>
      have hnil : code a = [] := (List.append_eq_nil_iff.mp h).1
      exact absurd hnil (hne a)
    | cons b bs =>
      rw [List.forall_mem_cons] at has hbs
      rw [List.flatMap_cons, List.flatMap_cons] at h
      obtain ⟨rfl, hrest⟩ := hcode has.1 hbs.1 h
      rw [ih has.2 hbs.2 hrest]

theorem delimited_bigEndian : Delimited (Digest.bigEndian 8) (· < Nat.pow 2 64) := by
  intro n m rest other hn hm h
  have hlimit : Nat.pow 2 64 = Nat.pow 256 8 := by decide
  have hlength : (Digest.bigEndian 8 n).length = (Digest.bigEndian 8 m).length := by
    rw [Digest.length_bigEndian, Digest.length_bigEndian]
  obtain ⟨hbytes, hrest⟩ := List.append_inj h hlength
  exact ⟨Digest.bigEndian_injective (hlimit ▸ hn) (hlimit ▸ hm) hbytes, hrest⟩

theorem delimited_sourcePreimage :
    Delimited sourcePreimage (fun script => script.toBytes.length < Nat.pow 2 64) := by
  intro script script' rest other hfits hfits' h
  rw [sourcePreimage, sourcePreimage, List.append_assoc, List.append_assoc] at h
  obtain ⟨hlength, hbytes⟩ := delimited_bigEndian hfits hfits' h
  obtain ⟨heq, hrest⟩ := List.append_inj hbytes hlength
  exact ⟨Script.toBytes_injective heq, hrest⟩

-- The digits of a constant as bytes.
def digitBytes (value : Amount) : List UInt8 :=
  value.digits.map fun c => UInt8.ofNat c.toNat

theorem toNat_ofNat_of_mem_digits {value : Amount} {c : Char} (h : c ∈ value.digits) :
    48 ≤ c.toNat ∧ (UInt8.ofNat c.toNat).toNat = c.toNat := by
  have hdigit := Text.Decimal.isDigit_iff.mp (Text.Decimal.isDigit_of_mem_ofNat h)
  refine ⟨hdigit.1, UInt8.toNat_ofNat_of_lt' ?_⟩
  simp only [UInt8.size]
  omega

theorem digitBytes_injective {a b : Amount} (h : digitBytes a = digitBytes b) : a = b := by
  have hback (value : Amount) :
      (digitBytes value).map (fun byte => Char.ofNat byte.toNat) = value.digits := by
    rw [digitBytes, List.map_map]
    calc value.digits.map _ = value.digits.map id := by
          apply List.map_congr_left
          intro c hc
          rw [Function.comp_apply, (toNat_ofNat_of_mem_digits hc).2, Char.ofNat_toNat, id]
      _ = value.digits := List.map_id _
  have hdigits : a.digits = b.digits := by rw [← hback a, ← hback b, h]
  have hread := Amount.ofDigits?_digits a
  rw [hdigits, Amount.ofDigits?_digits b] at hread
  exact (Option.some.inj hread).symm

-- No digit is the zero byte, so a constant ends at the first one.
theorem takeWhile_constantPreimage (value : Amount) (rest : List UInt8) :
    (constantPreimage value ++ rest).takeWhile (· != 0) = digitBytes value := by
  have hdigits : ∀ byte ∈ digitBytes value, (byte != 0) = true := by
    intro byte hbyte
    obtain ⟨c, hc, rfl⟩ := List.mem_map.mp hbyte
    obtain ⟨hle, heq⟩ := toNat_ofNat_of_mem_digits hc
    rw [bne_iff_ne]
    intro hzero
    rw [hzero, UInt8.toNat_zero] at heq
    omega
  have hcode : constantPreimage value ++ rest = digitBytes value ++ 0 :: rest := by
    simp [constantPreimage, digitBytes]
  rw [hcode, List.takeWhile_append_of_pos hdigits]
  simp

theorem delimited_constantPreimage : Delimited constantPreimage (fun _ => True) := by
  intro a b rest other _ _ h
  have hdigits : digitBytes a = digitBytes b := by
    rw [← takeWhile_constantPreimage a rest, h, takeWhile_constantPreimage]
  obtain rfl := digitBytes_injective hdigits
  exact ⟨rfl, List.append_cancel_left h⟩

-- The counts of a program that its preimage holds can be written in eight bytes.
def CountsFit (p : Program) : Prop :=
  p.sources.length < Nat.pow 2 64 ∧ ∀ script ∈ p.sources, script.toBytes.length < Nat.pow 2 64

-- From the front: the count says how many sources there are, each source says where it ends, and
-- what is left are the constants.
theorem preimage_injective {p q : Program} (hp : p.CountsFit) (hq : q.CountsFit)
    (h : p.preimage = q.preimage) : p = q := by
  rw [preimage, preimage, List.append_assoc, List.append_assoc] at h
  obtain ⟨hcount, hsources⟩ := delimited_bigEndian hp.1 hq.1 h
  obtain ⟨hscripts, hconstants⟩ := delimited_sourcePreimage.flatMap hp.2 hq.2 hcount hsources
  have hpool : p.constants = q.constants :=
    delimited_constantPreimage.flatMap_injective (by simp [constantPreimage])
      (fun _ _ => trivial) (fun _ _ => trivial) hconstants
  cases p
  cases q
  rw [Program.mk.injEq]
  exact ⟨hscripts, hpool⟩

theorem sha256_eq_of_fingerprint_eq {p q : Program} (h : p.fingerprint = q.fingerprint) :
    Digest.sha256 p.preimage = Digest.sha256 q.preimage :=
  Text.Hex.encode_injective (String.ofList_injective h)

-- Programs with the same fingerprint are the same, or their bytes are a collision of the digest.
theorem fingerprint_commits_to_program (p q : Program) (hp : p.CountsFit) (hq : q.CountsFit) :
    (p.preimage = q.preimage → p = q) ∧
    (p.fingerprint = q.fingerprint → p ≠ q →
      p.preimage ≠ q.preimage ∧ Digest.sha256 p.preimage = Digest.sha256 q.preimage) := by
  refine ⟨preimage_injective hp hq, ?_⟩
  intro hfingerprint hne
  exact ⟨fun h => hne (preimage_injective hp hq h), sha256_eq_of_fingerprint_eq hfingerprint⟩

-- The bytes of the constant 1 can be those of a source. Only the length in front of them differs.
theorem fingerprint_commits_shiftedBoundary :
    CountsFit ⟨[⟨[⟨0x31, 0⟩]⟩], []⟩ ∧ CountsFit ⟨[.empty], [.one]⟩ ∧
    (preimage ⟨[⟨[⟨0x31, 0⟩]⟩], []⟩).drop 16 = (preimage ⟨[.empty], [.one]⟩).drop 16 ∧
    preimage ⟨[⟨[⟨0x31, 0⟩]⟩], []⟩ ≠ preimage ⟨[.empty], [.one]⟩ := by
  have hp : CountsFit ⟨[⟨[⟨0x31, 0⟩]⟩], []⟩ := ⟨by decide, by decide⟩
  have hq : CountsFit ⟨[.empty], [.one]⟩ := ⟨by decide, by decide⟩
  refine ⟨hp, hq, by decide, fun h => ?_⟩
  have heq := (fingerprint_commits_to_program _ _ hp hq).1 h
  exact absurd heq (by decide)

end Program

end Tariff

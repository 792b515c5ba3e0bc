import Tariff.Document.Basic
import Tariff.Proofs.Json.Codec
import Tariff.Proofs.Script.Encoding

namespace Tariff

theorem Amount.ofText?_text (a : Amount) : Amount.ofText? a.text = some a := by
  rw [ofText?, text, String.toList_ofList, ofDigits?_digits]

theorem Address.ofText_text (a : Address) : Address.ofText a.text = .ok a := by
  rw [ofText, text, String.toList_ofList, Text.Hex.unmark, Text.Hex.decode_encode]
  exact dif_pos a.length_eq

namespace Document

open Json (Reader Value Token Codec IsValue)
open Json.Reader (Takes Exact)

theorem codec_address : Codec address ofAddress (fun _ => True) 0 :=
  .parsed (fun a _ => a.ofText_text) fun _ _ _ => trivial

theorem codec_script : Codec script ofScript Script.Canonical 0 :=
  .parsed (fun _ hs => Script.ofText_text_iff.2 hs) fun _ _ hs => (Script.ofText_eq_ok_iff.1 hs).2

theorem codec_tokenKind : Codec tokenKind ofTokenKind (fun _ => True) 0 :=
  .choice fun k => by cases k <;> rfl

theorem takes_literal_text (room : Nat) (s : String) :
    Takes literal room [.text (some s)] (.text s) :=
  fun _ => rfl

theorem takes_literal_number {n : Json.Numeral} {k : Nat} (h : n.value? = some (.natural k))
    (room : Nat) : Takes literal room [.number n] (.number k) := by
  intro rest
  rw [List.singleton_append, literal]
  simp only [h]

theorem exact_literal : Exact literal := by
  apply Reader.exact_of_taken
  intro room tokens after l h
  unfold literal at h
  split at h
  · rename_i n rest
    split at h
    · rename_i hn
      cases h
      exact ⟨[.number n], rfl, .number n, takes_literal_number hn room⟩
    all_goals cases h
  · rename_i s rest
    cases h
    exact ⟨[.text (some s)], rfl, .text _, takes_literal_text room s⟩
  · split at h <;> cases h

theorem amount_text (a : Amount) : Literal.amount (.text a.text) = .ok a := by
  simp only [Literal.amount, Literal.amount?, a.ofText?_text]

theorem amount_eq_ok {room : Nat} {tokens rest : List Token} {a : Amount} :
    amount room tokens = .ok (a, rest) ↔
      ∃ l, literal room tokens = .ok (l, rest) ∧ l.amount = .ok a := by
  simp only [amount]
  cases hl : literal room tokens with
  | error e => simp
  | ok result => cases ha : result.1.amount <;> simp_all [Except.map, Prod.ext_iff, and_comm]

theorem amounts_eq_ok {room : Nat} {tokens rest : List Token} {as : List Amount} :
    amounts room tokens = .ok (as, rest) ↔
      ∃ ls, Reader.list literal room tokens = .ok (ls, rest) ∧ ls.mapM Literal.amount = .ok as := by
  simp only [amounts]
  cases hls : Reader.list literal room tokens with
  | error e => simp
  | ok result =>
    cases has : result.1.mapM Literal.amount <;> simp_all [Except.map, Prod.ext_iff, and_comm]

theorem exact_amounts : Exact amounts := by
  intro room used rest after as hused h
  obtain ⟨ls, hls, has⟩ := amounts_eq_ok.1 h
  obtain ⟨hafter, htakes⟩ := Reader.exact_list exact_literal hused hls
  exact ⟨hafter, fun other => amounts_eq_ok.2 ⟨ls, htakes other, has⟩⟩

theorem codec_amount : Codec amount ofAmount (fun _ => True) 0 where
  takes {a _} _ _ _ := amount_eq_ok.2 ⟨.text a.text, rfl, amount_text a⟩
  valid_of_read _ := trivial

theorem mapM_amount_text (as : List Amount) :
    (as.map fun a => Literal.text a.text).mapM Literal.amount = .ok as := by
  induction as with
  | nil => rfl
  | cons a as ih =>
    rw [List.map_cons, List.mapM_cons, amount_text, ih]
    rfl

theorem codec_amounts : Codec amounts ofAmounts (fun _ => True) 1 where
  takes {as room} _ hroom rest := by
    obtain ⟨room, rfl⟩ := Nat.exists_eq_add_one_of_ne_zero (Nat.ne_zero_of_lt hroom)
    have hall : List.Forall₂ (Takes literal room) (Value.tokensOfItems (as.map ofAmount))
        (as.map fun a => .text a.text) := by
      rw [Value.tokensOfItems_eq_map, List.map_map, List.forall₂_map_left_iff,
        List.forall₂_map_right_iff, List.forall₂_same]
      exact fun a _ => takes_literal_text room a.text
    have hlist := Reader.takes_list (Value.isValue_of_mem_tokensOfItems (as.map ofAmount)) hall
    exact amounts_eq_ok.2 ⟨_, hlist rest, mapM_amount_text as⟩
  valid_of_read _ := trivial

-- A document is read as a script when it is a string that is read as one.
theorem document_script_eq_ok {d : String} {s : Script} :
    Reader.document script d = .ok s ↔
      ∃ t, Token.ofText d = [.text (some t)] ∧ Script.ofText t = .ok s := by
  rw [Reader.document_eq_ok]
  constructor
  · intro h
    obtain ⟨t, htext, ht⟩ := Reader.parsed_eq_ok h
    refine ⟨t, ?_, ht⟩
    unfold Reader.text at htext
    split at htext
    · rename_i htokens
      cases htext
      exact htokens
    · cases htext
  · rintro ⟨t, htokens, ht⟩
    rw [htokens]
    exact Reader.takes_parsed ht 127 []

theorem script_has_one_encoding :
    -- the byte form: a whole number of pairs first, then the first stray operand
    (∀ bytes : List UInt8, bytes.length % 2 = 1 →
      Script.ofBytes bytes = .error (.truncated bytes.length)) ∧
    (∀ (bytes : List UInt8) (position : Nat) (op : Opcode) (operand : UInt8),
      bytes.length % 2 = 0 → Script.StrayAt bytes position op operand →
      (∀ earlier < position, ∀ op operand, ¬ Script.StrayAt bytes earlier op operand) →
      Script.ofBytes bytes = .error (.strayOperand position op operand)) ∧
    (∀ bytes : List UInt8, bytes.length % 2 = 0 →
      (∀ position op operand, ¬ Script.StrayAt bytes position op operand) →
      ∃ s, Script.ofBytes bytes = .ok s ∧ s.toBytes = bytes) ∧
    (∀ s : Script, Script.ofBytes s.toBytes = .ok s ↔ s.Canonical) ∧
    -- the written form
    (∀ s : Script, Reader.document script (ofScript s).compactText = .ok s ↔ s.Canonical) ∧
    (∀ (d : String) (s : Script), Reader.document script d = .ok s ↔
      ∃ t, Token.ofText d = [.text (some t)] ∧ Script.ofText t = .ok s) ∧
    (∀ (t : String) (s : Script), Script.ofText t = .ok s →
      ofScript s =
        .text (String.ofList ('0' :: 'x' :: (Text.Hex.unmark t.toList).map Char.toLower))) ∧
    ∀ (t u : String) (s r : Script), Script.ofText t = .ok s → Script.ofText u = .ok r →
      (s = r ↔ (Text.Hex.unmark t.toList).map Char.toLower =
        (Text.Hex.unmark u.toList).map Char.toLower) := by
  refine ⟨fun _ => Script.ofBytes_of_odd, fun _ _ _ _ heven =>
    Script.ofBytes_of_strayAt heven, fun _ => Script.exists_ofBytes_of_not_strayAt,
    fun _ => Script.ofBytes_toBytes_iff, ?_, fun _ _ => document_script_eq_ok, ?_, ?_⟩
  · intro s
    have htokens : Token.ofText (ofScript s).compactText = [.text (some s.text)] :=
      Value.ofText_compactText _
    rw [document_script_eq_ok, htokens, ← Script.ofText_text_iff]
    simp
  · intro t s hs
    have htext := (Script.ofText_eq_ok_iff.1 hs).1
    rw [ofScript, ← htext, String.ofList_toList]
  · intro t u s r hs hr
    have htext := (Script.ofText_eq_ok_iff.1 hs).1
    have hother := (Script.ofText_eq_ok_iff.1 hr).1
    constructor
    · rintro rfl
      simpa using htext.symm.trans hother
    · intro heq
      rw [heq, ← hother] at htext
      exact Script.text_injective (String.toList_injective htext)

-- An operand of an addition is no stray one while a byte is missing, and an unknown opcode keeps
-- its operand.
theorem script_has_one_encoding_strayThird :
    Script.ofBytes [0x10, 5, 0xff] = .error (.truncated 3) ∧
    Script.ofBytes [0x10, 0, 0xff, 7, 0x23, 5] = .error (.strayOperand 2 .isZero 5) ∧
    (Script.Canonical ⟨[⟨0xff, 7⟩]⟩ ∧
      Reader.document script (ofScript ⟨[⟨0xff, 7⟩]⟩).compactText = .ok ⟨[⟨0xff, 7⟩]⟩) ∧
    ofScript ⟨[⟨0xff, 7⟩]⟩ = .text "0xff07" := by
  obtain ⟨hodd, hstray, -, -, hwritten, -, hshown, -⟩ := script_has_one_encoding
  have hcanonical : Script.Canonical ⟨[⟨0xff, 7⟩]⟩ := by
    rw [← Script.ofBytes_toBytes_iff]
    decide
  refine ⟨hodd _ (by decide), ?_, ⟨hcanonical, (hwritten _).2 hcanonical⟩,
    hshown "FF07" _ (by decide)⟩
  refine hstray _ 2 .isZero 5 (by decide) (by simp [Script.StrayAt]; decide) ?_
  rintro earlier hearlier op operand ⟨hopcode, hoperand, -, hne⟩
  match earlier, hearlier with
  | 0, _ => exact hne (by simpa using hoperand.symm)
  | 1, _ => cases op <;> simp [Opcode.byte] at hopcode

end Document

end Tariff

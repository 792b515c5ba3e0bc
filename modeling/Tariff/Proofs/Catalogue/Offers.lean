import Tariff.Proofs.Catalogue.Session
import Tariff.Proofs.Pricing.Agreement
import Tariff.Proofs.Program.Pool

namespace Tariff

namespace CurrencyTable

def Aligned (t : CurrencyTable) : Prop :=
  t.tokens.length = t.tokenIds.length ∧ t.tokens.length = t.kinds.length

theorem isConsistent_iff {t : CurrencyTable} : t.isConsistent = true ↔ t.Aligned := by
  simp only [isConsistent, Aligned, Bool.and_eq_true, beq_iff_eq]

theorem length_rows {t : CurrencyTable} (h : t.Aligned) : t.rows.length = t.tokens.length := by
  obtain ⟨htokenIds, hkinds⟩ := h
  simp only [rows, List.length_map, List.length_zip]
  omega

-- A row holds what the three columns have at its place.
theorem getElem?_rows {t : CurrencyTable} {index : Nat} {currency : Currency} :
    t.rows[index]? = some currency ↔
      t.tokens[index]? = some currency.token ∧ t.tokenIds[index]? = some currency.tokenId ∧
        t.kinds[index]? = some currency.kind := by
  obtain ⟨token, tokenId, kind⟩ := currency
  simp only [rows, List.getElem?_map, Option.map_eq_some_iff, List.getElem?_zip_eq_some,
    Prod.exists, Currency.mk.injEq]
  constructor
  · rintro ⟨a, b, c, ⟨⟨ha, hb⟩, hc⟩, rfl, rfl, rfl⟩
    exact ⟨ha, hb, hc⟩
  · rintro ⟨ha, hb, hc⟩
    exact ⟨token, tokenId, kind, ⟨⟨ha, hb⟩, hc⟩, rfl, rfl, rfl⟩

end CurrencyTable

namespace Offer

-- The columns of the currency table fit together, there is a currency and a source, and every
-- source, also one that no price is read from, finds its constants in the pool.
structure Sound (o : Offer) : Prop where
  aligned : o.currencies.Aligned
  currency : 0 < o.currencies.tokens.length
  source : 0 < o.program.sources.length
  constants : ∀ script ∈ o.program.sources, ∀ i ∈ script.invocations,
    i.op? = some .constant → i.operand.toNat < o.program.constants.length

-- What is wrong with an offer: each problem says that the ones before it do not arise. Of the
-- constants that are missing, the first one counts, by source and then by position.
inductive FirstProblem (o : Offer) : PricingError → Prop
  | misaligned (haligned : ¬o.currencies.Aligned) :
    FirstProblem o (.currencyMismatch o.currencies.tokens.length o.currencies.tokenIds.length
      o.currencies.kinds.length)
  | noCurrencies (haligned : o.currencies.Aligned)
    (hcurrency : o.currencies.tokens.length = 0) : FirstProblem o .noCurrencies
  | noSource (haligned : o.currencies.Aligned) (hcurrency : 0 < o.currencies.tokens.length)
    (hsource : o.program.sources.length = 0) : FirstProblem o .noSource
  | noConstant {source position : Nat} {index : UInt8} (haligned : o.currencies.Aligned)
    (hcurrency : 0 < o.currencies.tokens.length) (hsource : 0 < o.program.sources.length)
    (hmisses : o.program.Misses source position index)
    (hfirst : ∀ otherSource other missing, o.program.Misses otherSource other missing →
      Program.NotAfter source position otherSource other) :
    FirstProblem o (.scriptBounds source position index o.program.constants.length)

section Checks

variable {o : Offer}

-- The checks that come before the constants, passed one after the other.
theorem problem?_of_aligned (haligned : o.currencies.Aligned) :
    o.problem? =
      if o.currencies.tokens.isEmpty then some .noCurrencies
      else if o.program.sources.isEmpty then some .noSource
      else o.program.outOfPool?.map fun (source, position, index) =>
        .scriptBounds source position index o.program.constants.length := by
  have hconsistent := CurrencyTable.isConsistent_iff.mpr haligned
  simp only [problem?, hconsistent]
  rfl

theorem problem?_of_currency (haligned : o.currencies.Aligned)
    (hcurrency : 0 < o.currencies.tokens.length) :
    o.problem? =
      if o.program.sources.isEmpty then some .noSource
      else o.program.outOfPool?.map fun (source, position, index) =>
        .scriptBounds source position index o.program.constants.length := by
  have htokens : ¬o.currencies.tokens.isEmpty = true := by
    rw [List.isEmpty_iff_length_eq_zero]
    omega
  rw [problem?_of_aligned haligned, if_neg htokens]

theorem problem?_of_source (haligned : o.currencies.Aligned)
    (hcurrency : 0 < o.currencies.tokens.length) (hsource : 0 < o.program.sources.length) :
    o.problem? = o.program.outOfPool?.map fun (source, position, index) =>
      .scriptBounds source position index o.program.constants.length := by
  have hsources : ¬o.program.sources.isEmpty = true := by
    rw [List.isEmpty_iff_length_eq_zero]
    omega
  rw [problem?_of_currency haligned hcurrency, if_neg hsources]

theorem Sound.problem?_eq_none (h : o.Sound) : o.problem? = none := by
  rw [problem?_of_source h.aligned h.currency h.source,
    Program.outOfPool?_eq_none_iff.mpr h.constants]
  rfl

theorem FirstProblem.problem?_eq_some {error : PricingError} (h : o.FirstProblem error) :
    o.problem? = some error := by
  cases h with
  | misaligned haligned =>
    have hconsistent : o.currencies.isConsistent = false := by
      rw [Bool.eq_false_iff, ne_eq, CurrencyTable.isConsistent_iff]
      exact haligned
    simp only [problem?, hconsistent]
    rfl
  | noCurrencies haligned hcurrency =>
    rw [problem?_of_aligned haligned, if_pos (List.isEmpty_iff_length_eq_zero.mpr hcurrency)]
  | noSource haligned hcurrency hsource =>
    rw [problem?_of_currency haligned hcurrency,
      if_pos (List.isEmpty_iff_length_eq_zero.mpr hsource)]
  | noConstant haligned hcurrency hsource hmisses hfirst =>
    rw [problem?_of_source haligned hcurrency hsource,
      Program.outOfPool?_eq_some_iff.mpr ⟨hmisses, hfirst⟩]
    rfl

-- The conditions and the problems leave no offer out.
theorem sound_or_firstProblem (o : Offer) : o.Sound ∨ ∃ error, o.FirstProblem error := by
  by_cases haligned : o.currencies.Aligned
  case neg => exact .inr ⟨_, .misaligned haligned⟩
  by_cases hcurrency : o.currencies.tokens.length = 0
  · exact .inr ⟨_, .noCurrencies haligned hcurrency⟩
  have htokens : 0 < o.currencies.tokens.length := Nat.pos_of_ne_zero hcurrency
  by_cases hsource : o.program.sources.length = 0
  · exact .inr ⟨_, .noSource haligned htokens hsource⟩
  have hsources : 0 < o.program.sources.length := Nat.pos_of_ne_zero hsource
  cases hout : o.program.outOfPool? with
  | none => exact .inl ⟨haligned, htokens, hsources, Program.outOfPool?_eq_none_iff.mp hout⟩
  | some found =>
    obtain ⟨source, position, index⟩ := found
    obtain ⟨hmisses, hfirst⟩ := Program.outOfPool?_eq_some_iff.mp hout
    exact .inr ⟨_, .noConstant haligned htokens hsources hmisses hfirst⟩

theorem problem?_eq_none_iff : o.problem? = none ↔ o.Sound := by
  refine ⟨?_, Sound.problem?_eq_none⟩
  intro hnone
  obtain hsound | ⟨error, hproblem⟩ := sound_or_firstProblem o
  · exact hsound
  · cases hnone.symm.trans hproblem.problem?_eq_some

theorem problem?_eq_some_iff {error : PricingError} :
    o.problem? = some error ↔ o.FirstProblem error := by
  refine ⟨?_, FirstProblem.problem?_eq_some⟩
  intro hsome
  obtain hsound | ⟨found, hproblem⟩ := sound_or_firstProblem o
  · cases hsome.symm.trans hsound.problem?_eq_none
  · cases hsome.symm.trans hproblem.problem?_eq_some
    exact hproblem

end Checks

-- The asset says what the offer says.
structure KeptBy (o : Offer) (a : Asset) : Prop where
  lootBoxId : a.details.lootBoxId = o.lootBoxId
  name : a.details.name = o.name
  description : a.details.description = o.description
  recipient : a.details.recipient = o.recipient
  tokenUri : a.details.tokenUri = o.tokenUri
  program : a.program = o.program
  length_currencies : a.currencies.length = o.currencies.tokens.length
  currencies : ∀ (index : Nat) (currency : Currency), a.currencies[index]? = some currency ↔
    o.currencies.tokens[index]? = some currency.token ∧
      o.currencies.tokenIds[index]? = some currency.tokenId ∧
      o.currencies.kinds[index]? = some currency.kind

theorem Sound.keptBy_toAsset {o : Offer} (h : o.Sound) (id : Nat) (now : Timestamp) :
    o.KeptBy (o.toAsset id now) where
  lootBoxId := rfl
  name := rfl
  description := rfl
  recipient := rfl
  tokenUri := rfl
  program := rfl
  length_currencies := CurrencyTable.length_rows h.aligned
  currencies _ _ := CurrencyTable.getElem?_rows

end Offer

namespace Catalogue

theorem exists_register_eq_ok_iff {c : Catalogue} {o : Offer} {now : Timestamp} :
    (∃ a next, c.register o now = .ok (a, next)) ↔ o.problem? = none := by
  constructor
  · rintro ⟨a, next, hregister⟩
    cases hproblem : o.problem? with
    | none => rfl
    | some error => cases hregister.symm.trans (c.register_of_problem hproblem now)
  · intro hproblem
    exact ⟨_, _, c.register_of_sound hproblem now⟩

theorem register_eq_error_iff {c : Catalogue} {o : Offer} {now : Timestamp}
    {error : PricingError} : c.register o now = .error error ↔ o.problem? = some error := by
  refine ⟨?_, fun h => c.register_of_problem h now⟩
  intro hregister
  cases hproblem : o.problem? with
  | none => cases hregister.symm.trans (c.register_of_sound hproblem now)
  | some found =>
    cases hregister.symm.trans (c.register_of_problem hproblem now)
    rfl

end Catalogue

namespace Offer

-- An offer is sound or has a first problem, and never both.
theorem acceptance_is_exact_and_faithful (o : Offer) :
    (∀ id now, ((∃ a, o.accept id now = .ok a) ↔ o.Sound) ∧
      (∀ error, o.accept id now = .error error ↔ o.FirstProblem error) ∧
      ∀ a, o.accept id now = .ok a → a.id = id ∧ o.KeptBy a) ∧
    ∀ (c : Catalogue) (now : Timestamp),
      ((∃ a next, c.register o now = .ok (a, next)) ↔ o.Sound) ∧
      (∀ error, c.register o now = .error error ↔ o.FirstProblem error) ∧
      ∀ a next, c.register o now = .ok (a, next) →
        a.id = c.nextId ∧ next.get? c.nextId = some a ∧ o.KeptBy a := by
  constructor
  · intro id now
    refine ⟨?_, ?_, ?_⟩
    · simp only [accept_eq_ok, exists_and_left, exists_eq', and_true, problem?_eq_none_iff]
    · intro error
      rw [accept_eq_error, problem?_eq_some_iff]
    · intro a ha
      obtain ⟨hproblem, rfl⟩ := accept_eq_ok.mp ha
      exact ⟨rfl, (problem?_eq_none_iff.mp hproblem).keptBy_toAsset id now⟩
  · intro c now
    refine ⟨?_, ?_, ?_⟩
    · rw [Catalogue.exists_register_eq_ok_iff, problem?_eq_none_iff]
    · intro error
      rw [Catalogue.register_eq_error_iff, problem?_eq_some_iff]
    · intro a next hregister
      have hproblem : o.problem? = none :=
        Catalogue.exists_register_eq_ok_iff.mp ⟨a, next, hregister⟩
      cases hregister.symm.trans (c.register_of_sound hproblem now)
      exact ⟨rfl, c.get?_insert c.nextId _,
        (problem?_eq_none_iff.mp hproblem).keptBy_toAsset c.nextId now⟩

-- The two sources that no price is read from ask for constants that are not there, the first of
-- them twice. The operand of an addition names no constant.
def strayConstants : Offer :=
  { twoCurrencies with
    program :=
      ⟨[⟨[.of .constant 1]⟩, ⟨[.of .add 2, .of .constant 2, .of .constant 7]⟩,
        ⟨[.of .constant 9]⟩], [.zero, .one]⟩ }

theorem acceptance_strayConstants :
    strayConstants.FirstProblem (.scriptBounds 1 1 2 2) ∧
    ¬strayConstants.Sound ∧
    ∃ a, twoCurrencies.accept 3 .epoch = .ok a ∧ a.id = 3 ∧ a.currencies.length = 2 ∧
      a.currencies[1]? = some ⟨.zero, .one, .erc1155⟩ := by
  obtain ⟨hstray, -⟩ := acceptance_is_exact_and_faithful strayConstants
  obtain ⟨hsound, herror, -⟩ := hstray 0 .epoch
  refine ⟨(herror _).mp rfl, ?_, ?_⟩
  · intro h
    obtain ⟨a, ha⟩ := hsound.mpr h
    cases ha
  · obtain ⟨htwo, -⟩ := acceptance_is_exact_and_faithful twoCurrencies
    obtain ⟨-, -, hkept⟩ := htwo 3 .epoch
    obtain ⟨hid, hkeeps⟩ := hkept _ rfl
    exact ⟨_, rfl, hid, hkeeps.length_currencies, (hkeeps.currencies 1 _).mpr ⟨rfl, rfl, rfl⟩⟩

end Offer

end Tariff

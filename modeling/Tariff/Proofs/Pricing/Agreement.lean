import Tariff.Pricing

namespace Tariff

namespace PricePair

theorem length_pairUp (stack : List Amount) : (pairUp stack).length = stack.length / 2 := by
  fun_induction pairUp stack with
  | case1 maxUnits price rest ih =>
    simp only [List.length_cons, ih]
    omega
  | case2 stack hshort =>
    rcases stack with _ | ⟨maxUnits, _ | ⟨price, rest⟩⟩
    · rfl
    · simp
    · exact absurd rfl (hshort maxUnits price rest)

-- The cap stands below its price.
theorem getElem?_pairUp (stack : List Amount) (index : Nat) (h : 2 * index + 1 < stack.length) :
    ∃ pair, (pairUp stack)[index]? = some pair ∧ stack[2 * index]? = some pair.maxUnits ∧
      stack[2 * index + 1]? = some pair.price := by
  induction index generalizing stack with
  | zero =>
    rcases stack with _ | ⟨maxUnits, _ | ⟨price, rest⟩⟩
    · simp at h
    · simp at h
    · exact ⟨⟨maxUnits, price⟩, rfl, rfl, rfl⟩
  | succ index ih =>
    rcases stack with _ | ⟨maxUnits, _ | ⟨price, rest⟩⟩
    · simp at h
    · simp at h
    · have hrest : 2 * index + 1 < rest.length := by
        simp only [List.length_cons] at h
        omega
      exact ih rest hrest

end PricePair

namespace Asset

-- The three ways in which an evaluation ends.
theorem evaluate_cases (a : Asset) (context : Context) :
    (∃ cause, a.program.run pricingSource context = .error cause ∧
      a.evaluate context = .error (.run cause)) ∨
    (∃ stack, a.program.run pricingSource context = .ok stack ∧
      stack.length ≠ 2 * a.currencies.length ∧
      a.evaluate context =
        .error (.malformedResult (2 * a.currencies.length) stack.length)) ∨
    ∃ stack, a.program.run pricingSource context = .ok stack ∧
      stack.length = 2 * a.currencies.length ∧
      a.evaluate context = .ok (PricePair.pairUp stack) := by
  unfold evaluate Asset.stack
  cases a.program.run pricingSource context with
  | error cause => exact .inl ⟨cause, rfl, rfl⟩
  | ok stack =>
    by_cases hlen : stack.length = 2 * a.currencies.length
    · exact .inr (.inr ⟨stack, rfl, hlen, if_pos hlen⟩)
    · exact .inr (.inl ⟨stack, rfl, hlen, if_neg hlen⟩)

theorem evaluate_eq_ok {a : Asset} {context : Context} {pairs : List PricePair}
    (h : a.evaluate context = .ok pairs) :
    ∃ stack, a.program.run pricingSource context = .ok stack ∧
      stack.length = 2 * a.currencies.length ∧ pairs = PricePair.pairUp stack := by
  obtain ⟨cause, -, he⟩ | ⟨stack, -, -, he⟩ | ⟨stack, hrun, hlen, he⟩ := evaluate_cases a context
  · cases h.symm.trans he
  · cases h.symm.trans he
  · exact ⟨stack, hrun, hlen, Except.ok.inj (h.symm.trans he)⟩

theorem evaluate_eq_error {a : Asset} {context : Context} {error : PricingError}
    (h : a.evaluate context = .error error) :
    (∃ cause, a.program.run pricingSource context = .error cause ∧ error = .run cause) ∨
      ∃ stack, a.program.run pricingSource context = .ok stack ∧
        stack.length ≠ 2 * a.currencies.length ∧
        error = .malformedResult (2 * a.currencies.length) stack.length := by
  obtain ⟨cause, hrun, he⟩ | ⟨stack, hrun, hlen, he⟩ | ⟨stack, -, -, he⟩ := evaluate_cases a context
  · exact .inl ⟨cause, hrun, Except.error.inj (h.symm.trans he)⟩
  · exact .inr ⟨stack, hrun, hlen, Except.error.inj (h.symm.trans he)⟩
  · cases h.symm.trans he

theorem length_of_evaluate {a : Asset} {context : Context} {pairs : List PricePair}
    (h : a.evaluate context = .ok pairs) : pairs.length = a.currencies.length := by
  obtain ⟨stack, -, hlen, rfl⟩ := evaluate_eq_ok h
  rw [PricePair.length_pairUp]
  omega

theorem pricePair_of_le {a : Asset} {index : Nat} (h : a.currencies.length ≤ index)
    (context : Context) :
    a.pricePair index context = .error (.invalidCurrency index a.currencies.length) := by
  simp only [pricePair, currency, List.getElem?_eq_none h]
  rfl

theorem pricePair_of_lt {a : Asset} {index : Nat} (h : index < a.currencies.length)
    (context : Context) :
    a.pricePair index context =
      match a.evaluate context with
      | .error error => .error error
      | .ok pairs =>
        match pairs[index]? with
        | some pair => .ok pair
        | none => .error (.invalidCurrency index a.currencies.length) := by
  simp only [pricePair, currency, List.getElem?_eq_getElem h]
  cases a.evaluate context <;> rfl

-- All three answers come from one evaluation: they are given together, with the values from the
-- same places of the stack, or they are refused together.
theorem queries_of_lt {a : Asset} {index : Nat} (h : index < a.currencies.length)
    (context : Context) :
    (∃ stack pairs pair, a.program.run pricingSource context = .ok stack ∧
      stack.length = 2 * a.currencies.length ∧ pairs.length = a.currencies.length ∧
      pairs[index]? = some pair ∧ stack[2 * index]? = some pair.maxUnits ∧
      stack[2 * index + 1]? = some pair.price ∧
      a.cost context = .ok ⟨smallestCap pairs, pairs.map (·.price), pairs⟩ ∧
      a.pricePair index context = .ok pair ∧ a.price index context = .ok pair.price) ∨
    ∃ error, a.evaluate context = .error error ∧ a.cost context = .error error ∧
      a.pricePair index context = .error error ∧ a.price index context = .error error := by
  have hpair := pricePair_of_lt h context
  cases he : a.evaluate context with
  | error error =>
    rw [he] at hpair
    refine .inr ⟨error, rfl, ?_, hpair, ?_⟩
    · simp only [cost, he]
      rfl
    · simp only [price, hpair]
      rfl
  | ok pairs =>
    obtain ⟨stack, hrun, hlen, rfl⟩ := evaluate_eq_ok he
    obtain ⟨pair, hget, hcap, hprice⟩ := PricePair.getElem?_pairUp stack index (by omega)
    simp only [he, hget] at hpair
    refine .inl ⟨stack, _, pair, hrun, hlen, length_of_evaluate he, hget, hcap, hprice, ?_, hpair, ?_⟩
    · simp only [cost, he]
      rfl
    · simp only [price, hpair]
      rfl

-- Past the check of the index, one question fails where the other does, and for the same reason.
theorem single_and_bulk_queries_agree (a : Asset) (context : Context) (index : Nat) :
    (a.currencies.length ≤ index →
      a.price index context = .error (.invalidCurrency index a.currencies.length) ∧
      a.pricePair index context = .error (.invalidCurrency index a.currencies.length)) ∧
    (index < a.currencies.length →
      ((∃ cost, a.cost context = .ok cost) ↔ ∃ pair, a.pricePair index context = .ok pair) ∧
      ((∃ pair, a.pricePair index context = .ok pair) ↔
        ∃ price, a.price index context = .ok price) ∧
      (∀ cost pair price, a.cost context = .ok cost → a.pricePair index context = .ok pair →
        a.price index context = .ok price →
        ∃ stack, a.program.run 0 context = .ok stack ∧
          stack.length = 2 * a.currencies.length ∧
          cost.pairs.length = a.currencies.length ∧ cost.prices.length = a.currencies.length ∧
          cost.pairs[index]? = some pair ∧ stack[2 * index]? = some pair.maxUnits ∧
          pair.price = price ∧ cost.prices[index]? = some price ∧
          stack[2 * index + 1]? = some price) ∧
      ∀ error, a.cost context = .error error →
        a.pricePair index context = .error error ∧ a.price index context = .error error ∧
        ((∃ cause, a.program.run 0 context = .error cause ∧ error = .run cause) ∨
          ∃ stack, a.program.run 0 context = .ok stack ∧
            stack.length ≠ 2 * a.currencies.length ∧
            error = .malformedResult (2 * a.currencies.length) stack.length)) ∧
    ∀ currency pairs, a.currency index = .ok currency → a.evaluate context = .ok pairs →
      index < pairs.length := by
  refine ⟨?_, ?_, ?_⟩
  · intro hle
    have hpair := pricePair_of_le hle context
    refine ⟨?_, hpair⟩
    simp only [price, hpair]
    rfl
  · intro hlt
    obtain ⟨stack, pairs, pair, hrun, hlen, hcount, hget, hcap, hprice, hc, hp, hv⟩ |
      ⟨error, he, hc, hp, hv⟩ := queries_of_lt hlt context
    · refine ⟨⟨fun _ => ⟨pair, hp⟩, fun _ => ⟨_, hc⟩⟩, ⟨fun _ => ⟨_, hv⟩, fun _ => ⟨pair, hp⟩⟩, ?_, ?_⟩
      · intro cost found value hcost hfound hvalue
        cases hc.symm.trans hcost
        cases hp.symm.trans hfound
        cases hv.symm.trans hvalue
        refine ⟨stack, hrun, hlen, hcount, ?_, hget, hcap, rfl, ?_, hprice⟩
        · rw [List.length_map, hcount]
        · rw [List.getElem?_map, hget, Option.map_some]
      · intro error herror
        cases hc.symm.trans herror
    · refine ⟨⟨?_, ?_⟩, ⟨?_, ?_⟩, ?_, ?_⟩
      · rintro ⟨cost, hcost⟩
        cases hc.symm.trans hcost
      · rintro ⟨pair, hpair⟩
        cases hp.symm.trans hpair
      · rintro ⟨pair, hpair⟩
        cases hp.symm.trans hpair
      · rintro ⟨price, hprice⟩
        cases hv.symm.trans hprice
      · intro cost pair price hcost
        cases hc.symm.trans hcost
      · intro found hfound
        cases hc.symm.trans hfound
        exact ⟨hp, hv, evaluate_eq_error he⟩
  · intro currency pairs hcurrency he
    rw [length_of_evaluate he]
    apply Nat.lt_of_not_le
    intro hle
    simp only [Asset.currency, List.getElem?_eq_none hle] at hcurrency
    cases hcurrency

end Asset

-- At most five units in either currency: three for each in the first, and in the second as much as
-- units are bought.
def Offer.twoCurrencies : Offer where
  lootBoxId := 0
  name := "two currencies"
  description := ""
  recipient := .zero
  currencies := ⟨[.zero, .zero], [.zero, .one], [.erc20, .erc1155]⟩
  tokenUri := ""
  program :=
    ⟨[⟨[.of .constant 0, .of .constant 1, .of .constant 0, .of .context 1]⟩],
      [⟨5, by decide⟩, ⟨3, by decide⟩]⟩

theorem Asset.queries_agree_twoCurrencies :
    ∃ a pair price, Offer.twoCurrencies.accept 1 .epoch = .ok a ∧
      a.pricePair 1 ⟨.zero, .one⟩ = .ok pair ∧ a.price 1 ⟨.zero, .one⟩ = .ok price ∧
      pair.price = price ∧ price = .one ∧
      a.price 2 ⟨.zero, .one⟩ = .error (.invalidCurrency 2 2) := by
  let a := Offer.twoCurrencies.toAsset 1 .epoch
  obtain ⟨-, hwithin, -⟩ := single_and_bulk_queries_agree a ⟨.zero, .one⟩ 1
  obtain ⟨hbeyond, -, -⟩ := single_and_bulk_queries_agree a ⟨.zero, .one⟩ 2
  obtain ⟨hpair, hprice, hvalues, -⟩ := hwithin (by decide)
  obtain ⟨pair, hp⟩ := hpair.mp ⟨_, rfl⟩
  obtain ⟨price, hv⟩ := hprice.mp ⟨pair, hp⟩
  obtain ⟨stack, hrun, -, -, -, -, -, heq, -, hslot⟩ := hvalues _ pair price rfl hp hv
  refine ⟨a, pair, price, rfl, hp, hv, heq, ?_, (hbeyond (by decide)).1⟩
  cases hrun
  exact (Option.some.inj hslot).symm

end Tariff

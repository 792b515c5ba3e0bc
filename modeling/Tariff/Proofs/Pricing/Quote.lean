import Tariff.Proofs.Catalogue.Offers

namespace Tariff

theorem Offer.currencies_of_problem?_eq_none {o : Offer} (h : o.problem? = none) :
    0 < o.currencies.rows.length := by
  have hsound := problem?_eq_none_iff.mp h
  rw [CurrencyTable.length_rows hsound.aligned]
  exact hsound.currency

-- Both of the next two are about the fold from any first cap.
theorem foldl_cap_le (rest : List PricePair) (cap : Amount) :
    (rest.foldl (fun cap pair => cap.min pair.maxUnits) cap).toNat ≤ cap.toNat ∧
      ∀ pair ∈ rest,
        (rest.foldl (fun cap pair => cap.min pair.maxUnits) cap).toNat ≤ pair.maxUnits.toNat := by
  induction rest generalizing cap with
  | nil => simp
  | cons first rest ih =>
    obtain ⟨hcap, hrest⟩ := ih (cap.min first.maxUnits)
    have hmin : (cap.min first.maxUnits).toNat ≤ cap.toNat ∧
        (cap.min first.maxUnits).toNat ≤ first.maxUnits.toNat := by
      unfold Amount.min
      split <;> omega
    refine ⟨Nat.le_trans hcap hmin.1, ?_⟩
    intro pair hpair
    rcases List.mem_cons.mp hpair with rfl | hmem
    · exact Nat.le_trans hcap hmin.2
    · exact hrest pair hmem

theorem foldl_cap_mem (rest : List PricePair) (cap : Amount) :
    rest.foldl (fun cap pair => cap.min pair.maxUnits) cap = cap ∨
      ∃ pair ∈ rest,
        pair.maxUnits = rest.foldl (fun cap pair => cap.min pair.maxUnits) cap := by
  induction rest generalizing cap with
  | nil => exact .inl rfl
  | cons first rest ih =>
    rcases ih (cap.min first.maxUnits) with heq | ⟨pair, hmem, heq⟩
    · have hmin : cap.min first.maxUnits = cap ∨ first.maxUnits = cap.min first.maxUnits := by
        unfold Amount.min
        split
        · exact .inr rfl
        · exact .inl rfl
      rcases hmin with hcap | hfirst
      · exact .inl (heq.trans hcap)
      · exact .inr ⟨first, List.mem_cons_self, hfirst.trans heq.symm⟩
    · exact .inr ⟨pair, List.mem_cons_of_mem _ hmem, heq⟩

theorem smallestCap_le {pairs : List PricePair} {pair : PricePair} (h : pair ∈ pairs) :
    (smallestCap pairs).toNat ≤ pair.maxUnits.toNat := by
  cases pairs with
  | nil => cases h
  | cons first rest =>
    obtain ⟨hfirst, hrest⟩ := foldl_cap_le rest first.maxUnits
    rcases List.mem_cons.mp h with rfl | hmem
    · exact hfirst
    · exact hrest pair hmem

theorem smallestCap_mem {pairs : List PricePair} (h : 0 < pairs.length) :
    ∃ pair ∈ pairs, pair.maxUnits = smallestCap pairs := by
  cases pairs with
  | nil => cases h
  | cons first rest =>
    rcases foldl_cap_mem rest first.maxUnits with heq | ⟨pair, hmem, heq⟩
    · exact ⟨first, List.mem_cons_self, heq.symm⟩
    · exact ⟨pair, List.mem_cons_of_mem _ hmem, heq⟩

namespace Asset

-- The conditions of a quote, over whole numbers, with the cost that it is taken from.
structure Granted (a : Asset) (index : Nat) (context : Context) (cost : Cost) (q : Quote) :
    Prop where
  units_pos : 0 < context.units.toNat
  index_lt : index < a.currencies.length
  cost_eq : a.cost context = .ok cost
  pair_eq : cost.pairs[index]? = some ⟨q.maxUnits, q.price⟩
  price_eq : cost.prices[index]? = some q.price
  units_le : context.units.toNat ≤ q.maxUnits.toNat
  fits : q.price.toNat * context.units.toNat < Nat.pow 2 256
  currencyIndex_eq : q.currencyIndex = index
  units_eq : q.units = context.units
  total_eq : q.total.toNat = q.price.toNat * context.units.toNat

-- Why there is no quote: each reason says that the ones before it do not apply.
inductive Refused (a : Asset) (index : Nat) (context : Context) : PricingError → Prop
  | noUnits (hunits : context.units.toNat = 0) : Refused a index context .noUnits
  | noCurrency (hunits : 0 < context.units.toNat) (hindex : a.currencies.length ≤ index) :
    Refused a index context (.invalidCurrency index a.currencies.length)
  | noCost {error : PricingError} (hunits : 0 < context.units.toNat)
    (hindex : index < a.currencies.length) (hcost : a.cost context = .error error) :
    Refused a index context error
  | noStock {cost : Cost} {pair : PricePair} (hunits : 0 < context.units.toNat)
    (hindex : index < a.currencies.length) (hcost : a.cost context = .ok cost)
    (hpair : cost.pairs[index]? = some pair)
    (hcap : pair.maxUnits.toNat < context.units.toNat) :
    Refused a index context (.insufficientStock context.units pair.maxUnits)
  | noPayment {cost : Cost} {pair : PricePair} (hunits : 0 < context.units.toNat)
    (hindex : index < a.currencies.length) (hcost : a.cost context = .ok cost)
    (hpair : cost.pairs[index]? = some pair)
    (hcap : context.units.toNat ≤ pair.maxUnits.toNat)
    (htotal : Nat.pow 2 256 ≤ pair.price.toNat * context.units.toNat) :
    Refused a index context (.paymentOverflow pair.price context.units)

theorem cost_eq_ok {a : Asset} {context : Context} {cost : Cost}
    (h : a.cost context = .ok cost) :
    ∃ pairs, a.evaluate context = .ok pairs ∧ pairs.length = a.currencies.length ∧
      cost = ⟨smallestCap pairs, pairs.map (·.price), pairs⟩ := by
  unfold Asset.cost at h
  cases he : a.evaluate context with
  | error error =>
    rw [he] at h
    cases h
  | ok pairs =>
    rw [he] at h
    cases h
    exact ⟨pairs, rfl, length_of_evaluate he, rfl⟩

theorem quote_of_units_eq_zero {a : Asset} {index : Nat} {context : Context}
    (h : context.units.toNat = 0) : a.quote index context = .error .noUnits := by
  have hzero : context.units.isZero = true := beq_iff_eq.mpr h
  simp only [quote, hzero]
  rfl

theorem quote_of_units_pos (a : Asset) (index : Nat) {context : Context}
    (h : 0 < context.units.toNat) :
    a.quote index context =
      match a.pricePair index context with
      | .error error => .error error
      | .ok pair =>
        if pair.maxUnits.toNat < context.units.toNat then
          .error (.insufficientStock context.units pair.maxUnits)
        else
          match pair.price.mul? context.units with
          | none => .error (.paymentOverflow pair.price context.units)
          | some total => .ok ⟨index, context.units, pair.maxUnits, pair.price, total⟩ := by
  have hpos : context.units.isZero = false := beq_false_of_ne (by omega)
  simp only [quote, hpos]
  cases a.pricePair index context with
  | error error => rfl
  | ok pair =>
    by_cases hcap : pair.maxUnits.toNat < context.units.toNat
    · simp only [bind, Except.bind, hcap, if_true]
      rfl
    · simp only [bind, Except.bind, hcap, if_false]
      rfl

theorem pricePair_of_cost_ok {a : Asset} {index : Nat} {context : Context} {cost : Cost}
    {pair : PricePair} (hindex : index < a.currencies.length) (hcost : a.cost context = .ok cost)
    (hpair : cost.pairs[index]? = some pair) : a.pricePair index context = .ok pair := by
  obtain ⟨stack, pairs, found, -, -, -, hfound, -, -, hc, hp, -⟩ | ⟨error, -, hc, -, -⟩ :=
    queries_of_lt hindex context
  · cases hc.symm.trans hcost
    cases hfound.symm.trans hpair
    exact hp
  · cases hc.symm.trans hcost

theorem pricePair_of_cost_error {a : Asset} {index : Nat} {context : Context}
    {error : PricingError} (hindex : index < a.currencies.length)
    (hcost : a.cost context = .error error) : a.pricePair index context = .error error := by
  obtain ⟨stack, pairs, found, -, -, -, -, -, -, hc, -, -⟩ | ⟨found, -, hc, hp, -⟩ :=
    queries_of_lt hindex context
  · cases hc.symm.trans hcost
  · cases hc.symm.trans hcost
    exact hp

theorem quote_of_granted {a : Asset} {index : Nat} {context : Context} {cost : Cost} {q : Quote}
    (h : Granted a index context cost q) : a.quote index context = .ok q := by
  have htotal : q.price.mul? context.units = some q.total :=
    Amount.ofNat?_eq_some_iff.mpr h.total_eq
  rw [quote_of_units_pos a index h.units_pos, pricePair_of_cost_ok h.index_lt h.cost_eq h.pair_eq]
  simp only [if_neg (Nat.not_lt_of_le h.units_le), htotal]
  cases q
  cases h.currencyIndex_eq
  cases h.units_eq
  rfl

theorem quote_of_refused {a : Asset} {index : Nat} {context : Context} {error : PricingError}
    (h : Refused a index context error) : a.quote index context = .error error := by
  cases h with
  | noUnits hunits => exact quote_of_units_eq_zero hunits
  | noCurrency hunits hindex => rw [quote_of_units_pos a index hunits, pricePair_of_le hindex]
  | noCost hunits hindex hcost =>
    rw [quote_of_units_pos a index hunits, pricePair_of_cost_error hindex hcost]
  | noStock hunits hindex hcost hpair hcap =>
    rw [quote_of_units_pos a index hunits, pricePair_of_cost_ok hindex hcost hpair]
    exact if_pos hcap
  | @noPayment cost pair hunits hindex hcost hpair hcap htotal =>
    have hnone : pair.price.mul? context.units = none := Amount.ofNat?_eq_none_iff.mpr htotal
    rw [quote_of_units_pos a index hunits, pricePair_of_cost_ok hindex hcost hpair]
    simp only [if_neg (Nat.not_lt_of_le hcap), hnone]

-- The conditions and the reasons leave no request out.
theorem granted_or_refused (a : Asset) (index : Nat) (context : Context) :
    (∃ cost q, Granted a index context cost q) ∨ ∃ error, Refused a index context error := by
  by_cases hunits : context.units.toNat = 0
  · exact .inr ⟨_, .noUnits hunits⟩
  have hpos : 0 < context.units.toNat := Nat.pos_of_ne_zero hunits
  by_cases hindex : a.currencies.length ≤ index
  · exact .inr ⟨_, .noCurrency hpos hindex⟩
  have hlt : index < a.currencies.length := Nat.lt_of_not_le hindex
  obtain ⟨stack, pairs, pair, -, -, -, hpair, -, -, hcost, -, -⟩ | ⟨error, -, hcost, -, -⟩ :=
    queries_of_lt hlt context
  · by_cases hcap : pair.maxUnits.toNat < context.units.toNat
    · exact .inr ⟨_, .noStock hpos hlt hcost hpair hcap⟩
    have hle : context.units.toNat ≤ pair.maxUnits.toNat := Nat.le_of_not_lt hcap
    by_cases hfits : pair.price.toNat * context.units.toNat < Nat.pow 2 256
    · refine .inl ⟨_, ⟨index, context.units, pair.maxUnits, pair.price, ⟨_, hfits⟩⟩, hpos, hlt,
        hcost, hpair, ?_, hle, hfits, rfl, rfl, rfl⟩
      rw [List.getElem?_map, hpair, Option.map_some]
    · exact .inr ⟨_, .noPayment hpos hlt hcost hpair hle (Nat.le_of_not_lt hfits)⟩
  · exact .inr ⟨_, .noCost hpos hlt hcost⟩

theorem quote_eq_ok_iff {a : Asset} {index : Nat} {context : Context} {q : Quote} :
    a.quote index context = .ok q ↔ ∃ cost, Granted a index context cost q := by
  constructor
  · intro hq
    obtain ⟨cost, found, hgranted⟩ | ⟨error, hrefused⟩ := granted_or_refused a index context
    · cases (quote_of_granted hgranted).symm.trans hq
      exact ⟨cost, hgranted⟩
    · cases (quote_of_refused hrefused).symm.trans hq
  · rintro ⟨cost, hgranted⟩
    exact quote_of_granted hgranted

theorem quote_eq_error_iff {a : Asset} {index : Nat} {context : Context} {error : PricingError} :
    a.quote index context = .error error ↔ Refused a index context error := by
  constructor
  · intro he
    obtain ⟨cost, found, hgranted⟩ | ⟨error, hrefused⟩ := granted_or_refused a index context
    · cases (quote_of_granted hgranted).symm.trans he
    · cases (quote_of_refused hrefused).symm.trans he
      exact hrefused
  · exact quote_of_refused

-- Some currency is out of stock exactly when the smallest cap is exceeded.
theorem exists_insufficientStock_iff {a : Asset} {context : Context} {cost : Cost}
    (hcurrencies : 0 < a.currencies.length) (hunits : 0 < context.units.toNat)
    (hcost : a.cost context = .ok cost) :
    (∃ index < a.currencies.length, ∃ requested cap,
      a.quote index context = .error (.insufficientStock requested cap)) ↔
        cost.maxUnits.toNat < context.units.toNat := by
  obtain ⟨pairs, he, hlen, rfl⟩ := cost_eq_ok hcost
  constructor
  · rintro ⟨index, -, requested, cap, hquote⟩
    cases quote_eq_error_iff.mp hquote with
    | noCost _ _ herror => cases hcost.symm.trans herror
    | noStock _ _ hfound hpair hcap =>
      cases hcost.symm.trans hfound
      exact Nat.lt_of_le_of_lt (smallestCap_le (List.mem_of_getElem? hpair)) hcap
  · intro hlt
    obtain ⟨pair, hmem, hcap⟩ := smallestCap_mem (hlen ▸ hcurrencies)
    obtain ⟨index, hindex, hget⟩ := List.getElem_of_mem hmem
    have hpair : pairs[index]? = some pair := List.getElem?_eq_some_iff.mpr ⟨hindex, hget⟩
    refine ⟨index, hlen ▸ hindex, _, _,
      quote_of_refused (.noStock hunits (hlen ▸ hindex) hcost hpair ?_)⟩
    rw [hcap]
    exact hlt

-- A quote is never a product that has wrapped, and where none is given, the first condition that
-- fails says why.
theorem quote_is_cost_multiplied_out {offer : Offer} {id : Nat} {now : Timestamp} {a : Asset}
    (h : offer.accept id now = .ok a) (context : Context) :
    (∀ index q, a.quote index context = .ok q ↔ ∃ cost, Granted a index context cost q) ∧
    (∀ index error, a.quote index context = .error error ↔ Refused a index context error) ∧
    ∀ cost, a.cost context = .ok cost →
      (∀ pair ∈ cost.pairs, cost.maxUnits.toNat ≤ pair.maxUnits.toNat) ∧
      (∃ pair ∈ cost.pairs, pair.maxUnits = cost.maxUnits) ∧
      (0 < context.units.toNat →
        ((∃ index < a.currencies.length, ∃ requested cap,
          a.quote index context = .error (.insufficientStock requested cap)) ↔
            cost.maxUnits.toNat < context.units.toNat)) := by
  refine ⟨fun _ _ => quote_eq_ok_iff, fun _ _ => quote_eq_error_iff, ?_⟩
  intro cost hcost
  have hcurrencies : 0 < a.currencies.length := by
    obtain ⟨hproblem, rfl⟩ := Offer.accept_eq_ok.mp h
    exact Offer.currencies_of_problem?_eq_none hproblem
  refine ⟨?_, ?_, fun hunits => exists_insufficientStock_iff hcurrencies hunits hcost⟩
  · obtain ⟨pairs, -, -, rfl⟩ := cost_eq_ok hcost
    exact fun pair hmem => smallestCap_le hmem
  · obtain ⟨pairs, -, hlen, rfl⟩ := cost_eq_ok hcost
    exact smallestCap_mem (hlen ▸ hcurrencies)

-- Four units are within both caps, six are beyond them.
theorem quote_twoCurrencies :
    ∃ a, Offer.twoCurrencies.accept 1 .epoch = .ok a ∧
      a.quote 1 ⟨.zero, ⟨4, by decide⟩⟩ =
        .ok ⟨1, ⟨4, by decide⟩, ⟨5, by decide⟩, ⟨4, by decide⟩, ⟨16, by decide⟩⟩ ∧
      ∃ index < a.currencies.length, ∃ requested cap,
        a.quote index ⟨.zero, ⟨6, by decide⟩⟩ = .error (.insufficientStock requested cap) := by
  have haccept : Offer.twoCurrencies.accept 1 .epoch =
      .ok (Offer.twoCurrencies.toAsset 1 .epoch) := rfl
  obtain ⟨hfour, -, -⟩ := quote_is_cost_multiplied_out haccept ⟨.zero, ⟨4, by decide⟩⟩
  obtain ⟨-, -, hsix⟩ := quote_is_cost_multiplied_out haccept ⟨.zero, ⟨6, by decide⟩⟩
  refine ⟨_, haccept, (hfour 1 _).mpr ⟨_, by decide, by decide, rfl, rfl, rfl, by decide, by decide,
    rfl, rfl, rfl⟩, ?_⟩
  obtain ⟨-, -, hstock⟩ := hsix _ rfl
  exact (hstock (by decide)).mpr (by decide)

end Asset

end Tariff

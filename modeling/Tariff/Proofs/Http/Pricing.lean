import Tariff.Command.Basic
import Tariff.Proofs.Catalogue.Refinement
import Tariff.Proofs.Http.Form
import Tariff.Proofs.Http.History
import Tariff.Proofs.Pricing.Quote

namespace Tariff

namespace Context

-- The buyer of a text. Without one the zero address buys.
inductive Names : Option String → Address → Prop
  | absent : Names none .zero
  | given {s : String} {buyer : Address} (h : Address.ofText s = .ok buyer) : Names (some s) buyer

-- The units of a text, one without a text.
inductive Counts : Option String → Amount → Prop
  | absent : Counts none .one
  | given {s : String} {units : Amount} (h : Amount.ofText? s = some units) : Counts (some s) units

theorem buyerOf_of_names {text : Option String} {buyer : Address} (h : Names text buyer) :
    buyerOf text = .ok buyer := by
  cases h with
  | absent => rfl
  | given h => simp [buyerOf, h, Except.mapError]

theorem unitsOf_of_counts {text : Option String} {units : Amount} (h : Counts text units) :
    unitsOf text = .ok units := by
  cases h with
  | absent => rfl
  | given h => simp [unitsOf, h]

theorem ofTexts_of_names {buyer units : Option String} {a : Address} {n : Amount}
    (hbuyer : Names buyer a) (hunits : Counts units n) : ofTexts buyer units = .ok ⟨a, n⟩ := by
  rw [ofTexts, buyerOf_of_names hbuyer, unitsOf_of_counts hunits]
  rfl

theorem ofTexts_of_no_buyer {s : String} {error : Address.Error}
    (h : Address.ofText s = .error error) (units : Option String) :
    ofTexts (some s) units = .error (.buyer error) := by
  simp only [ofTexts, buyerOf, h]
  rfl

theorem ofTexts_of_no_units {buyer : Option String} {a : Address} (hbuyer : Names buyer a)
    {s : String} (h : Amount.ofText? s = none) : ofTexts buyer (some s) = .error (.units s) := by
  simp only [ofTexts, buyerOf_of_names hbuyer, unitsOf, h]
  rfl

end Context

-- A command line always has a text for the units: that of one, unless another is given.
theorem Command.contextOf_of_names {buyer units : Option String} {a : Address} {n : Amount}
    (hbuyer : Context.Names buyer a) (hunits : Context.Counts units n) :
    contextOf buyer (some (units.getD "1")) = .ok ⟨a, n⟩ := by
  have hcounts : Context.Counts (some (units.getD "1")) n := by
    cases hunits with
    | absent => exact .given (by decide)
    | given h => exact .given h
  rw [contextOf, Context.ofTexts_of_names hbuyer hcounts]
  rfl

namespace Asset

theorem evaluate_ne_unknownAsset (a : Asset) (context : Context) (id : Nat) :
    a.evaluate context ≠ .error (.unknownAsset id) := by
  intro h
  obtain ⟨cause, -, heq⟩ | ⟨stack, -, -, heq⟩ := evaluate_eq_error h
  · cases heq
  · cases heq

theorem cost_ne_unknownAsset (a : Asset) (context : Context) (id : Nat) :
    a.cost context ≠ .error (.unknownAsset id) := by
  have hevaluate := a.evaluate_ne_unknownAsset context id
  intro h
  unfold cost at h
  cases he : a.evaluate context with
  | ok pairs =>
    rw [he] at h
    cases h
  | error error =>
    rw [he] at h hevaluate
    cases h
    exact hevaluate rfl

theorem price_of_le {a : Asset} {index : Nat} (h : a.currencies.length ≤ index)
    (context : Context) :
    a.price index context = .error (.invalidCurrency index a.currencies.length) := by
  rw [price, pricePair_of_le h]
  rfl

theorem price_ne_unknownAsset (a : Asset) (index : Nat) (context : Context) (id : Nat) :
    a.price index context ≠ .error (.unknownAsset id) := by
  intro h
  by_cases hindex : index < a.currencies.length
  · obtain ⟨stack, pairs, pair, -, -, -, -, -, -, -, -, hprice⟩ | ⟨error, -, hcost, -, hprice⟩ :=
      queries_of_lt hindex context
    · cases h.symm.trans hprice
    · cases h.symm.trans hprice
      exact a.cost_ne_unknownAsset context id hcost
  · cases h.symm.trans (price_of_le (Nat.le_of_not_lt hindex) context)

theorem quote_ne_unknownAsset (a : Asset) (index : Nat) (context : Context) (id : Nat) :
    a.quote index context ≠ .error (.unknownAsset id) := by
  intro h
  cases quote_eq_error_iff.mp h with
  | noCost _ _ hcost => exact a.cost_ne_unknownAsset context id hcost

-- A price is given in a currency of the list, and the cost has it at the same place.
theorem price_eq_ok {a : Asset} {index : Nat} {context : Context} {price : Amount}
    (h : a.price index context = .ok price) :
    (∃ currency, a.currencies[index]? = some currency) ∧
      ∃ cost, a.cost context = .ok cost ∧ cost.prices[index]? = some price := by
  by_cases hindex : index < a.currencies.length
  · refine ⟨⟨_, List.getElem?_eq_getElem hindex⟩, ?_⟩
    obtain ⟨stack, pairs, pair, -, -, -, hpair, -, -, hcost, -, hprice⟩ |
        ⟨error, -, -, -, hprice⟩ := queries_of_lt hindex context
    · cases h.symm.trans hprice
      refine ⟨_, hcost, ?_⟩
      rw [List.getElem?_map, hpair, Option.map_some]
    · cases h.symm.trans hprice
  · cases h.symm.trans (price_of_le (Nat.le_of_not_lt hindex) context)

end Asset

namespace Catalogue

variable {c : Catalogue} {id : Nat} {a : Asset}

theorem find_eq_ok (h : c.get? id = some a) : c.find id = .ok a := by
  rw [find, h]

theorem price_of_get? (h : c.get? id = some a) (index : Nat) (context : Context) :
    c.price id index context = a.price index context := by
  rw [price, find_eq_ok h]
  rfl

theorem cost_of_get? (h : c.get? id = some a) (context : Context) :
    c.cost id context = a.cost context := by
  rw [cost, find_eq_ok h]
  rfl

theorem quote_of_get? (h : c.get? id = some a) (index : Nat) (context : Context) :
    c.quote id index context = a.quote index context := by
  rw [quote, find_eq_ok h]
  rfl

end Catalogue

namespace Json.Value

def member? : Value → String → Option Value
  | .object members, key => members.lookup key
  | _, _ => none

def item? : Value → Nat → Option Value
  | .list items, index => items[index]?
  | _, _ => none

end Json.Value

namespace Http

open Json (Value)

def Response.member? (r : Response) (key : String) : Option Value :=
  match r.body with
  | .json value => value.member? key
  | _ => none

namespace Service

open Catalogue (Acceptance Holds)

-- A response to what the catalogue has said about an asset.
structure Answers {α : Type} (c : Catalogue) (id : Nat) (outcome : Except PricingError α)
    (shows : α → Value → Prop) (response : Response) : Prop where
  success : response.status = 200 ↔ ∃ value, outcome = .ok value
  missing : response.status = 404 ↔ c.get? id = none
  refused : response.status ≠ 200 → response.status ≠ 404 →
    ∃ error, outcome = .error error ∧ response = .error 400 error.message
  shown : ∀ value, outcome = .ok value → ∃ body, shows value body ∧ response = .json 200 body

-- A response to a question with a buyer and units: the buyer is read first, then the units, and
-- what they say is put to the catalogue.
structure Relays {α : Type} (c : Catalogue) (id : Nat) (q : Query)
    (ask : Context → Except PricingError α) (shows : α → Value → Prop) (response : Response) :
    Prop where
  noBuyer : ∀ text error, q.buyer = some text → Address.ofText text = .error error →
    response = .error 400 ("Invalid buyer: " ++ error.message)
  noUnits : ∀ buyer text, Context.Names q.buyer buyer → q.units = some text →
    Amount.ofText? text = none → response = .error 400 ("Invalid units: " ++ text)
  context : ∀ buyer units, Context.Names q.buyer buyer → Context.Counts q.units units →
    Command.contextOf q.buyer (some (q.units.getD "1")) = .ok ⟨buyer, units⟩ ∧
      Answers c id (ask ⟨buyer, units⟩) shows response

def PriceShown (c : Catalogue) (id index : Nat) (price : Amount) (body : Value) : Prop :=
  ∃ currency, (c.get? id).bind (·.currencies[index]?) = some currency ∧
    body = .object [("asset_id", .natural id), ("currency_index", .natural index),
      ("currency", Document.ofCurrency currency), ("price", .text price.text)]

def CostShown (id : Nat) (cost : Cost) (body : Value) : Prop :=
  body = .object (("asset_id", .natural id) :: Document.costMembers cost)

def QuoteShown (id : Nat) (quote : Quote) (body : Value) : Prop :=
  body = .object (("asset_id", .natural id) :: Document.quoteMembers quote)

theorem refusal_of_ne {error : PricingError} (h : ∀ id, error ≠ .unknownAsset id) :
    refusal error = .error 400 error.message := by
  unfold refusal
  split
  · rename_i id
    exact absurd rfl (h id)
  · rfl

-- Only an asset that is not there makes the catalogue say so, and nothing else is not found.
theorem answers_of_outcome {α : Type} {c : Catalogue} {id : Nat}
    {outcome : Except PricingError α} {shows : α → Value → Prop} {response : Response}
    (hmissing : c.get? id = none → outcome = .error (.unknownAsset id))
    (hfound : ∀ a, c.get? id = some a → ∀ other, outcome ≠ .error (.unknownAsset other))
    (hrefused : ∀ error, outcome = .error error → response = refusal error)
    (hshown : ∀ value, outcome = .ok value → ∃ body, shows value body ∧ response = .json 200 body) :
    Answers c id outcome shows response := by
  cases hget : c.get? id with
  | none =>
    have houtcome := hmissing hget
    have hresponse := hrefused _ houtcome
    constructor
    · simp [hresponse, refusal, houtcome]
    · simp [hresponse, refusal, hget]
    · intro _ hne
      simp [hresponse, refusal] at hne
    · exact hshown
  | some a =>
    cases houtcome : outcome with
    | ok value =>
      obtain ⟨body, hbody, hresponse⟩ := hshown value houtcome
      constructor
      · simp [hresponse]
      · simp [hresponse, hget]
      · intro hne
        simp [hresponse] at hne
      · rw [← houtcome]
        exact hshown
    | error error =>
      have hknown : ∀ other, error ≠ .unknownAsset other := by
        intro other heq
        rw [heq] at houtcome
        exact hfound a hget other houtcome
      have hresponse : response = .error 400 error.message := by
        rw [hrefused error houtcome, refusal_of_ne hknown]
      constructor
      · simp [hresponse]
      · simp [hresponse, hget]
      · intro _ _
        exact ⟨error, rfl, hresponse⟩
      · intro value heq
        cases heq

theorem relays_withContext {α : Type} {c : Catalogue} {id : Nat} {q : Query}
    {ask : Context → Except PricingError α} {shows : α → Value → Prop}
    {respondTo : Context → Response}
    (h : ∀ context, Answers c id (ask context) shows (respondTo context)) :
    Relays c id q ask shows (withContext q respondTo) := by
  constructor
  · intro text error htext herror
    simp only [withContext, htext, Context.ofTexts_of_no_buyer herror, contextRefusal]
  · intro buyer text hbuyer htext hunits
    simp only [withContext, htext, Context.ofTexts_of_no_units hbuyer hunits, contextRefusal]
  · intro buyer units hbuyer hunits
    refine ⟨Command.contextOf_of_names hbuyer hunits, ?_⟩
    simp only [withContext, Context.ofTexts_of_names hbuyer hunits]
    exact h ⟨buyer, units⟩

-- The index has been checked by then.
theorem exists_currency_of_price {c : Catalogue} {id index : Nat} {context : Context}
    {price : Amount} (h : c.price id index context = .ok price) :
    ∃ currency, (c.get? id).bind (·.currencies[index]?) = some currency := by
  cases hget : c.get? id with
  | none => cases h.symm.trans (Catalogue.unpriced_of_get? hget index context).1
  | some a =>
    rw [Catalogue.price_of_get? hget] at h
    exact (Asset.price_eq_ok h).1

theorem answers_showPrice (c : Catalogue) (id index : Nat) (context : Context) :
    Answers c id (c.price id index context) (PriceShown c id index)
      (showPrice c id index context) := by
  apply answers_of_outcome
  · intro hget
    exact (Catalogue.unpriced_of_get? hget index context).1
  · intro a hget other
    rw [Catalogue.price_of_get? hget]
    exact a.price_ne_unknownAsset index context other
  · intro error herror
    rw [showPrice, herror]
  · intro price hprice
    obtain ⟨currency, hcurrency⟩ := exists_currency_of_price hprice
    refine ⟨_, ⟨currency, hcurrency, rfl⟩, ?_⟩
    simp only [showPrice, hprice, hcurrency]

theorem answers_showCost (c : Catalogue) (id : Nat) (context : Context) :
    Answers c id (c.cost id context) (CostShown id) (showCost c id context) := by
  apply answers_of_outcome
  · intro hget
    exact (Catalogue.unpriced_of_get? hget 0 context).2.1
  · intro a hget other
    rw [Catalogue.cost_of_get? hget]
    exact a.cost_ne_unknownAsset context other
  · intro error herror
    rw [showCost, herror]
  · intro cost hcost
    refine ⟨_, rfl, ?_⟩
    rw [showCost, hcost]

theorem answers_showQuote (c : Catalogue) (id index : Nat) (context : Context) :
    Answers c id (c.quote id index context) (QuoteShown id) (showQuote c id index context) := by
  apply answers_of_outcome
  · intro hget
    exact (Catalogue.unpriced_of_get? hget index context).2.2
  · intro a hget other
    rw [Catalogue.quote_of_get? hget]
    exact a.quote_ne_unknownAsset index context other
  · intro error herror
    rw [showQuote, herror]
  · intro quote hquote
    refine ⟨_, rfl, ?_⟩
    rw [showQuote, hquote]

-- A response of 200 to a question with a buyer and units is one to a context.
theorem exists_context_of_status {q : Query} {respondTo : Context → Response}
    (h : (withContext q respondTo).status = 200) :
    ∃ context, Context.ofTexts q.buyer q.units = .ok context ∧
      (respondTo context).status = 200 := by
  unfold withContext at h
  cases hcontext : Context.ofTexts q.buyer q.units with
  | error error =>
    rw [hcontext] at h
    cases error <;> simp [contextRefusal] at h
  | ok context =>
    rw [hcontext] at h
    exact ⟨context, rfl, h⟩

-- The entries of the other two responses that a price is made of.
theorem price_entries {c : Catalogue} {id index : Nat} {q : Query}
    (h : (answer c (.price id index q)).status = 200) :
    ∃ (currency : Currency) (price : Amount),
      (answer c (.price id index q)).member? "currency" = some (Document.ofCurrency currency) ∧
      ((answer c (.asset id)).member? "currencies").bind (·.item? index) =
        some (Document.ofCurrency currency) ∧
      (answer c (.price id index q)).member? "price" = some (.text price.text) ∧
      ((answer c (.cost id q)).member? "prices").bind (·.item? index) =
        some (Document.ofAmount price) := by
  obtain ⟨context, hcontext, hstatus⟩ := exists_context_of_status h
  obtain ⟨price, hprice⟩ := (answers_showPrice c id index context).success.mp hstatus
  obtain ⟨_, ⟨currency, hcurrency, rfl⟩, hshown⟩ :=
    (answers_showPrice c id index context).shown price hprice
  obtain ⟨a, hget, hlisted⟩ := Option.bind_eq_some_iff.mp hcurrency
  rw [Catalogue.price_of_get? hget] at hprice
  obtain ⟨-, cost, hcost, hentry⟩ := Asset.price_eq_ok hprice
  have hfound : c.cost id context = .ok cost := by
    rw [Catalogue.cost_of_get? hget, hcost]
  have hpriced : answer c (.price id index q) = showPrice c id index context := by
    simp only [answer, withContext, hcontext]
  have hcosted : answer c (.cost id q) = showCost c id context := by
    simp only [answer, withContext, hcontext]
  refine ⟨currency, price, ?_, ?_, ?_, ?_⟩
  · rw [hpriced, hshown]
    rfl
  · have hitem : (a.currencies.map Document.ofCurrency)[index]? =
        some (Document.ofCurrency currency) := by
      rw [List.getElem?_map, hlisted, Option.map_some]
    simp only [answer, showAsset, Catalogue.find_eq_ok hget]
    exact hitem
  · rw [hpriced, hshown]
    rfl
  · have hitem : (cost.prices.map Document.ofAmount)[index]? =
        some (Document.ofAmount price) := by
      rw [List.getElem?_map, hentry, Option.map_some]
    simp only [hcosted, showCost, hfound]
    exact hitem

theorem get?_session_eq_none_iff {c : Catalogue} {past : List Acceptance} (h : Holds c past)
    (calls : List (Timestamp × Request)) (id : Nat) :
    (session c calls).2.get? id = none ↔
      ¬(1 ≤ id ∧ id ≤ past.length + (created c calls).length) := by
  obtain ⟨later, hholds, hlen, -⟩ := holds_session h calls
  have htotal : (past ++ later).length = past.length + (created c calls).length := by
    rw [List.length_append, hlen]
  rw [← htotal]
  refine ⟨?_, hholds.get?_eq_none⟩
  rintro hnone ⟨hpos, hle⟩
  have hsome := hholds.get?_succ (id - 1)
  rw [Nat.sub_add_cancel hpos, hnone, List.getElem?_eq_getElem (by omega)] at hsome
  cases hsome

-- In the order of the parts: which questions can be asked and what becomes of a request that asks
-- one, the three questions about prices, the entries that a price is taken from, the currency that
-- is looked up once more, and the numbers that are registered after any requests.
theorem prices_are_what_the_catalogue_says (c : Catalogue) :
    (∀ question : Question, question.Fits ↔ ∃ r, Carries r question) ∧
    (∀ now r question, Carries r question → respond c now r = (answer c question, c)) ∧
    (∀ id index q,
      Relays c id q (c.price id index) (PriceShown c id index) (answer c (.price id index q)) ∧
      Relays c id q (c.cost id) (CostShown id) (answer c (.cost id q)) ∧
      Relays c id q (c.quote id index) (QuoteShown id) (answer c (.quote id index q))) ∧
    (∀ id index q, (answer c (.price id index q)).status = 200 →
      ∃ (currency : Currency) (price : Amount),
        (answer c (.price id index q)).member? "currency" = some (Document.ofCurrency currency) ∧
        ((answer c (.asset id)).member? "currencies").bind (·.item? index) =
          some (Document.ofCurrency currency) ∧
        (answer c (.price id index q)).member? "price" = some (.text price.text) ∧
        ((answer c (.cost id q)).member? "prices").bind (·.item? index) =
          some (Document.ofAmount price)) ∧
    (∀ id index context price, c.price id index context = .ok price →
      ∃ currency, (c.get? id).bind (·.currencies[index]?) = some currency) ∧
    ∀ past calls, Holds c past → ∀ id, (session c calls).2.get? id = none ↔
      ¬(1 ≤ id ∧ id ≤ past.length + (created c calls).length) := by
  refine ⟨?_, fun now r question h => h.respond_eq c now, ?_, fun _ _ _ => price_entries,
    fun _ _ _ _ => exists_currency_of_price, fun _ calls h => get?_session_eq_none_iff h calls⟩
  · intro question
    constructor
    · intro hfits
      exact ⟨question.request, Question.carries_request hfits⟩
    · rintro ⟨r, hr⟩
      exact Question.fits_of_carries hr
  · intro id index q
    exact ⟨relays_withContext (answers_showPrice c id index),
      relays_withContext (answers_showCost c id), relays_withContext (answers_showQuote c id index)⟩

-- One asset and the number that comes after it.
def twoCurrencyShop : Catalogue :=
  ⟨[(1, Offer.twoCurrencies.toAsset 1 .epoch)], 2⟩

-- Four units in the second currency have a price, and no units have no quote. Of an asset that is
-- not there, the texts are read all the same.
theorem prices_are_what_the_catalogue_says_twoCurrencyShop :
    (∃ r, Carries r (.price 1 1 ⟨none, some "4"⟩) ∧
      ∀ now, (respond twoCurrencyShop now r).1.status = 200) ∧
    ((answer twoCurrencyShop (.asset 1)).member? "currencies").bind (·.item? 1) =
      (answer twoCurrencyShop (.price 1 1 ⟨none, some "4"⟩)).member? "currency" ∧
    answer twoCurrencyShop (.quote 1 1 ⟨none, some "0"⟩) =
      .error 400 "Invalid units: must be greater than 0" ∧
    answer twoCurrencyShop (.cost 2 ⟨some "0xyz", some "many"⟩) =
      .error 400 "Invalid buyer: Invalid hex in address: 0xyz" ∧
    answer twoCurrencyShop (.cost 2 ⟨none, some "many"⟩) = .error 400 "Invalid units: many" ∧
    (answer twoCurrencyShop (.cost 2 ⟨none, none⟩)).status = 404 := by
  obtain ⟨hfits, hresponds, hrelays, hentries, -, hregistered⟩ :=
    prices_are_what_the_catalogue_says twoCurrencyShop
  have hholds : Holds twoCurrencyShop [⟨.twoCurrencies, .epoch⟩] := by
    refine ⟨?_, rfl, rfl⟩
    intro a ha
    rw [List.mem_singleton.mp ha]
    rfl
  obtain ⟨-, hprice⟩ := (hrelays 1 1 ⟨none, some "4"⟩).1.context .zero ⟨4, by decide⟩ .absent
    (.given (by decide))
  have hgiven : (answer twoCurrencyShop (.price 1 1 ⟨none, some "4"⟩)).status = 200 :=
    hprice.success.mpr ⟨⟨4, by decide⟩, rfl⟩
  refine ⟨?_, ?_, ?_, ?_, ?_, ?_⟩
  · obtain ⟨r, hr⟩ := (hfits (.price 1 1 ⟨none, some "4"⟩)).mp ⟨by decide, by decide⟩
    refine ⟨r, hr, ?_⟩
    intro now
    rw [hresponds now r _ hr]
    exact hgiven
  · obtain ⟨currency, price, hshown, hlisted, -⟩ := hentries 1 1 _ hgiven
    rw [hshown, hlisted]
  · obtain ⟨-, hquote⟩ := (hrelays 1 1 ⟨none, some "0"⟩).2.2.context .zero .zero .absent
      (.given (by decide))
    have hnone : twoCurrencyShop.quote 1 1 ⟨.zero, .zero⟩ = .error .noUnits := rfl
    obtain ⟨error, herror, hresponse⟩ := hquote.refused (by simp [hquote.success, hnone]) (by
      rw [Ne, hquote.missing]
      exact Option.some_ne_none _)
    cases hnone.symm.trans herror
    exact hresponse
  · have hbuyer : Address.ofText "0xyz" = .error (.badHex "0xyz") := by decide
    exact (hrelays 2 1 ⟨some "0xyz", some "many"⟩).2.1.noBuyer _ _ rfl hbuyer
  · have hunits : Amount.ofText? "many" = none := by decide
    exact (hrelays 2 1 ⟨none, some "many"⟩).2.1.noUnits _ _ .absent rfl hunits
  · obtain ⟨-, hcost⟩ := (hrelays 2 1 ⟨none, none⟩).2.1.context _ _ .absent .absent
    have hmissing := (hregistered _ [] hholds 2).mpr (by decide)
    exact hcost.missing.mpr hmissing

end Service

end Http

end Tariff

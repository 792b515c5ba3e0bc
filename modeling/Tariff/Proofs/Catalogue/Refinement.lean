import Tariff.Proofs.Catalogue.Session
import Tariff.Proofs.Pricing.Agreement

namespace Tariff.Catalogue

-- Nothing but a number that is given out goes with a change.
theorem serve_of_issued?_eq_none (c : Catalogue) (call : Call)
    (h : (c.serve call).1.issued? = none) : (c.serve call).2 = c := by
  cases call with
  | register offer now =>
    simp only [serve] at h ⊢
    cases hr : c.register offer now with
    | error error => rfl
    | ok result =>
      rw [hr] at h
      cases h
  | get | list | count | contains | price | cost | quote => rfl

-- Entries are kept: what comes later is put behind them.
theorem Holds.get?_serveAll {c : Catalogue} {past : List Acceptance} (h : Holds c past) {k : Nat}
    {a : Acceptance} (hk : past[k]? = some a) (later : List Call) :
    (c.serveAll later).2.get? (k + 1) = some (a.asset (k + 1)) := by
  obtain ⟨hlt, -⟩ := List.getElem?_eq_some_iff.mp hk
  rw [(h.serveAll later).1.get?_succ, List.getElem?_append_left hlt, hk, Option.map_some]

-- Prices depend on the currencies and the program alone, not on the number or the time.
theorem priced_of_get? {c : Catalogue} {id : Nat} {a : Acceptance}
    (h : c.get? id = some (a.asset id)) {other : Nat} {now : Timestamp} {alone : Asset}
    (halone : a.offer.accept other now = .ok alone) (index : Nat) (context : Context) :
    c.price id index context = alone.price index context ∧
      c.cost id context = alone.cost context ∧
      c.quote id index context = alone.quote index context := by
  obtain ⟨-, rfl⟩ := Offer.accept_eq_ok.mp halone
  simp only [price, cost, quote, find, h]
  exact ⟨rfl, rfl, rfl⟩

theorem unpriced_of_get? {c : Catalogue} {id : Nat} (h : c.get? id = none) (index : Nat)
    (context : Context) :
    c.price id index context = .error (.unknownAsset id) ∧
      c.cost id context = .error (.unknownAsset id) ∧
      c.quote id index context = .error (.unknownAsset id) := by
  simp only [price, cost, quote, find, h]
  exact ⟨rfl, rfl, rfl⟩

-- Whether an offer is accepted depends on the offer alone.
theorem Holds.serve_register {c : Catalogue} {past : List Acceptance} (h : Holds c past)
    (offer : Offer) (now : Timestamp) :
    (c.serve (.register offer now)).1 =
      .registered ((offer.accept unassignedId now).map fun _ => past.length + 1) := by
  simp only [Catalogue.serve, register]
  cases offer.accept unassignedId now with
  | error error => rfl
  | ok asset => simp only [Except.map, h.nextId_eq]

-- In the order of the parts: the numbers given out, the counter, the size, the list, membership,
-- what the entry of an accepted offer is and remains, every other number, the answer to one more
-- offer, and all calls that give out no number.
theorem after_refines_history (calls : List Call) :
    (repliesTo calls).filterMap Reply.issued? = List.range' 1 (history calls).length ∧
    (after calls).nextId = (history calls).length + 1 ∧
    (after calls).size = (history calls).length ∧
    (after calls).assets = (history calls).mapIdx (fun k a => a.asset (k + 1)) ∧
    (∀ id, (after calls).contains id = true ↔ 1 ≤ id ∧ id ≤ (history calls).length) ∧
    (∀ k a, (history calls)[k]? = some a →
      a.offer.accept (k + 1) a.now = .ok (a.asset (k + 1)) ∧
      (a.asset (k + 1)).id = k + 1 ∧
      (after calls).get? (k + 1) = some (a.asset (k + 1)) ∧
      (∀ later, ((after calls).serveAll later).2.get? (k + 1) = some (a.asset (k + 1))) ∧
      ∀ other now alone, a.offer.accept other now = .ok alone → ∀ index context,
        (after calls).price (k + 1) index context = alone.price index context ∧
        (after calls).cost (k + 1) context = alone.cost context ∧
        (after calls).quote (k + 1) index context = alone.quote index context) ∧
    (∀ id, ¬(1 ≤ id ∧ id ≤ (history calls).length) →
      (after calls).get? id = none ∧ ∀ index context,
        (after calls).price id index context = .error (.unknownAsset id) ∧
        (after calls).cost id context = .error (.unknownAsset id) ∧
        (after calls).quote id index context = .error (.unknownAsset id)) ∧
    (∀ offer now, ((after calls).serve (.register offer now)).1 =
      .registered ((offer.accept unassignedId now).map fun _ => (history calls).length + 1)) ∧
    (∀ call, ((after calls).serve call).1.issued? = none →
      ((after calls).serve call).2 = after calls) := by
  have h := holds_after calls
  refine ⟨issued_repliesTo calls, h.nextId_eq, h.size_eq, h.assets_eq, h.contains_iff, ?_, ?_,
    h.serve_register, serve_of_issued?_eq_none _⟩
  · intro k a hk
    have hget : (after calls).get? (k + 1) = some (a.asset (k + 1)) := h.get?_serveAll hk []
    have hproblem := h.sound a (List.mem_of_getElem? hk)
    refine ⟨Offer.accept_eq_ok.mpr ⟨hproblem, rfl⟩, rfl, hget, h.get?_serveAll hk, ?_⟩
    intro other now alone halone
    exact priced_of_get? hget halone
  · intro id hid
    have hget := h.get?_eq_none hid
    exact ⟨hget, unpriced_of_get? hget⟩

-- The offer in the middle has no currency and is refused.
def threeOffers : List Call :=
  [.register .twoCurrencies .epoch,
    .register { Offer.twoCurrencies with currencies := .empty } .epoch,
    .cost 1 ⟨.zero, .one⟩, .register .twoCurrencies .epoch]

theorem after_threeOffers :
    (repliesTo threeOffers).filterMap Reply.issued? = [1, 2] ∧
    (after threeOffers).get? 2 = some (Offer.twoCurrencies.toAsset 2 .epoch) ∧
    (after threeOffers).quote 2 0 ⟨.zero, .one⟩ =
      .ok ⟨0, .one, ⟨5, by decide⟩, ⟨3, by decide⟩, ⟨3, by decide⟩⟩ ∧
    (after threeOffers).quote 3 2 ⟨.zero, .zero⟩ = .error (.unknownAsset 3) := by
  have hpast : history threeOffers = [⟨.twoCurrencies, .epoch⟩, ⟨.twoCurrencies, .epoch⟩] := rfl
  obtain ⟨hissued, -, -, -, -, hentry, hother, -, -⟩ := after_refines_history threeOffers
  obtain ⟨haccept, -, hget, -, hprice⟩ := hentry 1 ⟨.twoCurrencies, .epoch⟩ (by rw [hpast]; rfl)
  obtain ⟨-, hnone⟩ := hother 3 (by rw [hpast]; decide)
  refine ⟨by rw [hissued, hpast]; rfl, hget, ?_, (hnone 2 ⟨.zero, .zero⟩).2.2⟩
  rw [(hprice 2 .epoch _ haccept 0 ⟨.zero, .one⟩).2.2]
  rfl

end Tariff.Catalogue

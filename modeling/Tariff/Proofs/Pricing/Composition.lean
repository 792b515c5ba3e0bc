import Mathlib.Data.List.Induction
import Mathlib.Data.List.Infix
import Tariff.Proofs.Catalogue.Offers
import Tariff.Proofs.Machine.Frame

namespace Tariff

namespace PricePair

-- The values of a stack that holds these pairs, bottom first.
def spread (pairs : List PricePair) : List Amount :=
  pairs.flatMap fun pair => [pair.maxUnits, pair.price]

theorem length_spread (pairs : List PricePair) : (spread pairs).length = 2 * pairs.length := by
  induction pairs with
  | nil => rfl
  | cons pair rest ih =>
    simp only [spread, List.flatMap_cons, List.length_append, List.length_cons, List.length_nil]
      at ih ⊢
    omega

theorem pairUp_spread (pairs : List PricePair) : pairUp (spread pairs) = pairs := by
  induction pairs with
  | nil => rfl
  | cons pair rest ih => exact congrArg (pair :: ·) ih

theorem spread_concat (pairs : List PricePair) (pair : PricePair) :
    spread (pairs ++ [pair]) = spread pairs ++ [pair.maxUnits, pair.price] := by
  simp [spread]

end PricePair

namespace Machine

-- A run that ends well has found all its constants.
theorem outOfPool_of_execute_ok {env : Environment} {position : Nat}
    {invocations : List Invocation} {stack result : Stack}
    (h : execute env position invocations stack = .ok result) {i : Invocation}
    (hi : i ∈ invocations) : i.outOfPool env.constants.length = false := by
  cases hout : i.outOfPool env.constants.length with
  | false => rfl
  | true =>
    obtain ⟨before, after, rfl⟩ := List.append_of_mem hi
    obtain ⟨failure, hfailure, -⟩ := execute_of_stuck env position before i after stack _
      fun mid => ⟨mid, step_of_outOfPool hout mid⟩
    cases h.symm.trans hfailure

end Machine

theorem Program.run_single {script : Script} {pool : List Amount} {context : Context}
    {values : List Amount} :
    (Program.mk [script] pool).run 0 context = .ok values ↔
      Machine.run ⟨pool, context⟩ script = .ok values.reverse := by
  simp only [run, List.getElem?_cons_zero, environment]
  cases Machine.run ⟨pool, context⟩ script with
  | error failure => simp
  | ok stack => simp [Machine.bottomUp, List.reverse_eq_iff]

namespace Script

-- One fragment after the other, each moved up by the pairs that the fragments before it leave.
def joined (fragments : List Script) : Script :=
  ⟨(fragments.mapIdx fun k f => f.invocations.map (·.relocate (2 * k))).flatten⟩

theorem invocations_joined_concat (fragments : List Script) (f : Script) :
    (joined (fragments ++ [f])).invocations =
      (joined fragments).invocations ++ f.invocations.map (·.relocate (2 * fragments.length)) := by
  simp only [joined, List.mapIdx_concat, List.flatten_append, List.flatten_singleton]

-- Alone, the fragment leaves the pair and nothing else; above the pairs of the currencies before
-- the one at `index`, there is room for its values and its fetches from the stack.
structure Prices (f : Script) (pool : List Amount) (context : Context) (index : Nat)
    (pair : PricePair) : Prop where
  alone : (Program.mk [f] pool).run 0 context = .ok [pair.maxUnits, pair.price]
  room : 2 * index + Machine.peak ⟨pool, context⟩ f.invocations [] ≤ Machine.maxDepth
  fits : ∀ i ∈ f.invocations, i.Relocatable (2 * index)

theorem Prices.execute_relocate {f : Script} {pool : List Amount} {context : Context}
    {pairs : List PricePair} {pair : PricePair} (h : f.Prices pool context pairs.length pair)
    (position : Nat) :
    Machine.execute ⟨pool, context⟩ position
        (f.invocations.map (·.relocate (2 * pairs.length))) (PricePair.spread pairs).reverse =
      .ok (PricePair.spread (pairs ++ [pair])).reverse := by
  have hlen : (PricePair.spread pairs).reverse.length = 2 * pairs.length := by
    rw [List.length_reverse, PricePair.length_spread]
  have halone := Program.run_single.mp h.alone
  have habove := Machine.execute_relocate halone (PricePair.spread pairs).reverse
    (by rw [hlen]; exact h.room) (by rw [hlen]; exact h.fits) position
  rw [hlen] at habove
  rw [PricePair.spread_concat, List.reverse_append]
  exact habove

-- Fragments with the pairs that they leave, in the order of the currencies.
def AllPrice (pool : List Amount) (context : Context) (priced : List (Script × PricePair)) : Prop :=
  ∀ (k : Nat) (f : Script) (pair : PricePair),
    priced[k]? = some (f, pair) → f.Prices pool context k pair

theorem AllPrice.of_concat {pool : List Amount} {context : Context}
    {priced : List (Script × PricePair)} {f : Script} {pair : PricePair}
    (h : AllPrice pool context (priced ++ [(f, pair)])) :
    AllPrice pool context priced ∧ f.Prices pool context priced.length pair := by
  constructor
  · intro k g other hk
    have hlt : k < priced.length := (List.getElem?_eq_some_iff.mp hk).1
    exact h k g other (by rw [List.getElem?_append_left hlt]; exact hk)
  · exact h priced.length f pair List.getElem?_concat_length

-- The induction is on the fragments from the last one back: what lies below a fragment are the
-- pairs of all the fragments before it.
theorem AllPrice.run_joined {pool : List Amount} {context : Context}
    {priced : List (Script × PricePair)} (h : AllPrice pool context priced) :
    Machine.run ⟨pool, context⟩ (joined (priced.map (·.1))) =
      .ok (PricePair.spread (priced.map (·.2))).reverse := by
  induction priced using List.reverseRecOn with
  | nil => rfl
  | append_singleton priced last ih =>
    obtain ⟨f, pair⟩ := last
    obtain ⟨hbefore, hlast⟩ := h.of_concat
    have hrun := ih hbefore
    have hlen : (priced.map (·.2)).length = priced.length := List.length_map _
    rw [← hlen] at hlast
    have hstep := hlast.execute_relocate (0 + (joined (priced.map (·.1))).invocations.length)
    simp only [Machine.run, List.map_append, List.map_cons, List.map_nil,
      invocations_joined_concat, Machine.execute_append] at hrun ⊢
    rw [hrun]
    simp only [List.length_map] at hstep ⊢
    exact hstep

-- All constants are there, since the run has found them.
theorem AllPrice.constant_lt {pool : List Amount} {context : Context}
    {priced : List (Script × PricePair)} (h : AllPrice pool context priced) {i : Invocation}
    (hi : i ∈ (joined (priced.map (·.1))).invocations) (hop : i.op? = some .constant) :
    i.operand.toNat < pool.length := by
  have hin := Machine.outOfPool_of_execute_ok h.run_joined hi
  simpa [Invocation.outOfPool, hop] using hin

end Script

theorem Asset.evaluate_of_run_spread {a : Asset} {context : Context} {pairs : List PricePair}
    (hrun : a.program.run pricingSource context = .ok (PricePair.spread pairs))
    (hlen : a.currencies.length = pairs.length) : a.evaluate context = .ok pairs := by
  have hspread := PricePair.length_spread pairs
  obtain ⟨cause, herror, -⟩ | ⟨stack, hother, hne, -⟩ | ⟨stack, hother, -, heval⟩ :=
    evaluate_cases a context
  · cases hrun.symm.trans herror
  · cases hrun.symm.trans hother
    rw [hlen] at hne
    exact absurd hspread hne
  · cases hrun.symm.trans hother
    rw [heval, PricePair.pairUp_spread]

theorem Asset.pricePair_of_evaluate {a : Asset} {context : Context} {pairs : List PricePair}
    (h : a.evaluate context = .ok pairs) {index : Nat} {pair : PricePair}
    (hpair : pairs[index]? = some pair) : a.pricePair index context = .ok pair := by
  have hlt : index < a.currencies.length := by
    rw [← length_of_evaluate h]
    exact (List.getElem?_eq_some_iff.mp hpair).1
  rw [pricePair_of_lt hlt context]
  simp only [h, hpair]

theorem Script.AllPrice.sound {pool : List Amount} {context : Context}
    {priced : List (Script × PricePair)} (h : AllPrice pool context priced) (hne : priced ≠ [])
    {o : Offer} (haligned : o.currencies.Aligned)
    (hcount : o.currencies.tokens.length = priced.length)
    (hprogram : o.program = ⟨[joined (priced.map (·.1))], pool⟩) : o.Sound where
  aligned := haligned
  currency := by
    rw [hcount]
    exact List.length_pos_iff.mpr hne
  source := by simp [hprogram]
  constants script hscript i hi hop := by
    rw [hprogram] at hscript ⊢
    rw [List.mem_singleton.mp hscript] at hi
    exact h.constant_lt hi hop

-- Stacks are written from the top, so `stack ++ base` is the stack with `base` below it.
theorem script_fragments_compose :
    (∀ (env : Machine.Environment) (f : List Invocation) (base stack result : Machine.Stack)
      (depth : Nat), Machine.execute env 0 f stack = .ok result →
      (∀ before mid, before <+: f → Machine.execute env 0 before stack = .ok mid →
        mid.length ≤ depth) →
      base.length + depth ≤ Machine.maxDepth → (∀ i ∈ f, i.Relocatable base.length) →
      Machine.execute env 0 (f.map (·.relocate base.length)) (stack ++ base) =
        .ok (result ++ base)) ∧
    ∀ (pool : List Amount) (context : Context) (priced : List (Script × PricePair)),
      priced ≠ [] → Script.AllPrice pool context priced →
      ∀ o : Offer, o.currencies.Aligned → o.currencies.tokens.length = priced.length →
        o.program = ⟨[Script.joined (priced.map (·.1))], pool⟩ →
        ∀ (c : Catalogue) (now : Timestamp), ∃ a next, c.register o now = .ok (a, next) ∧
          next.get? a.id = some a ∧ a.evaluate context = .ok (priced.map (·.2)) ∧
          ∀ k f pair, priced[k]? = some (f, pair) → a.pricePair k context = .ok pair := by
  constructor
  · intro env f base stack result depth hrun hdepth hroom hfits
    have hpeak : Machine.peak env f stack ≤ depth := Machine.peak_le hdepth
    exact Machine.execute_relocate hrun base (by omega) hfits 0
  · intro pool context priced hne hpriced o haligned hcount hprogram c now
    have hsound := hpriced.sound hne haligned hcount hprogram
    have hlen : (o.toAsset c.nextId now).currencies.length = (priced.map (·.2)).length := by
      rw [(hsound.keptBy_toAsset c.nextId now).length_currencies, hcount, List.length_map]
    have hrun : o.program.run Asset.pricingSource context =
        .ok (PricePair.spread (priced.map (·.2))) := by
      rw [hprogram]
      exact Program.run_single.mpr hpriced.run_joined
    have heval := Asset.evaluate_of_run_spread hrun hlen
    refine ⟨_, _, c.register_of_sound hsound.problem?_eq_none now, c.get?_insert c.nextId _, heval,
      ?_⟩
    intro k f pair hk
    apply Asset.pricePair_of_evaluate heval
    rw [List.getElem?_map, hk]
    rfl

-- Seven units at most in either currency; one of them costs as much as units are bought in the
-- first, and seven times as much in the second, where the cap is fetched from below the units.
def unitsThenMultiple : List (Script × PricePair) :=
  [(⟨[.of .constant 0, .of .context 1]⟩, ⟨⟨7, by decide⟩, ⟨2, by decide⟩⟩),
    (⟨[.of .constant 0, .of .context 1, .of .stack 0, .of .mul 0]⟩,
      ⟨⟨7, by decide⟩, ⟨14, by decide⟩⟩)]

theorem allPrice_unitsThenMultiple :
    Script.AllPrice [⟨7, by decide⟩] ⟨.zero, ⟨2, by decide⟩⟩ unitsThenMultiple := by
  intro k f pair hk
  rcases k with _ | _ | k
  · cases hk
    exact ⟨rfl, by decide, by decide⟩
  · cases hk
    exact ⟨rfl, by decide, by decide⟩
  · cases hk

-- A value is doubled by a fetch from the bottom; above two other values that is a fetch of the
-- third.
theorem script_fragments_compose_unitsThenMultiple :
    Machine.execute ⟨[], ⟨.zero, .one⟩⟩ 0 [.of .stack 2, .of .add 0]
        ([⟨3, by decide⟩] ++ [.one, .zero]) = .ok ([⟨6, by decide⟩] ++ [.one, .zero]) ∧
    ∃ a next, Catalogue.empty.register
        { Offer.twoCurrencies with
          program := ⟨[Script.joined (unitsThenMultiple.map (·.1))], [⟨7, by decide⟩]⟩ } .epoch =
          .ok (a, next) ∧
      a.evaluate ⟨.zero, ⟨2, by decide⟩⟩ = .ok (unitsThenMultiple.map (·.2)) := by
  constructor
  · have hdepth : ∀ before mid, before <+: [Invocation.of .stack 0, .of .add 0] →
        Machine.execute ⟨[], ⟨.zero, .one⟩⟩ 0 before [⟨3, by decide⟩] = .ok mid →
        mid.length ≤ 2 := by
      intro before mid hbefore hrun
      rw [← List.mem_inits] at hbefore
      simp only [List.inits, List.map_cons, List.map_nil, List.mem_cons, List.not_mem_nil,
        or_false] at hbefore
      obtain rfl | rfl | rfl := hbefore <;> cases hrun <;> decide
    exact script_fragments_compose.1 _ [.of .stack 0, .of .add 0] [.one, .zero] _ _ 2 rfl hdepth
      (by decide) (by decide)
  · obtain ⟨a, next, hregister, -, heval, -⟩ := script_fragments_compose.2 _ _ unitsThenMultiple
      (by simp [unitsThenMultiple]) allPrice_unitsThenMultiple
      { Offer.twoCurrencies with
        program := ⟨[Script.joined (unitsThenMultiple.map (·.1))], [⟨7, by decide⟩]⟩ }
      ⟨rfl, rfl⟩ rfl rfl .empty .epoch
    exact ⟨a, next, hregister, heval⟩

end Tariff

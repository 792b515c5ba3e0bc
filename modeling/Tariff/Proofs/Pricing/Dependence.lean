import Tariff.Proofs.Pricing.Quote

namespace Tariff

namespace Machine

variable {left right : Environment}

-- What the invocation fetches is there in both environments, and is the same. A slot that no
-- context has may be asked for: neither environment has it.
structure Environment.AgreeOn (left right : Environment) (i : Invocation) : Prop where
  constant : i.op? = some .constant → ∃ value, left.constants[i.operand.toNat]? = some value ∧
    right.constants[i.operand.toNat]? = some value
  context : i.op? = some .context → i.operand.toNat < 2 →
    left.context.slot? i.operand = right.context.slot? i.operand

theorem slot?_eq_none {context : Context} {index : UInt8} (h : ¬index.toNat < 2) :
    context.slot? index = none := by
  have hslot := slot?_isSome context index
  rw [← Option.not_isSome_iff_eq_none, hslot]
  exact h

theorem step_congr {i : Invocation} (h : left.AgreeOn right i) (stack : Stack) :
    step left i stack = step right i stack := by
  cases hop : i.op? with
  | none => rw [step_of_unknown hop, step_of_unknown hop]
  | some op =>
    rw [step_of_op? hop, step_of_op? hop]
    cases op with
    | constant =>
      obtain ⟨value, hleft, hright⟩ := h.constant hop
      simp only [perform, hleft, hright, fetch]
    | context =>
      have hslot : left.context.slot? i.operand = right.context.slot? i.operand := by
        by_cases hlt : i.operand.toNat < 2
        · exact h.context hop hlt
        · rw [slot?_eq_none hlt, slot?_eq_none hlt]
      simp only [perform, hslot]
    | stack | add | sub | mul | div | mod | min | max | eq | lt | gt | isZero | eagerIf => rfl

-- The two runs meet the same stack at every invocation.
theorem execute_congr {invocations : List Invocation}
    (h : ∀ i ∈ invocations, left.AgreeOn right i) (position : Nat) (stack : Stack) :
    execute left position invocations stack = execute right position invocations stack := by
  induction invocations generalizing position stack with
  | nil => rfl
  | cons i rest ih =>
    have hstep := step_congr (h i List.mem_cons_self) stack
    simp only [execute, hstep]
    cases step right i stack with
    | done next => exact ih (fun j hj => h j (List.mem_cons_of_mem i hj)) (position + 1) next
    | failed fault rest => rfl

theorem run_congr {script : Script} (h : ∀ i ∈ script.invocations, left.AgreeOn right i) :
    run left script = run right script :=
  execute_congr h 0 []

end Machine

-- Some invocation fetches the slot of the context.
def Script.readsSlot (s : Script) (slot : UInt8) : Bool :=
  s.invocations.any fun i => i.op? == some .context && i.operand == slot

-- More constants behind those that are there.
def Program.withConstants (p : Program) (extra : List Amount) : Program :=
  { p with constants := p.constants ++ extra }

def Offer.withConstants (o : Offer) (extra : List Amount) : Offer :=
  { o with program := o.program.withConstants extra }

namespace Asset

def readsSlot (a : Asset) (slot : UInt8) : Bool :=
  a.program.sources[pricingSource]?.any (·.readsSlot slot)

theorem readsSlot_of_mem {a : Asset} {script : Script}
    (hscript : script ∈ a.program.sources[pricingSource]?) {i : Invocation}
    (hi : i ∈ script.invocations) (hop : i.op? = some .context) :
    a.readsSlot i.operand = true := by
  have hreads : script.readsSlot i.operand = true := by
    rw [Script.readsSlot, List.any_eq_true]
    exact ⟨i, hi, by simp [hop]⟩
  rw [readsSlot, Option.mem_def.mp hscript]
  exact hreads

-- The answers of an asset follow from its currencies and from what its program evaluates to.
theorem answers_congr {a b : Asset} {context other : Context}
    (hcurrencies : a.currencies = b.currencies) (h : a.evaluate context = b.evaluate other) :
    a.cost context = b.cost other ∧
      ∀ index, a.pricePair index context = b.pricePair index other ∧
        a.price index context = b.price index other := by
  have hpair (index : Nat) : a.pricePair index context = b.pricePair index other := by
    simp only [pricePair, currency, hcurrencies, h]
  refine ⟨?_, fun index => ⟨hpair index, ?_⟩⟩
  · simp only [cost, h]
  · simp only [price, hpair]

theorem quote_congr {a b : Asset} {context other : Context} {index : Nat}
    (hunits : context.units = other.units)
    (h : a.pricePair index context = b.pricePair index other) :
    a.quote index context = b.quote index other := by
  simp only [quote, hunits, h]

theorem evaluate_congr {a b : Asset} {context other : Context}
    (hcurrencies : a.currencies.length = b.currencies.length)
    (hsources : a.program.sources = b.program.sources)
    (h : ∀ script ∈ a.program.sources[pricingSource]?, ∀ i ∈ script.invocations,
      (a.program.environment context).AgreeOn (b.program.environment other) i) :
    a.evaluate context = b.evaluate other := by
  have hrun : a.program.run pricingSource context = b.program.run pricingSource other := by
    unfold Program.run
    rw [← hsources]
    cases hscript : a.program.sources[pricingSource]? with
    | none => rfl
    | some script =>
      rw [hscript] at h
      simp only [Machine.run_congr (h script rfl)]
  simp only [evaluate, stack, hrun, hcurrencies]

-- The price and the cap of a quote come from the cost alone.
theorem quotes_of_cost_eq {a : Asset} {context other : Context}
    (h : a.cost context = a.cost other) {index : Nat} {q r : Quote}
    (hq : a.quote index context = .ok q) (hr : a.quote index other = .ok r) :
    q.price = r.price ∧ q.maxUnits = r.maxUnits := by
  obtain ⟨cost, hgranted⟩ := quote_eq_ok_iff.mp hq
  obtain ⟨found, hfound⟩ := quote_eq_ok_iff.mp hr
  have hcost : cost = found :=
    Except.ok.inj (hgranted.cost_eq.symm.trans (h.trans hfound.cost_eq))
  have hpair := hgranted.pair_eq.symm.trans (hcost ▸ hfound.pair_eq)
  obtain ⟨hcap, hprice⟩ := PricePair.mk.inj (Option.some.inj hpair)
  exact ⟨hprice, hcap⟩

end Asset

namespace Offer.Sound

variable {o : Offer}

theorem exists_constant (h : o.Sound) {script : Script} (hscript : script ∈ o.program.sources)
    {i : Invocation} (hi : i ∈ script.invocations) (hop : i.op? = some .constant) :
    ∃ value, o.program.constants[i.operand.toNat]? = some value :=
  ⟨_, List.getElem?_eq_getElem (h.constants script hscript i hi hop)⟩

-- Contexts may differ in a slot that the pricing source does not read.
theorem evaluate_of_not_readsSlot (h : o.Sound) {id : Nat} {now : Timestamp} {slot : UInt8}
    (hreads : (o.toAsset id now).readsSlot slot = false) {context other : Context}
    (hsame : ∀ index, index ≠ slot → context.slot? index = other.slot? index) :
    (o.toAsset id now).evaluate context = (o.toAsset id now).evaluate other := by
  apply Asset.evaluate_congr rfl rfl
  intro script hscript i hi
  constructor
  · intro hop
    obtain ⟨value, hvalue⟩ := h.exists_constant (List.mem_of_getElem? hscript) hi hop
    exact ⟨value, hvalue, hvalue⟩
  · intro hop _
    apply hsame
    rintro rfl
    cases hreads.symm.trans (Asset.readsSlot_of_mem hscript hi hop)

theorem withConstants (h : o.Sound) (extra : List Amount) : (o.withConstants extra).Sound where
  aligned := h.aligned
  currency := h.currency
  source := h.source
  constants script hscript i hi hop := by
    have hlt := h.constants script hscript i hi hop
    simp only [Offer.withConstants, Program.withConstants, List.length_append]
    omega

theorem evaluate_withConstants (h : o.Sound) (extra : List Amount) (id : Nat) (now : Timestamp)
    (context : Context) :
    ((o.withConstants extra).toAsset id now).evaluate context =
      (o.toAsset id now).evaluate context := by
  refine Asset.evaluate_congr ?_ ?_ ?_
  · rfl
  · rfl
  · intro script hscript i hi
    constructor
    · intro hop
      obtain ⟨value, hvalue⟩ := h.exists_constant (List.mem_of_getElem? hscript) hi hop
      have hlt := (List.getElem?_eq_some_iff.mp hvalue).1
      exact ⟨value, (List.getElem?_append_left hlt).trans hvalue, hvalue⟩
    · intro _ _
      rfl

end Offer.Sound

-- A run sees of its pool and of its context only what its invocations fetch.
theorem run_depends_only_on_what_is_read :
    (∀ (script : Script) (left right : Machine.Environment),
      (∀ i ∈ script.invocations, left.AgreeOn right i) →
      Machine.run left script = Machine.run right script) ∧
    ∀ (o : Offer) (id : Nat) (now : Timestamp) (a : Asset), o.accept id now = .ok a →
      (a.readsSlot 0 = false → ∀ (buyer other : Address) (units : Amount),
        a.evaluate ⟨buyer, units⟩ = a.evaluate ⟨other, units⟩ ∧
        a.cost ⟨buyer, units⟩ = a.cost ⟨other, units⟩ ∧
        ∀ index, a.price index ⟨buyer, units⟩ = a.price index ⟨other, units⟩ ∧
          a.quote index ⟨buyer, units⟩ = a.quote index ⟨other, units⟩) ∧
      (a.readsSlot 1 = false → ∀ (buyer : Address) (units other : Amount),
        a.evaluate ⟨buyer, units⟩ = a.evaluate ⟨buyer, other⟩ ∧
        a.cost ⟨buyer, units⟩ = a.cost ⟨buyer, other⟩ ∧
        ∀ index, a.price index ⟨buyer, units⟩ = a.price index ⟨buyer, other⟩ ∧
          ∀ q r, a.quote index ⟨buyer, units⟩ = .ok q → a.quote index ⟨buyer, other⟩ = .ok r →
            q.price = r.price ∧ q.maxUnits = r.maxUnits) ∧
      ∀ extra, ∃ b, (o.withConstants extra).accept id now = .ok b ∧ ∀ context,
        b.evaluate context = a.evaluate context ∧ b.cost context = a.cost context ∧
        ∀ index, b.price index context = a.price index context ∧
          b.quote index context = a.quote index context := by
  refine ⟨fun script left right h => Machine.run_congr h, ?_⟩
  intro o id now a ha
  obtain ⟨hproblem, rfl⟩ := Offer.accept_eq_ok.mp ha
  have hsound := Offer.problem?_eq_none_iff.mp hproblem
  refine ⟨?_, ?_, ?_⟩
  · intro hreads buyer other units
    have heval : (o.toAsset id now).evaluate ⟨buyer, units⟩ =
        (o.toAsset id now).evaluate ⟨other, units⟩ := by
      apply hsound.evaluate_of_not_readsSlot hreads
      intro index hne
      simp only [Context.slot?, if_neg hne]
    obtain ⟨hcost, hpairs⟩ := Asset.answers_congr rfl heval
    refine ⟨heval, hcost, fun index => ⟨(hpairs index).2, ?_⟩⟩
    exact Asset.quote_congr rfl (hpairs index).1
  · intro hreads buyer units other
    have heval : (o.toAsset id now).evaluate ⟨buyer, units⟩ =
        (o.toAsset id now).evaluate ⟨buyer, other⟩ := by
      apply hsound.evaluate_of_not_readsSlot hreads
      intro index hne
      simp only [Context.slot?, if_neg hne]
    obtain ⟨hcost, hpairs⟩ := Asset.answers_congr rfl heval
    refine ⟨heval, hcost, fun index => ⟨(hpairs index).2, ?_⟩⟩
    intro q r hq hr
    exact Asset.quotes_of_cost_eq hcost hq hr
  · intro extra
    have hlonger := (hsound.withConstants extra).problem?_eq_none
    refine ⟨_, Offer.accept_eq_ok.mpr ⟨hlonger, rfl⟩, ?_⟩
    intro context
    have hcurrencies : ((o.withConstants extra).toAsset id now).currencies =
        (o.toAsset id now).currencies := rfl
    have heval := hsound.evaluate_withConstants extra id now context
    obtain ⟨hcost, hpairs⟩ := Asset.answers_congr hcurrencies heval
    refine ⟨heval, hcost, fun index => ⟨(hpairs index).2, ?_⟩⟩
    exact Asset.quote_congr rfl (hpairs index).1

-- Asks for the second of its constants, and then for a slot that no context has.
def strayRead : Script :=
  ⟨[.of .constant 1, .of .context 9]⟩

-- One unit in either currency costs as much as the number of the buyer.
def pricedByBuyer : Offer :=
  { Offer.twoCurrencies with
    program :=
      ⟨[⟨[.of .constant 0, .of .context 0, .of .constant 0, .of .context 0]⟩], [.one]⟩ }

-- A script that stops does so in the same place, whatever else is different. One of the two offers
-- asks for the units alone and the other for the buyer alone.
theorem run_depends_strayRead :
    Machine.run ⟨[.zero, .one], ⟨.zero, .one⟩⟩ strayRead =
      Machine.run ⟨[.one, .one, .zero], ⟨.zero, .zero⟩⟩ strayRead ∧
    (∃ a, Offer.twoCurrencies.accept 1 .epoch = .ok a ∧
      (∀ buyer other : Address, a.quote 1 ⟨buyer, ⟨4, by decide⟩⟩ =
        a.quote 1 ⟨other, ⟨4, by decide⟩⟩) ∧
      ∃ b, (Offer.twoCurrencies.withConstants [.one]).accept 1 .epoch = .ok b ∧
        ∀ context, b.evaluate context = a.evaluate context) ∧
    ∃ a, pricedByBuyer.accept 2 .epoch = .ok a ∧
      ∀ (buyer : Address) (units other : Amount),
        a.cost ⟨buyer, units⟩ = a.cost ⟨buyer, other⟩ := by
  obtain ⟨hruns, hassets⟩ := run_depends_only_on_what_is_read
  refine ⟨?_, ?_, ?_⟩
  · apply hruns
    intro i hi
    simp only [strayRead, List.mem_cons, List.not_mem_nil, or_false] at hi
    obtain rfl | rfl := hi
    · exact ⟨fun _ => ⟨.one, rfl, rfl⟩, nofun⟩
    · exact ⟨nofun, fun _ hlt => absurd hlt (by decide)⟩
  · obtain ⟨hbuyer, -, hextra⟩ :=
      hassets _ 1 .epoch _ (rfl : Offer.twoCurrencies.accept 1 .epoch = _)
    obtain ⟨b, hb, heval⟩ := hextra [.one]
    refine ⟨_, rfl, ?_, b, hb, fun context => (heval context).1⟩
    intro buyer other
    exact ((hbuyer (by decide) buyer other _).2.2 1).2
  · obtain ⟨-, hunits, -⟩ := hassets _ 2 .epoch _ (rfl : pricedByBuyer.accept 2 .epoch = _)
    refine ⟨_, rfl, ?_⟩
    intro buyer units other
    exact (hunits (by decide) buyer units other).2.1

end Tariff

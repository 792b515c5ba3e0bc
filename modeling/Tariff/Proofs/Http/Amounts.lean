import Tariff.Proofs.Document.Position
import Tariff.Proofs.Http.Registration

namespace Tariff

namespace Document

open Json (Reader Token Numeral Schema IsValue objectTokens listTokens)
open Json.Reader (Exact)

theorem SpelledBy.unique {v w : Amount} {used : List Token} (hv : SpelledBy v used)
    (hw : SpelledBy w used) : v = w := by
  have heq := (hv.takes 0 []).symm.trans (hw.takes 0 [])
  exact (Prod.mk.inj (Except.ok.inj heq)).1

theorem spelledBy_natural_iff {v : Amount} {n : Nat} :
    SpelledBy v [.number (.ofNat n)] ↔ n = v.toNat ∧ n < Nat.pow 2 64 := by
  have hvalue : Nat.ofDigitChars 10 (Text.Decimal.ofNat n) 0 = n :=
    Nat.ofDigitChars_toDigits (by decide) (by decide)
  constructor
  · intro h
    cases h with
    | number hplain hv hlt =>
      have heq : n = v.toNat := hvalue.symm.trans hv
      exact ⟨heq, heq ▸ hlt⟩
  · rintro ⟨rfl, hlt⟩
    exact .number ⟨rfl, rfl, rfl⟩ hvalue hlt

-- The fields of documents that hold one amount.
inductive AmountField : {α : Type} → Reader α → String → Spot α → Prop
  | tokenId : AmountField currency "token_id"
    ⟨fun c => some c.tokenId, fun v c => { c with tokenId := v }⟩
  | units : AmountField context "units" ⟨fun c => some c.units, fun v c => { c with units := v }⟩
  | pairMaxUnits : AmountField pair "max_units"
    ⟨fun p => some p.maxUnits, fun v p => { p with maxUnits := v }⟩
  | pairPrice : AmountField pair "price"
    ⟨fun p => some p.price, fun v p => { p with price := v }⟩
  | costMaxUnits : AmountField cost "max_units"
    ⟨fun c => some c.maxUnits, fun v c => { c with maxUnits := v }⟩
  | quoteUnits : AmountField quote "units"
    ⟨fun q => some q.units, fun v q => { q with units := v }⟩
  | quoteMaxUnits : AmountField quote "max_units"
    ⟨fun q => some q.maxUnits, fun v q => { q with maxUnits := v }⟩
  | quotePrice : AmountField quote "price"
    ⟨fun q => some q.price, fun v q => { q with price := v }⟩
  | quoteTotal : AmountField quote "total"
    ⟨fun q => some q.total, fun v q => { q with total := v }⟩

-- The fields that hold a list of amounts: what the list is, and another list in its place.
inductive AmountsField :
    {α : Type} → Reader α → String → (α → List Amount) → (List Amount → α → α) → Prop
  | constants : AmountsField program "constants" (·.constants)
    fun vs p => { p with constants := vs }
  | tokenIds : AmountsField currencyTable "token_id" (·.tokenIds)
    fun vs t => { t with tokenIds := vs }
  | prices : AmountsField cost "prices" (·.prices) fun vs c => { c with prices := vs }

theorem exact_currencyField (f : CurrencyField) : Exact (currencySchema.read f) := by
  cases f with
  | token => exact Reader.exact_parsed _ _
  | tokenId => exact exact_amount
  | kind => exact Reader.exact_choice _

theorem exact_contextField (f : ContextField) : Exact (contextSchema.read f) := by
  cases f with
  | buyer => exact Reader.exact_parsed _ _
  | units => exact exact_amount

theorem exact_pairField (f : PairField) : Exact (pairSchema.read f) :=
  exact_amount

theorem exact_costField (f : CostField) : Exact (costSchema.read f) := by
  cases f with
  | maxUnits => exact exact_amount
  | prices => exact exact_amounts
  | pairs => exact Reader.exact_list (Schema.exact_readerOf _ exact_pairField)

theorem exact_quoteField (f : QuoteField) : Exact (quoteSchema.read f) := by
  cases f with
  | currencyIndex => exact Reader.exact_natural _
  | units | maxUnits | price | total => exact exact_amount

section Fields

variable {α : Type} {read : Reader α} {key : String}
  {before after : List (Option String × List Token)}

-- The member of a record that is made from its fields.
theorem Position.field (s : Schema) (f : s.Field) {make : s.Members → α}
    {around : List Token → List Token} {spot : Spot (s.Content f)} {other : Spot α}
    (hread : ∀ g, Exact (s.read g)) (hkey : s.fieldNamed? key = some f)
    (hvalue : ∀ m ∈ before ++ after, IsValue m.2) (h : Position (s.read f) around spot)
    (hlook : ∀ all, other.look (make all) = spot.look (all f))
    (hput : ∀ v all, other.put v (make all) = make (Function.update all f (spot.put v (all f)))) :
    Position (s.readerOf make) (fun gap => objectTokens (before ++ (some key, around gap) :: after))
      other :=
  .made (.member hread hkey hvalue h) hlook hput

theorem AmountField.position {spot : Spot α} (h : AmountField read key spot)
    (hvalue : ∀ m ∈ before ++ after, IsValue m.2) :
    Position read (fun gap => objectTokens (before ++ (some key, gap) :: after)) spot := by
  cases h with
  | tokenId =>
    exact .field currencySchema .tokenId exact_currencyField rfl hvalue .amount (fun _ => rfl)
      fun _ _ => rfl
  | units =>
    exact .field contextSchema .units exact_contextField rfl hvalue .amount (fun _ => rfl)
      fun _ _ => rfl
  | pairMaxUnits =>
    exact .field pairSchema .maxUnits exact_pairField rfl hvalue .amount (fun _ => rfl)
      fun _ _ => rfl
  | pairPrice =>
    exact .field pairSchema .price exact_pairField rfl hvalue .amount (fun _ => rfl)
      fun _ _ => rfl
  | costMaxUnits =>
    exact .field costSchema .maxUnits exact_costField rfl hvalue .amount (fun _ => rfl)
      fun _ _ => rfl
  | quoteUnits =>
    exact .field quoteSchema .units exact_quoteField rfl hvalue .amount (fun _ => rfl)
      fun _ _ => rfl
  | quoteMaxUnits =>
    exact .field quoteSchema .maxUnits exact_quoteField rfl hvalue .amount (fun _ => rfl)
      fun _ _ => rfl
  | quotePrice =>
    exact .field quoteSchema .price exact_quoteField rfl hvalue .amount (fun _ => rfl)
      fun _ _ => rfl
  | quoteTotal =>
    exact .field quoteSchema .total exact_quoteField rfl hvalue .amount (fun _ => rfl)
      fun _ _ => rfl

theorem AmountsField.position {get : α → List Amount} {set : List Amount → α → α}
    (h : AmountsField read key get set) (hvalue : ∀ m ∈ before ++ after, IsValue m.2)
    {items more : List (List Token)} (hitems : ∀ item ∈ items ++ more, IsValue item) :
    Position read
      (fun gap => objectTokens (before ++ (some key, listTokens (items ++ gap :: more)) :: after))
      ⟨fun x => (get x)[items.length]?, fun v x => set ((get x).set items.length v) x⟩ := by
  cases h with
  | constants =>
    exact .field programSchema .constants exact_programField rfl hvalue (.among hitems)
      (fun _ => rfl) fun _ _ => rfl
  | tokenIds =>
    exact .field currencyTableSchema .tokenId exact_currencyTableField rfl hvalue (.among hitems)
      (fun _ => rfl) fun _ _ => rfl
  | prices =>
    exact .field costSchema .prices exact_costField rfl hvalue (.among hitems)
      (fun _ => rfl) fun _ _ => rfl

-- What stands in a program or in a table of currencies stands in a registration too.
theorem Position.inProgram {around : List Token → List Token} {spot : Spot Program}
    (h : Position program around spot) (hnull : ∀ gap, (around gap).head? ≠ some .null)
    (hvalue : ∀ m ∈ before ++ after, IsValue m.2) :
    Position registration
      (fun gap => objectTokens (before ++ (some "vm_state_config", around gap) :: after))
      ⟨fun r => r.program.bind spot.look,
        fun v r => { r with program := r.program.map (spot.put v) }⟩ :=
  .field registrationSchema .program exact_registrationField rfl hvalue (.optional hnull h)
    (fun _ => rfl) fun _ _ => rfl

theorem Position.inCurrencies {around : List Token → List Token} {spot : Spot CurrencyTable}
    (h : Position currencyTable around spot) (hvalue : ∀ m ∈ before ++ after, IsValue m.2) :
    Position registration
      (fun gap => objectTokens (before ++ (some "currencies", around gap) :: after))
      ⟨fun r => spot.look r.currencies,
        fun v r => { r with currencies := spot.put v r.currencies }⟩ :=
  .field registrationSchema .currencies exact_registrationField rfl hvalue h
    (fun _ => rfl) fun _ _ => rfl

end Fields

section Positions

variable {α : Type} {read : Reader α} {around : List Token → List Token} {spot : Spot α}

theorem Position.document_eq_ok (h : Position read around spot) {used : List Token}
    (hused : IsValue used) {text : String} (htext : Token.ofText text = around used) {x : α}
    (hx : Reader.document read text = .ok x) :
    ∃ w, SpelledBy w used ∧ spot.look x = some w ∧ spot.put w x = x ∧
      ∀ v other changed, SpelledBy v other → Token.ofText changed = around other →
        Reader.document read changed = .ok (spot.put v x) ∧ spot.look (spot.put v x) = some v := by
  have hvalue : IsValue (Token.ofText text) := htext ▸ h.isValue hused
  rw [Reader.document_iff_takes h.exact hvalue, htext] at hx
  obtain ⟨w, hw, hlook, hput, hother⟩ := h.determines hused hx
  refine ⟨w, hw, hlook, hput, fun v other changed hv hchanged => ?_⟩
  obtain ⟨htakes, hlooked⟩ := hother v other hv
  refine ⟨Reader.document_of_takes ?_, hlooked⟩
  rw [hchanged]
  exact htakes

-- Two spellings of one number are read alike.
theorem Position.document_congr (h : Position read around spot) {w : Amount}
    {used other : List Token} (hused : SpelledBy w used) (hother : SpelledBy w other)
    {text changed : String} (htext : Token.ofText text = around used)
    (hchanged : Token.ofText changed = around other) {x : α}
    (hx : Reader.document read text = .ok x) : Reader.document read changed = .ok x := by
  obtain ⟨v, hv, -, hput, hreplace⟩ := h.document_eq_ok hused.isValue htext hx
  obtain rfl := hv.unique hused
  obtain ⟨hread, -⟩ := hreplace v other changed hother hchanged
  rwa [hput] at hread

end Positions

theorem document_amounts_iff {text : String} {items : List (List Token)}
    (hvalue : ∀ item ∈ items, IsValue item) (htext : Token.ofText text = listTokens items)
    {vs : List Amount} :
    Reader.document amounts text = .ok vs ↔
      List.Forall₂ (fun item v => SpelledBy v item) items vs := by
  have hlist : IsValue (Token.ofText text) := htext ▸ .list hvalue
  rw [Reader.document_iff_takes exact_amounts hlist, htext, takes_amounts_iff hvalue]
  exact and_iff_right (by decide)

end Document

namespace Http.Service

open Document
open Json (Reader Value Token Numeral IsValue objectTokens listTokens)
open Text (WritesDecimal WritesHexadecimal)

-- Two spellings of one number are the same to all that is read, registered and priced.
theorem amounts_are_read_exactly :
    -- what spells an amount: a numeral in a string, or a bare integer of one machine word
    (∀ v : Amount,
      (∀ text, Reader.document amount text = .ok v ↔ SpelledBy v (Token.ofText text)) ∧
      (∀ s, WritesDecimal s v.toNat ∨ WritesHexadecimal s v.toNat → SpelledBy v [.text (some s)]) ∧
      (∀ n, SpelledBy v [.number (.ofNat n)] ↔ n = v.toNat ∧ n < Nat.pow 2 64) ∧
      (∀ n : Numeral, n.negative = true ∨ n.fraction ≠ [] ∨ n.exponent ≠ none →
        ¬SpelledBy v [.number n]) ∧
      (∀ b, ¬SpelledBy v [.boolean b]) ∧ ¬SpelledBy v [.null] ∧
      (∀ items, ¬SpelledBy v (listTokens items)) ∧
      ∀ members, ¬SpelledBy v (objectTokens members)) ∧
    -- at every position just that is read, and as the amount that it spells
    (∀ (α : Type) (read : Reader α) (around : List Token → List Token) (spot : Spot α),
      Position read around spot → ∀ used, IsValue used → ∀ text, Token.ofText text = around used →
      ∀ x, Reader.document read text = .ok x →
        ∃ w, SpelledBy w used ∧ spot.look x = some w ∧ spot.put w x = x ∧
          ∀ v other changed, SpelledBy v other → Token.ofText changed = around other →
            Reader.document read changed = .ok (spot.put v x) ∧
            spot.look (spot.put v x) = some v) ∧
    -- the fields of documents are such positions
    (∀ (α : Type) (read : Reader α) key (spot : Spot α), AmountField read key spot →
      ∀ before after, (∀ m ∈ before ++ after, IsValue m.2) →
        Position read (fun gap => objectTokens (before ++ (some key, gap) :: after)) spot) ∧
    (∀ (α : Type) (read : Reader α) key get set, AmountsField read key get set →
      ∀ before after, (∀ m ∈ before ++ after, IsValue m.2) →
      ∀ items more, (∀ item ∈ items ++ more, IsValue item) →
        Position read (fun gap =>
            objectTokens (before ++ (some key, listTokens (items ++ gap :: more)) :: after))
          ⟨fun x => (get x)[items.length]?, fun v x => set ((get x).set items.length v) x⟩) ∧
    -- also when the program or the table of currencies is part of a registration
    (∀ around spot, Position program around spot → (∀ gap, (around gap).head? ≠ some .null) →
      ∀ before after, (∀ m ∈ before ++ after, IsValue m.2) →
        Position registration
          (fun gap => objectTokens (before ++ (some "vm_state_config", around gap) :: after))
          ⟨fun r => r.program.bind spot.look,
            fun v r => { r with program := r.program.map (spot.put v) }⟩) ∧
    (∀ around spot, Position currencyTable around spot →
      ∀ before after, (∀ m ∈ before ++ after, IsValue m.2) →
        Position registration
          (fun gap => objectTokens (before ++ (some "currencies", around gap) :: after))
          ⟨fun r => spot.look r.currencies,
            fun v r => { r with currencies := spot.put v r.currencies }⟩) ∧
    -- a list has one amount for each of its items
    (∀ text items, (∀ item ∈ items, IsValue item) → Token.ofText text = listTokens items →
      ∀ vs, Reader.document amounts text = .ok vs ↔
        List.Forall₂ (fun item v => SpelledBy v item) items vs) ∧
    -- and how an amount is spelled makes no difference to anything that follows
    (∀ (α : Type) (read : Reader α) around (spot : Spot α), Position read around spot →
      ∀ w used other, SpelledBy w used → SpelledBy w other →
      ∀ text changed, Token.ofText text = around used → Token.ofText changed = around other →
      ∀ x, Reader.document read text = .ok x ↔ Reader.document read changed = .ok x) ∧
    ∀ around (spot : Spot Registration), Position registration around spot →
      ∀ w used other, SpelledBy w used → SpelledBy w other →
      ∀ r q, Sent r → Sent q → Token.ofText r.body = around used →
      Token.ofText q.body = around other →
      ∀ x, Reader.document registration r.body = .ok x → ∀ c, Alike c r q := by
  refine ⟨fun v => ⟨fun text => document_amount_iff, ?_, fun n => spelledBy_natural_iff, ?_, nofun,
    nofun, ?_, ?_⟩, ?_, ?_, ?_, ?_, ?_, ?_, ?_, ?_⟩
  · rintro s (h | h)
    · exact .text (.inl h)
    · exact .text (.inr (.inl h))
  · rintro n hn (⟨hplain, -, -⟩ | -)
    obtain h | h | h := hn
    · rw [hplain.negative_eq] at h
      cases h
    · exact h hplain.fraction_eq
    · exact h hplain.exponent_eq
  · intro items h
    generalize hused : listTokens items = used at h
    cases h <;> cases hused
  · intro members h
    generalize hused : objectTokens members = used at h
    cases h <;> cases hused
  · intro α read around spot h used hused text htext x hx
    exact h.document_eq_ok hused htext hx
  · intro α read key spot h before after hvalue
    exact h.position hvalue
  · intro α read key get set h before after hvalue items more hitems
    exact h.position hvalue hitems
  · intro around spot h hnull before after hvalue
    exact h.inProgram hnull hvalue
  · intro around spot h before after hvalue
    exact h.inCurrencies hvalue
  · intro text items hvalue htext vs
    exact document_amounts_iff hvalue htext
  · intro α read around spot h w used other hused hother text changed htext hchanged x
    exact ⟨h.document_congr hused hother htext hchanged,
      h.document_congr hother hused hchanged htext⟩
  · intro around spot h w used other hused hother r q hr hq hrtext hqtext x hx c
    apply alike_of_offerOf_eq hr hq
    rw [hr.offerOf_eq hx, hq.offerOf_eq (h.document_congr hused hother hrtext hqtext hx)]

-- A registration whose program has one constant, and its tokens around that constant.
def swordWith (constant : Value) : Request :=
  ⟨"POST", "/api/assets", some "application/json",
    (Value.object (swordMembers ++ [("vm_state_config",
      .object [("sources", .list (swordProgram.sources.map ofScript)),
        ("constants", .list [constant])])])).compactText⟩

def aroundConstant (gap : List Token) : List Token :=
  objectTokens (Value.tokensOfMembers swordMembers ++ (some "vm_state_config",
    objectTokens ([(some "sources", (Value.list (swordProgram.sources.map ofScript)).tokens)] ++
      (some "constants", listTokens ([] ++ gap :: [])) :: [])) :: [])

theorem ofText_swordWith (constant : Value) :
    Token.ofText (swordWith constant).body = aroundConstant constant.tokens :=
  Value.ofText_compactText _

theorem amounts_are_read_exactly_sword :
    SpelledBy .one (Value.natural 1).tokens ∧ SpelledBy .one (Value.text " 0x01").tokens ∧
      Reader.document registration (swordWith (.text " 0x01")).body =
        .ok (swordRegistration.withProgram swordProgram) ∧
      Alike .empty (swordWith (.natural 1)) (swordWith (.text " 0x01")) := by
  obtain ⟨hspelled, -, -, hfields, hprogram, -, -, hsame, halike⟩ := amounts_are_read_exactly
  obtain ⟨-, htext, hnumber, -⟩ := hspelled .one
  have hone : SpelledBy .one (Value.natural 1).tokens := (hnumber 1).2 ⟨rfl, by decide⟩
  have hhexadecimal : SpelledBy .one (Value.text " 0x01").tokens :=
    htext " 0x01" (.inr (Text.writesHexadecimal_iff.2
      ⟨'x', ['0', '1'], .inl rfl, by decide, by decide, by decide, by decide⟩))
  have hsources : ∀ m ∈ [(some "sources", (Value.list (swordProgram.sources.map ofScript)).tokens)]
      ++ ([] : List (Option String × List Token)), IsValue m.2 := by
    rw [List.append_nil, List.forall_mem_singleton]
    exact Value.isValue_tokens _
  have hmembers : ∀ m ∈ Value.tokensOfMembers swordMembers ++ [], IsValue m.2 := by
    rw [List.append_nil]
    exact Value.isValue_of_mem_tokensOfMembers _
  have hconstants := hfields _ _ _ _ _ .constants _ [] hsources [] [] (List.forall_mem_nil _)
  have hposition : Position registration aroundConstant _ :=
    hprogram _ _ hconstants (fun gap => by simp [objectTokens]) _ _ hmembers
  have hread : Reader.document registration (swordWith (.natural 1)).body =
      .ok (swordRegistration.withProgram swordProgram) := by
    rw [Reader.document_eq_ok, ofText_swordWith]
    rfl
  have hr : Sent (swordWith (.natural 1)) := sent_ofList (by decide +kernel)
  have hq : Sent (swordWith (.text " 0x01")) := sent_ofList (by decide +kernel)
  have hrtext := ofText_swordWith (.natural 1)
  have hqtext := ofText_swordWith (.text " 0x01")
  refine ⟨hone, hhexadecimal, ?_, ?_⟩
  · exact (hsame _ _ _ _ hposition _ _ _ hone hhexadecimal _ _ hrtext hqtext _).1 hread
  · exact halike _ _ hposition _ _ _ hone hhexadecimal _ _ hr hq hrtext hqtext _ hread .empty

end Http.Service

end Tariff

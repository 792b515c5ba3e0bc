import Tariff.Document.Price
import Tariff.Document.Program
import Tariff.Document.Currency
import Tariff.Proofs.Document.Basic
import Tariff.Proofs.Json.Replacement
import Tariff.Proofs.Text.Reading

namespace Tariff

namespace Json.Numeral

-- No sign, no fraction and no exponent.
structure IsPlain (n : Numeral) : Prop where
  negative_eq : n.negative = false
  fraction_eq : n.fraction = []
  exponent_eq : n.exponent = none

theorem ofDigitChars_of_gather {cs : List Char} {n k : Nat} (h : gather n cs = (k, [])) :
    Nat.ofDigitChars 10 cs n = k := by
  induction cs generalizing n with
  | nil => exact (Prod.mk.inj h).1
  | cons c cs ih =>
    rw [gather] at h
    split at h
    · rw [Nat.ofDigitChars_cons]
      exact ih h
    · cases h

theorem value?_eq_natural_iff {n : Numeral} {k : Nat} :
    n.value? = some (.natural k) ↔
      n.IsPlain ∧ Nat.ofDigitChars 10 n.whole 0 = k ∧ k < Nat.pow 2 64 := by
  constructor
  · intro h
    have hlt := lt_of_value?_eq_natural h
    unfold value? at h
    simp only at h
    split at h
    · rename_i hplain
      simp only [Bool.and_eq_true, List.isEmpty_iff, Option.isNone_iff_eq_none] at hplain
      obtain ⟨⟨hfraction, hexponent⟩, hexcess⟩ := hplain
      split at h
      · rename_i hnegative
        cases h
        have hgather : gather 0 n.whole = ((gather 0 n.whole).1, []) := Prod.ext rfl hexcess
        exact ⟨⟨by simpa using hnegative, hfraction, hexponent⟩,
          ofDigitChars_of_gather hgather, hlt⟩
      · split at h <;> cases h
    · exact absurd h (toDouble?_ne_natural n k)
  · rintro ⟨hplain, rfl, hlt⟩
    simp only [value?, gather_of_lt hlt, hplain.fraction_eq, hplain.exponent_eq, hplain.negative_eq]
    rfl

end Json.Numeral

namespace Document

open Json (Reader Token Numeral Schema IsValue objectTokens listTokens)
open Json.Reader (Takes Exact)

inductive SpelledBy (v : Amount) : List Token → Prop
  | number {n : Numeral} (hplain : n.IsPlain)
    (hvalue : Nat.ofDigitChars 10 n.whole 0 = v.toNat) (hlt : v.toNat < Nat.pow 2 64) :
    SpelledBy v [.number n]
  | text {s : String} (h : Amount.Reads s v) : SpelledBy v [.text (some s)]

theorem SpelledBy.isValue {v : Amount} {used : List Token} (h : SpelledBy v used) :
    IsValue used := by
  cases h with
  | number hplain hvalue hlt => exact .number _
  | text h => exact .text _

theorem literal_eq_ok {room : Nat} {tokens rest : List Token} {l : Literal} :
    literal room tokens = .ok (l, rest) ↔
      (∃ n k, tokens = .number n :: rest ∧ n.value? = some (.natural k) ∧ l = .number k) ∨
        ∃ s, tokens = .text (some s) :: rest ∧ l = .text s := by
  constructor
  · intro h
    unfold literal at h
    split at h
    · rename_i n rest
      split at h
      · rename_i k hk
        cases h
        exact .inl ⟨n, k, rfl, hk, rfl⟩
      all_goals cases h
    · rename_i s rest
      cases h
      exact .inr ⟨s, rfl, rfl⟩
    · split at h <;> cases h
  · rintro (⟨n, k, rfl, hk, rfl⟩ | ⟨s, rfl, rfl⟩)
    · exact takes_literal_number hk room rest
    · exact takes_literal_text room s rest

theorem amount_number_eq_ok_iff {k : Nat} {v : Amount} :
    Literal.amount (.number k) = .ok v ↔ v.toNat = k := by
  rw [Literal.amount, Literal.amount?, ← Amount.ofNat?_eq_some_iff]
  cases Amount.ofNat? k <;> simp

theorem SpelledBy.exists_literal {used : List Token} {v : Amount} (h : SpelledBy v used)
    (room : Nat) : ∃ l, Takes literal room used l ∧ l.amount = .ok v := by
  cases h with
  | number hplain hvalue hlt =>
    exact ⟨.number v.toNat,
      takes_literal_number (Numeral.value?_eq_natural_iff.2 ⟨hplain, hvalue, hlt⟩) room,
      amount_number_eq_ok_iff.2 rfl⟩
  | text h =>
    exact ⟨.text _, takes_literal_text room _,
      amount_text_eq_ok_iff.2 (Amount.ofText?_eq_some_iff.2 h)⟩

theorem spelledBy_of_literal {room : Nat} {used : List Token} {l : Literal} {v : Amount}
    (h : literal room used = .ok (l, [])) (hv : l.amount = .ok v) : SpelledBy v used := by
  obtain ⟨n, k, rfl, hk, rfl⟩ | ⟨s, rfl, rfl⟩ := literal_eq_ok.1 h
  · obtain rfl := amount_number_eq_ok_iff.1 hv
    obtain ⟨hplain, hvalue, hlt⟩ := Numeral.value?_eq_natural_iff.1 hk
    exact .number hplain hvalue hlt
  · exact .text (Amount.ofText?_eq_some_iff.1 (amount_text_eq_ok_iff.1 hv))

theorem SpelledBy.takes {used : List Token} {v : Amount} (h : SpelledBy v used) (room : Nat) :
    Takes amount room used v := by
  obtain ⟨l, htakes, hv⟩ := h.exists_literal room
  exact fun rest => amount_eq_ok.2 ⟨l, htakes rest, hv⟩

theorem spelledBy_of_amount {room : Nat} {used : List Token} {v : Amount}
    (h : amount room used = .ok (v, [])) : SpelledBy v used := by
  obtain ⟨l, hl, hv⟩ := amount_eq_ok.1 h
  exact spelledBy_of_literal hl hv

theorem document_amount_iff {text : String} {v : Amount} :
    Reader.document amount text = .ok v ↔ SpelledBy v (Token.ofText text) := by
  refine ⟨fun h => ?_, fun h => Reader.document_of_takes (h.takes 127)⟩
  exact spelledBy_of_amount (Reader.document_eq_ok.1 h)

theorem exact_amount : Exact amount := by
  intro room used rest after v hused h
  obtain ⟨l, hl, hv⟩ := amount_eq_ok.1 h
  obtain ⟨hafter, htakes⟩ := exact_literal hused hl
  exact ⟨hafter, fun other => amount_eq_ok.2 ⟨l, htakes other, hv⟩⟩

theorem mapM_amount_eq_ok_iff {ls : List Literal} {vs : List Amount} :
    ls.mapM Literal.amount = .ok vs ↔ List.Forall₂ (fun l v => l.amount = .ok v) ls vs := by
  induction ls generalizing vs with
  | nil => cases vs <;> simp [pure, Except.pure]
  | cons l ls ih =>
    rw [List.mapM_cons, List.forall₂_cons_left_iff]
    cases hl : l.amount with
    | error e => simp [bind, Except.bind]
    | ok v =>
      cases hls : ls.mapM Literal.amount with
      | error e =>
        simp only [hls, reduceCtorEq, false_iff] at ih
        simp [bind, Except.bind, ih]
      | ok rest =>
        rw [hls] at ih
        constructor
        · intro h
          cases h
          exact ⟨v, rest, rfl, ih.1 rfl, rfl⟩
        · rintro ⟨other, more, hother, hmore, rfl⟩
          cases hother
          cases ih.2 hmore
          rfl

theorem forall₂_spelledBy_iff (room : Nat) {items : List (List Token)} {vs : List Amount} :
    List.Forall₂ (fun item v => SpelledBy v item) items vs ↔
      ∃ ls, List.Forall₂ (Takes literal room) items ls ∧
        List.Forall₂ (fun l v => l.amount = .ok v) ls vs := by
  constructor
  · intro h
    induction h with
    | nil => exact ⟨[], .nil, .nil⟩
    | cons hitem _ ih =>
      obtain ⟨l, hl, hv⟩ := hitem.exists_literal room
      obtain ⟨ls, hls, hvs⟩ := ih
      exact ⟨l :: ls, .cons hl hls, .cons hv hvs⟩
  · rintro ⟨ls, hls, hvs⟩
    induction hls generalizing vs with
    | nil =>
      cases hvs
      exact .nil
    | cons hl _ ih =>
      cases hvs with
      | cons hv hvs =>
        have hread := hl []
        rw [List.append_nil] at hread
        exact .cons (spelledBy_of_literal hread hv) (ih hvs)

-- One amount for each item, in their order.
theorem takes_amounts_iff {room : Nat} {items : List (List Token)}
    (hvalue : ∀ item ∈ items, IsValue item) {vs : List Amount} :
    Takes amounts room (listTokens items) vs ↔
      0 < room ∧ List.Forall₂ (fun item v => SpelledBy v item) items vs := by
  constructor
  · intro htakes
    obtain ⟨ls, hls, hvs⟩ := amounts_eq_ok.1 (htakes [])
    obtain ⟨-, hlist⟩ := Reader.exact_list exact_literal (.list hvalue) hls
    obtain ⟨inner, rfl, hitems⟩ := (Reader.takes_list_iff exact_literal hvalue).1 hlist
    exact ⟨Nat.succ_pos inner,
      (forall₂_spelledBy_iff inner).2 ⟨ls, hitems, mapM_amount_eq_ok_iff.1 hvs⟩⟩
  · rintro ⟨hroom, hall⟩ rest
    obtain ⟨inner, rfl⟩ := Nat.exists_eq_add_one_of_ne_zero (Nat.ne_zero_of_lt hroom)
    obtain ⟨ls, hitems, hvs⟩ := (forall₂_spelledBy_iff inner).1 hall
    exact amounts_eq_ok.2 ⟨ls, Reader.takes_list hvalue hitems rest, mapM_amount_eq_ok_iff.2 hvs⟩

-- An amount inside a value: what it is, and the value with another one in its place.
structure Spot (α : Type) where
  look : α → Option Amount
  put : Amount → α → α

-- The tokens of a document with a gap for one amount, and where this amount is in what is read.
inductive Position : {α : Type} → Reader α → (List Token → List Token) → Spot α → Prop
  | amount : Position amount (fun gap => gap) ⟨some, fun v _ => v⟩
  | among {before after : List (List Token)} (hvalue : ∀ item ∈ before ++ after, IsValue item) :
    Position amounts (fun gap => listTokens (before ++ gap :: after))
      ⟨fun vs => vs[before.length]?, fun v vs => vs.set before.length v⟩
  | item {α : Type} {read : Reader α} {around : List Token → List Token} {spot : Spot α}
    {before after : List (List Token)} (hvalue : ∀ item ∈ before ++ after, IsValue item)
    (h : Position read around spot) :
    Position (Reader.list read) (fun gap => listTokens (before ++ around gap :: after))
      ⟨fun xs => xs[before.length]?.bind spot.look,
        fun v xs => xs.modify before.length (spot.put v)⟩
  | optional {α : Type} {read : Reader α} {around : List Token → List Token} {spot : Spot α}
    (hnull : ∀ gap, (around gap).head? ≠ some .null) (h : Position read around spot) :
    Position (Reader.optional read) around
      ⟨fun x => x.bind spot.look, fun v x => x.map (spot.put v)⟩
  | member {s : Schema} {key : String} {f : s.Field} {around : List Token → List Token}
    {spot : Spot (s.Content f)} {before after : List (Option String × List Token)}
    (hread : ∀ g, Exact (s.read g)) (hkey : s.fieldNamed? key = some f)
    (hvalue : ∀ m ∈ before ++ after, IsValue m.2) (h : Position (s.read f) around spot) :
    Position s.reader (fun gap => objectTokens (before ++ (some key, around gap) :: after))
      ⟨fun all => spot.look (all f), fun v all => Function.update all f (spot.put v (all f))⟩
  | element {s : Schema} {f : s.Field} {around : List Token → List Token}
    {spot : Spot (s.Content f)} {before after : List (List Token)}
    (hread : ∀ g, Exact (s.read g)) (hfields : s.fields.Nodup)
    (hf : s.fields[before.length]? = some f) (hvalue : ∀ item ∈ before ++ after, IsValue item)
    (h : Position (s.read f) around spot) :
    Position s.reader (fun gap => listTokens (before ++ around gap :: after))
      ⟨fun all => spot.look (all f), fun v all => Function.update all f (spot.put v (all f))⟩
  | made {α : Type} {s : Schema} {make : s.Members → α} {around : List Token → List Token}
    {spot : Spot s.Members} {other : Spot α} (h : Position s.reader around spot)
    (hlook : ∀ all, other.look (make all) = spot.look all)
    (hput : ∀ v all, other.put v (make all) = make (spot.put v all)) :
    Position (s.readerOf make) around other

section Position

variable {α : Type} {read : Reader α} {around : List Token → List Token} {spot : Spot α}

theorem Position.exact (h : Position read around spot) : Exact read := by
  induction h with
  | amount => exact exact_amount
  | among hvalue => exact exact_amounts
  | item hvalue _ ih => exact Reader.exact_list ih
  | optional hnull _ ih => exact Reader.exact_optional ih
  | member hread hkey hvalue _ _ => exact Schema.exact_reader hread
  | element hread hfields hf hvalue _ _ => exact Schema.exact_reader hread
  | made _ hlook hput ih => exact Schema.exact_readerOf_of_exact _ ih

theorem Position.isValue (h : Position read around spot) {used : List Token}
    (hused : IsValue used) : IsValue (around used) := by
  induction h with
  | amount => exact hused
  | among hvalue => exact .list (Json.forall_mem_insert hvalue hused)
  | item hvalue _ ih => exact .list (Json.forall_mem_insert hvalue ih)
  | optional hnull _ ih => exact ih
  | member hread hkey hvalue _ ih =>
    apply IsValue.object
    exact Json.forall_mem_insert (P := fun m : Option String × List Token => IsValue m.2) hvalue ih
  | element hread hfields hf hvalue _ ih => exact .list (Json.forall_mem_insert hvalue ih)
  | made _ hlook hput ih => exact ih

-- What is read has one amount at the spot, the one that is spelled in the gap. With another
-- spelling in the gap the same is read, but for the amount at the spot.
def Determines (read : Reader α) (around : List Token → List Token) (spot : Spot α) : Prop :=
  ∀ ⦃room : Nat⦄ ⦃used : List Token⦄ ⦃x : α⦄, IsValue used → Takes read room (around used) x →
    ∃ w, SpelledBy w used ∧ spot.look x = some w ∧ spot.put w x = x ∧
      ∀ v other, SpelledBy v other →
        Takes read room (around other) (spot.put v x) ∧ spot.look (spot.put v x) = some v

theorem set_of_getElem? {β : Type} {xs : List β} {i : Nat} {x : β} (h : xs[i]? = some x) :
    xs.set i x = xs ∧ ∀ y, (xs.set i y)[i]? = some y := by
  obtain ⟨hi, rfl⟩ := List.getElem?_eq_some_iff.1 h
  exact ⟨List.set_getElem_self hi, fun y => List.getElem?_set_self hi⟩

theorem determines_amount : Determines amount (fun gap => gap) ⟨some, fun v _ => v⟩ := by
  intro room used v hused htakes
  have hread := htakes []
  rw [List.append_nil] at hread
  exact ⟨v, spelledBy_of_amount hread, rfl, rfl, fun w other hw => ⟨hw.takes room, rfl⟩⟩

theorem determines_among {before after : List (List Token)}
    (hvalue : ∀ item ∈ before ++ after, IsValue item) :
    Determines amounts (fun gap => listTokens (before ++ gap :: after))
      ⟨fun vs => vs[before.length]?, fun v vs => vs.set before.length v⟩ := by
  intro room used vs hused htakes
  obtain ⟨hroom, hall⟩ := (takes_amounts_iff (Json.forall_mem_insert hvalue hused)).1 htakes
  obtain ⟨w, hget, hw, hreplace⟩ := Json.forall₂_replace hall
  obtain ⟨hself, hset⟩ := set_of_getElem? hget
  refine ⟨w, hw, hget, hself, fun v other hv => ⟨?_, hset v⟩⟩
  exact (takes_amounts_iff (Json.forall_mem_insert hvalue hv.isValue)).2
    ⟨hroom, hreplace other v hv⟩

theorem modify_of_getElem? {xs : List α} {i : Nat} {x : α} (h : xs[i]? = some x) (g : α → α) :
    xs.modify i g = xs.set i (g x) := by
  obtain ⟨hi, rfl⟩ := List.getElem?_eq_some_iff.1 h
  exact List.modify_eq_set_get g hi

theorem determines_item {before after : List (List Token)}
    (hvalue : ∀ item ∈ before ++ after, IsValue item) (hposition : Position read around spot)
    (h : Determines read around spot) :
    Determines (Reader.list read) (fun gap => listTokens (before ++ around gap :: after))
      ⟨fun xs => xs[before.length]?.bind spot.look,
        fun v xs => xs.modify before.length (spot.put v)⟩ := by
  intro room used xs hused htakes
  have hitems (gap : List Token) (hgap : IsValue gap) :=
    Json.forall_mem_insert hvalue (hposition.isValue hgap)
  obtain ⟨inner, rfl, hall⟩ :=
    (Reader.takes_list_iff hposition.exact (hitems used hused)).1 htakes
  obtain ⟨x, hget, hx, hreplace⟩ := Json.forall₂_replace hall
  obtain ⟨hself, hset⟩ := set_of_getElem? hget
  obtain ⟨w, hw, hlook, hput, hother⟩ := h hused hx
  simp only [modify_of_getElem? hget]
  refine ⟨w, hw, by rw [hget]; exact hlook, by rw [hput, hself], fun v other hv => ?_⟩
  obtain ⟨htakes, hlooked⟩ := hother v other hv
  exact ⟨Reader.takes_list (hitems other hv.isValue) (hreplace _ _ htakes),
    by rw [hset]; exact hlooked⟩

theorem determines_optional (hnull : ∀ gap, (around gap).head? ≠ some .null)
    (hposition : Position read around spot) (h : Determines read around spot) :
    Determines (Reader.optional read) around
      ⟨fun x => x.bind spot.look, fun v x => x.map (spot.put v)⟩ := by
  have htaken {room : Nat} {gap : List Token} (hgap : IsValue gap) {x : Option α} :
      Takes (Reader.optional read) room (around gap) x ↔
        ∃ y, x = some y ∧ Takes read room (around gap) y := by
    obtain ⟨t, more, hcons, -⟩ := (hposition.isValue hgap).exists_cons
    have ht := hnull gap
    rw [hcons] at ht ⊢
    exact Reader.takes_optional_of_ne_null fun heq => ht (congrArg some heq)
  intro room used x hused htakes
  obtain ⟨y, rfl, hy⟩ := (htaken hused).1 htakes
  obtain ⟨w, hw, hlook, hput, hother⟩ := h hused hy
  refine ⟨w, hw, hlook, congrArg some hput, fun v other hv => ?_⟩
  obtain ⟨htakes, hlooked⟩ := hother v other hv
  exact ⟨(htaken hv.isValue).2 ⟨_, rfl, htakes⟩, hlooked⟩

-- A field of a record, in an object or in a list.
theorem determines_field {s : Schema} {f : s.Field} {around : List Token → List Token}
    {spot : Spot (s.Content f)} (whole : List Token → List Token)
    (hposition : Position (s.read f) around spot)
    (h : Determines (s.read f) around spot)
    (hreplace : ∀ {room used all}, IsValue used → Takes s.reader room (whole used) all →
      ∃ inner, Takes (s.read f) inner used (all f) ∧
        ∀ other y, IsValue other → Takes (s.read f) inner other y →
          Takes s.reader room (whole other) (Function.update all f y)) :
    Determines s.reader (fun gap => whole (around gap))
      ⟨fun all => spot.look (all f), fun v all => Function.update all f (spot.put v (all f))⟩ := by
  intro room used all hused htakes
  obtain ⟨inner, hf, hupdate⟩ := hreplace (hposition.isValue hused) htakes
  obtain ⟨w, hw, hlook, hput, hother⟩ := h hused hf
  refine ⟨w, hw, hlook, ?_, fun v other hv => ?_⟩
  · simp only [hput, Function.update_eq_self]
  · obtain ⟨htakes, hlooked⟩ := hother v other hv
    refine ⟨hupdate _ _ (hposition.isValue hv.isValue) htakes, ?_⟩
    simp only [Function.update_self]
    exact hlooked

theorem Position.determines (h : Position read around spot) : Determines read around spot := by
  induction h with
  | amount => exact determines_amount
  | among hvalue => exact determines_among hvalue
  | item hvalue h ih => exact determines_item hvalue h ih
  | optional hnull h ih => exact determines_optional hnull h ih
  | @member s key f around spot before after hread hkey hvalue h ih =>
    exact determines_field (fun used => objectTokens (before ++ (some key, used) :: after)) h ih
      fun hused htakes => Schema.takes_replace_member hread hkey hvalue hused htakes
  | @element s f around spot before after hread hfields hf hvalue h ih =>
    exact determines_field (fun used => listTokens (before ++ used :: after)) h ih
      fun hused htakes => Schema.takes_replace_element hread hfields hf hvalue hused htakes
  | @made α s make around spot other h hlook hput ih =>
    intro room used x hused htakes
    obtain ⟨all, hall, rfl⟩ :=
      (Schema.takes_readerOf_iff h.exact (h.isValue hused)).1 htakes
    obtain ⟨w, hw, hlooked, hself, hreplace⟩ := ih hused hall
    simp only [hlook, hput]
    refine ⟨w, hw, hlooked, congrArg make hself, fun v other hv => ?_⟩
    obtain ⟨htakes, hafter⟩ := hreplace v other hv
    exact ⟨Schema.takes_readerOf make htakes, hafter⟩

end Position

end Document

end Tariff

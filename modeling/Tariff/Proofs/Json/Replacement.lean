import Mathlib.Logic.Function.Basic
import Tariff.Proofs.Json.Record

namespace Tariff.Json

theorem forall₂_replace {α β : Type} {R : α → β → Prop} {before after : List α} {a : α}
    {xs : List β} (h : List.Forall₂ R (before ++ a :: after) xs) :
    ∃ x, xs[before.length]? = some x ∧ R a x ∧
      ∀ b y, R b y → List.Forall₂ R (before ++ b :: after) (xs.set before.length y) := by
  induction before generalizing xs with
  | nil =>
    obtain ⟨x, rest, hx, hrest, rfl⟩ := List.forall₂_cons_left_iff.1 h
    exact ⟨x, rfl, hx, fun b y hy => .cons hy hrest⟩
  | cons c before ih =>
    obtain ⟨z, rest, hz, hrest, rfl⟩ := List.forall₂_cons_left_iff.1 h
    obtain ⟨x, hget, hx, hreplace⟩ := ih hrest
    exact ⟨x, hget, hx, fun b y hy => .cons hz (hreplace b y hy)⟩

theorem forall_mem_insert {α : Type} {P : α → Prop} {before after : List α}
    (h : ∀ x ∈ before ++ after, P x) {a : α} (ha : P a) : ∀ x ∈ before ++ a :: after, P x := by
  simp only [List.forall_mem_append, List.forall_mem_cons] at h ⊢
  exact ⟨h.1, ha, h.2⟩

namespace Schema

open Reader (Takes Exact)

variable {s : Schema}

theorem set_eq_update (p : s.Partial) (f : s.Field) (x : s.Content f) :
    s.set p f x = Function.update p f (some x) := by
  funext g
  by_cases hfg : f = g
  · subst hfg
    rw [set_self, Function.update_self]
  · rw [set_of_ne hfg, Function.update_of_ne (Ne.symm hfg)]

theorem set_set (p : s.Partial) (f : s.Field) (x y : s.Content f) :
    s.set (s.set p f x) f y = s.set p f y := by
  simp only [set_eq_update, Function.update_idem]

theorem set_comm {f g : s.Field} (h : f ≠ g) (p : s.Partial) (x : s.Content f) (y : s.Content g) :
    s.set (s.set p f x) g y = s.set (s.set p g y) f x := by
  simp only [set_eq_update]
  exact (Function.update_comm (Ne.symm h) _ _ p).symm

theorem complete_set {p : s.Partial} {all : s.Members} (h : s.complete p = .ok all) (f : s.Field)
    (y : s.Content f) : s.complete (s.set p f y) = .ok (Function.update all f y) := by
  rw [complete_eq_ok] at h ⊢
  intro g
  by_cases hfg : f = g
  · subst hfg
    rw [filled_of_some (set_self p f y), Function.update_self]
  · rw [filled_congr (set_of_ne hfg p y), h, Function.update_of_ne (Ne.symm hfg)]

section Object

variable {room : Nat}

-- No later member is for a field that has been read, so what was read there makes no difference.
theorem Collects.set {p q : s.Partial} {f : s.Field} {x : s.Content f}
    {ms : List (Option String × List Token)} (h : s.Collects room (s.set p f x) ms q)
    (y : s.Content f) : s.Collects room (s.set p f y) ms (s.set q f y) := by
  generalize hr : s.set p f x = r at h
  induction h generalizing p with
  | nil r =>
    subst hr
    rw [set_set]
    exact .nil _
  | @known r q key g z tokens ms hg hnone hz _ ih =>
    subst hr
    have hfg : f ≠ g := by
      rintro rfl
      rw [set_self] at hnone
      cases hnone
    rw [set_of_ne hfg] at hnone
    refine .known hg ((set_of_ne hfg p y).trans hnone) hz ?_
    rw [set_comm hfg]
    exact ih (set_comm hfg p x z).symm
  | unknown hg _ ih => exact .unknown hg (ih hr)

theorem Collects.replace {p q : s.Partial} {key : String} {f : s.Field}
    (hkey : s.fieldNamed? key = some f) {before after : List (Option String × List Token)}
    {used : List Token} (h : s.Collects room p (before ++ (some key, used) :: after) q) :
    ∃ x, q f = some x ∧ Takes (s.read f) room used x ∧ ∀ other y, Takes (s.read f) room other y →
      s.Collects room p (before ++ (some key, other) :: after) (s.set q f y) := by
  obtain ⟨r, hbefore, hmore⟩ := collects_append.1 h
  cases hmore with
  | @known r q key g x used after hg hnone hx hafter =>
    obtain rfl : f = g := Option.some.inj (hkey.symm.trans hg)
    refine ⟨x, hafter.keeps (set_self r f x), hx, fun other y hy => ?_⟩
    exact collects_append.2 ⟨r, hbefore, .known hkey hnone hy (hafter.set y)⟩
  | unknown hnone hafter =>
    rw [hkey] at hnone
    cases hnone

theorem takes_replace_member (hread : ∀ f, Exact (s.read f)) {key : String} {f : s.Field}
    (hkey : s.fieldNamed? key = some f) {before after : List (Option String × List Token)}
    (hvalue : ∀ m ∈ before ++ after, IsValue m.2) {used : List Token} (hused : IsValue used)
    {all : s.Members}
    (h : Takes s.reader room (objectTokens (before ++ (some key, used) :: after)) all) :
    ∃ inner, Takes (s.read f) inner used (all f) ∧
      ∀ other y, IsValue other → Takes (s.read f) inner other y →
        Takes s.reader room (objectTokens (before ++ (some key, other) :: after))
          (Function.update all f y) := by
  have hwhole (tokens : List Token) (htokens : IsValue tokens) :
      ∀ m ∈ before ++ (some key, tokens) :: after, IsValue m.2 :=
    forall_mem_insert (P := fun m : Option String × List Token => IsValue m.2) hvalue htokens
  obtain ⟨inner, p, rfl, hcollects, hall⟩ :=
    (takes_reader_object_iff hread (hwhole used hused)).1 h
  obtain ⟨x, hp, hx, hreplace⟩ := hcollects.replace hkey
  obtain rfl : all f = x := eq_of_complete hall hp
  refine ⟨inner, hx, fun other y hother hy => ?_⟩
  exact takes_object (hwhole other hother) (hreplace other y hy) (complete_set hall f y)

end Object

section List

variable {room : Nat}

theorem Lists.set {fields : List s.Field} {p q : s.Partial} {f : s.Field} (hf : f ∉ fields)
    {x : s.Content f} {useds : List (List Token)}
    (h : s.Lists room fields (s.set p f x) useds q) (y : s.Content f) :
    q f = some x ∧ s.Lists room fields (s.set p f y) useds (s.set q f y) := by
  generalize hr : s.set p f x = r at h
  induction h generalizing p with
  | nil r =>
    subst hr
    rw [set_set]
    exact ⟨set_self p f x, .nil _⟩
  | @fallback g fields r q z hz _ ih =>
    subst hr
    rw [List.mem_cons, not_or] at hf
    obtain ⟨hkept, hmore⟩ := ih hf.2 (set_comm hf.1 p x z).symm
    refine ⟨hkept, .fallback hz ?_⟩
    rw [set_comm hf.1]
    exact hmore
  | @item g fields r q z used useds hz _ ih =>
    subst hr
    rw [List.mem_cons, not_or] at hf
    obtain ⟨hkept, hmore⟩ := ih hf.2 (set_comm hf.1 p x z).symm
    refine ⟨hkept, .item hz ?_⟩
    rw [set_comm hf.1]
    exact hmore

-- The induction is on the items before the one that is replaced, each of which takes one field.
theorem Lists.replace {fields : List s.Field} (hfields : fields.Nodup) {p q : s.Partial}
    {before after : List (List Token)} {f : s.Field} (hf : fields[before.length]? = some f)
    {used : List Token} (h : s.Lists room fields p (before ++ used :: after) q) :
    ∃ x, q f = some x ∧ Takes (s.read f) room used x ∧ ∀ other y, Takes (s.read f) room other y →
      s.Lists room fields p (before ++ other :: after) (s.set q f y) := by
  induction before generalizing fields p with
  | nil =>
    cases h with
    | @item g fields p q x used after hx hafter =>
      obtain rfl : g = f := Option.some.inj hf
      have hnotMem := (List.nodup_cons.1 hfields).1
      refine ⟨x, (hafter.set hnotMem x).1, hx, fun other y hy => ?_⟩
      exact .item hy (hafter.set hnotMem y).2
  | cons first before ih =>
    cases h with
    | @item g fields p q z first useds hz hmore =>
      obtain ⟨x, hkept, hx, hreplace⟩ := ih (List.nodup_cons.1 hfields).2 hf hmore
      exact ⟨x, hkept, hx, fun other y hy => .item hz (hreplace other y hy)⟩

theorem takes_replace_element (hread : ∀ f, Exact (s.read f)) (hfields : s.fields.Nodup)
    {f : s.Field} {before after : List (List Token)} (hf : s.fields[before.length]? = some f)
    (hvalue : ∀ item ∈ before ++ after, IsValue item) {used : List Token} (hused : IsValue used)
    {all : s.Members} (h : Takes s.reader room (listTokens (before ++ used :: after)) all) :
    ∃ inner, Takes (s.read f) inner used (all f) ∧
      ∀ other y, IsValue other → Takes (s.read f) inner other y →
        Takes s.reader room (listTokens (before ++ other :: after)) (Function.update all f y) := by
  obtain ⟨inner, p, rfl, hlists, hall⟩ :=
    (takes_reader_list_iff hread (forall_mem_insert hvalue hused)).1 h
  obtain ⟨x, hp, hx, hreplace⟩ := hlists.replace hfields hf
  obtain rfl : all f = x := eq_of_complete hall hp
  refine ⟨inner, hx, fun other y hother hy => ?_⟩
  exact takes_elements (forall_mem_insert hvalue hother) (hreplace other y hy)
    (complete_set hall f y)

end List

end Schema

end Tariff.Json

import Tariff.Proofs.Json.Record

namespace Tariff.Json.Schema

open Reader (Takes Exact)

-- The fields of one record among the fields of another one, under the same keys. The wide record
-- may hold more in a field. Its further fields can be left out.
structure Widening (s t : Schema) where
  field : s.Field → t.Field
  field_injective : Function.Injective field
  key_field : ∀ f, t.key (field f) = s.key f
  embed : (f : s.Field) → s.Content f → t.Content (field f)
  embed_injective : ∀ f, Function.Injective (embed f)
  takes_iff : ∀ {f : s.Field} {room : Nat} {used : List Token} {x : s.Content f}, IsValue used →
    (Takes (t.read (field f)) room used (embed f x) ↔ Takes (s.read f) room used x)
  absent_iff : ∀ {f : s.Field} {x : s.Content f},
    (t.absent (field f)).ofObject? = some (embed f x) ↔ (s.absent f).ofObject? = some x
  optional_outside : ∀ g, (∃ f, field f = g) ∨ ∃ y, (t.absent g).ofObject? = some y

variable {s t : Schema}

namespace Widening

variable (w : Widening s t)

-- No member is for a further field.
def Inside (ms : List (Option String × List Token)) : Prop :=
  ∀ m ∈ ms, ∀ key g, m.1 = some key → t.fieldNamed? key = some g → ∃ f, w.field f = g

-- The fields that both records have hold the same, and of the further fields none has been read.
structure Agrees (p : s.Partial) (q : t.Partial) : Prop where
  inside : ∀ f, q (w.field f) = (p f).map (w.embed f)
  outside : ∀ g, (¬∃ f, w.field f = g) → q g = none

variable {w}

theorem agrees_nothing : w.Agrees s.nothing t.nothing :=
  ⟨fun _ => rfl, fun _ _ => rfl⟩

theorem Agrees.set {p : s.Partial} {q : t.Partial} (h : w.Agrees p q) (f : s.Field)
    (x : s.Content f) : w.Agrees (s.set p f x) (t.set q (w.field f) (w.embed f x)) where
  inside g := by
    by_cases hfg : f = g
    · subst hfg
      rw [set_self, set_self, Option.map_some]
    · rw [set_of_ne hfg, set_of_ne fun heq => hfg (w.field_injective heq), h.inside]
  outside g hg := by
    rw [set_of_ne fun heq => hg ⟨f, heq⟩, h.outside g hg]

theorem Agrees.filled_iff {p : s.Partial} {q : t.Partial} (h : w.Agrees p q) {f : s.Field}
    {x : s.Content f} :
    t.filled q (w.field f) = some (w.embed f x) ↔ s.filled p f = some x := by
  have hq := h.inside f
  cases hp : p f with
  | none =>
    rw [hp] at hq
    rw [filled_of_none hp, filled_of_none hq, w.absent_iff]
  | some y =>
    rw [hp] at hq
    rw [filled_of_some hp, filled_of_some hq, Option.some.injEq, Option.some.injEq,
      (w.embed_injective f).eq_iff]

section Collecting

variable (hs : (s.fields.map s.key).Nodup) (ht : (t.fields.map t.key).Nodup)

include ht in
theorem fieldNamed?_of_some {key : String} {f : s.Field} (h : s.fieldNamed? key = some f) :
    t.fieldNamed? key = some (w.field f) := by
  rw [← key_of_fieldNamed? h, ← w.key_field]
  exact fieldNamed?_key ht (w.field f)

include hs in
theorem fieldNamed?_of_none {key : String} (h : s.fieldNamed? key = none)
    (hinside : ∀ g, t.fieldNamed? key = some g → ∃ f, w.field f = g) :
    t.fieldNamed? key = none := by
  cases hg : t.fieldNamed? key with
  | none => rfl
  | some g =>
    obtain ⟨f, rfl⟩ := hinside g hg
    have hkey := key_of_fieldNamed? hg
    rw [w.key_field] at hkey
    rw [← hkey, fieldNamed?_key hs f] at h
    cases h

variable {room : Nat} {ms : List (Option String × List Token)}
  (hvalue : ∀ m ∈ ms, IsValue m.2) (hinside : w.Inside ms)

include hs ht hvalue hinside

theorem collects_widen {p p' : s.Partial} (h : s.Collects room p ms p') {q : t.Partial}
    (hagrees : w.Agrees p q) : ∃ q', t.Collects room q ms q' ∧ w.Agrees p' q' := by
  induction h generalizing q with
  | nil p => exact ⟨q, .nil q, hagrees⟩
  | @known p p' key f x tokens ms hf hp hx _ ih =>
    rw [List.forall_mem_cons] at hvalue
    have hq : q (w.field f) = none := by rw [hagrees.inside, hp, Option.map_none]
    obtain ⟨q', hcollects, hafter⟩ :=
      ih hvalue.2 (fun m hm => hinside m (List.mem_cons_of_mem _ hm)) (hagrees.set f x)
    exact ⟨q', .known (fieldNamed?_of_some ht hf) hq ((w.takes_iff hvalue.1).2 hx) hcollects,
      hafter⟩
  | @unknown p p' key tokens ms hf _ ih =>
    rw [List.forall_mem_cons] at hvalue
    obtain ⟨q', hcollects, hafter⟩ :=
      ih hvalue.2 (fun m hm => hinside m (List.mem_cons_of_mem _ hm)) hagrees
    have hnone := fieldNamed?_of_none hs hf fun g => hinside _ List.mem_cons_self key g rfl
    exact ⟨q', .unknown hnone hcollects, hafter⟩

-- What was read for a field is there at the end, and what is there at the end can be narrowed.
theorem collects_narrow {q q' : t.Partial} (h : t.Collects room q ms q')
    (hnarrow : ∀ f y, q' (w.field f) = some y → ∃ x, w.embed f x = y) {p : s.Partial}
    (hagrees : w.Agrees p q) : ∃ p', s.Collects room p ms p' ∧ w.Agrees p' q' := by
  induction h generalizing p with
  | nil q => exact ⟨p, .nil p, hagrees⟩
  | @known q q' key g y tokens ms hg hq hy hmore ih =>
    rw [List.forall_mem_cons] at hvalue
    obtain ⟨f, rfl⟩ := hinside _ List.mem_cons_self key g rfl hg
    obtain ⟨x, rfl⟩ := hnarrow f y (hmore.keeps (set_self q _ y))
    have hf : s.fieldNamed? key = some f := by
      rw [← key_of_fieldNamed? hg, w.key_field]
      exact fieldNamed?_key hs f
    have hp : p f = none := by
      have hmap := hagrees.inside f
      rw [hq] at hmap
      exact Option.map_eq_none_iff.1 hmap.symm
    obtain ⟨p', hcollects, hafter⟩ := ih hvalue.2
      (fun m hm => hinside m (List.mem_cons_of_mem _ hm)) hnarrow (hagrees.set f x)
    exact ⟨p', .known hf hp ((w.takes_iff hvalue.1).1 hy) hcollects, hafter⟩
  | @unknown q q' key tokens ms hg _ ih =>
    rw [List.forall_mem_cons] at hvalue
    obtain ⟨p', hcollects, hafter⟩ := ih hvalue.2
      (fun m hm => hinside m (List.mem_cons_of_mem _ hm)) hnarrow hagrees
    have hf : s.fieldNamed? key = none := by
      cases hf : s.fieldNamed? key with
      | none => rfl
      | some f =>
        rw [fieldNamed?_of_some (w := w) ht hf] at hg
        cases hg
    exact ⟨p', .unknown hf hcollects, hafter⟩

variable (hsread : ∀ f, Exact (s.read f)) (htread : ∀ g, Exact (t.read g))

include hsread htread

theorem takes_object_iff {all : s.Members} :
    Takes s.reader room (objectTokens ms) all ↔
      ∃ wide : t.Members, Takes t.reader room (objectTokens ms) wide ∧
        ∀ f, wide (w.field f) = w.embed f (all f) := by
  rw [takes_reader_object_iff hsread hvalue]
  simp only [takes_reader_object_iff htread hvalue]
  constructor
  · rintro ⟨inner, p, rfl, hcollects, hcomplete⟩
    obtain ⟨q, hwide, hagrees⟩ := collects_widen hs ht hvalue hinside hcollects agrees_nothing
    rw [complete_eq_ok] at hcomplete
    have hfilled : ∀ g, ∃ y, t.filled q g = some y := by
      intro g
      by_cases hg : ∃ f, w.field f = g
      · obtain ⟨f, rfl⟩ := hg
        exact ⟨_, hagrees.filled_iff.2 (hcomplete f)⟩
      · obtain hf | ⟨y, hy⟩ := w.optional_outside g
        · exact absurd hf hg
        · exact ⟨y, (filled_of_none (hagrees.outside g hg)).trans hy⟩
    choose wide hwideFilled using hfilled
    refine ⟨wide, ⟨inner, q, rfl, hwide, complete_eq_ok.2 hwideFilled⟩, fun f => ?_⟩
    exact Option.some.inj ((hwideFilled _).symm.trans (hagrees.filled_iff.2 (hcomplete f)))
  · rintro ⟨wide, ⟨inner, q, rfl, hcollects, hcomplete⟩, hwide⟩
    have hnarrow : ∀ f y, q (w.field f) = some y → ∃ x, w.embed f x = y := by
      intro f y hy
      exact ⟨all f, (hwide f).symm.trans (eq_of_complete hcomplete hy)⟩
    obtain ⟨p, hnarrowed, hagrees⟩ :=
      collects_narrow hs ht hvalue hinside hcollects hnarrow agrees_nothing
    refine ⟨inner, p, rfl, hnarrowed, complete_eq_ok.2 fun f => ?_⟩
    rw [← hagrees.filled_iff, complete_eq_ok.1 hcomplete, hwide]

omit hs ht hsread in
theorem absent_of_takes {wide : t.Members} (htakes : Takes t.reader room (objectTokens ms) wide)
    {g : t.Field} (hg : ¬∃ f, w.field f = g) : (t.absent g).ofObject? = some (wide g) := by
  obtain ⟨inner, q, rfl, hcollects, hcomplete⟩ := (takes_reader_object_iff htread hvalue).1 htakes
  obtain ⟨hkept, -⟩ := hcollects.frame (S := fun g => ¬∃ f, w.field f = g)
    (fun m hm key g hkey hg hnot => hnot (hinside m hm key g hkey hg)) fun _ _ => rfl
  rw [← filled_of_none (hkept g hg)]
  exact complete_eq_ok.1 hcomplete g

end Collecting

end Widening

end Tariff.Json.Schema

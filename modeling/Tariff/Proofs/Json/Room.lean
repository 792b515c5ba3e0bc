import Tariff.Proofs.Json.Record

namespace Tariff.Json

open Reader (Takes Exact)

namespace Reader

variable {α ε : Type}

-- Where `depth` more containers may be opened, the bound makes no difference.
def Shallow (read : Reader α) (depth : Nat) : Prop :=
  ∀ ⦃room other : Nat⦄ ⦃used : List Token⦄ ⦃x : α⦄, IsValue used → depth ≤ other →
    Takes read room used x → Takes read other used x

theorem Shallow.mono {read : Reader α} {depth deeper : Nat} (h : Shallow read depth)
    (hle : depth ≤ deeper) : Shallow read deeper :=
  fun _ _ _ _ hused hother htakes => h hused (Nat.le_trans hle hother) htakes

-- These open no container.
theorem shallow_of_eq {read : Reader α}
    (h : ∀ room other tokens, read room tokens = read other tokens) : Shallow read 0 := by
  intro room other used x _ _ htakes rest
  rw [h other room]
  exact htakes rest

theorem text_eq (room other : Nat) (tokens : List Token) :
    text room tokens = text other tokens := by
  unfold text
  split <;> rfl

theorem shallow_text : Shallow text 0 :=
  shallow_of_eq text_eq

theorem shallow_natural (wanted : String) : Shallow (natural wanted) 0 := by
  apply shallow_of_eq
  intro room other tokens
  unfold natural
  split <;> rfl

theorem shallow_parsed (read : String → Except ε α) (reason : ε → String) :
    Shallow (parsed read reason) 0 := by
  apply shallow_of_eq
  intro room other tokens
  simp only [parsed, text_eq room other]

theorem shallow_choice (choices : List (String × α)) : Shallow (choice choices) 1 := by
  intro room other used x hused hother htakes rest
  obtain ⟨other, rfl⟩ := Nat.exists_eq_add_one_of_ne_zero (Nat.ne_zero_of_lt hother)
  have h := htakes rest
  generalize used ++ rest = tokens at h ⊢
  unfold choice at h
  split at h
  · exact h
  · cases h
  · exact h
  · cases h

theorem Shallow.forall₂ {read : Reader α} {depth : Nat} (hread : Shallow read depth)
    {room other : Nat} (hother : depth ≤ other) {useds : List (List Token)} {xs : List α}
    (hvalue : ∀ used ∈ useds, IsValue used) (h : List.Forall₂ (Takes read room) useds xs) :
    List.Forall₂ (Takes read other) useds xs := by
  induction h with
  | nil => exact .nil
  | cons hused _ ih =>
    rw [List.forall_mem_cons] at hvalue
    exact .cons (hread hvalue.1 hother hused) (ih hvalue.2)

theorem shallow_list {read : Reader α} {depth : Nat} (hread : Shallow read depth)
    (hexact : Exact read) : Shallow (list read) (depth + 1) := by
  intro room other used xs hused hother htakes
  cases hused with
  | @list useds hvalue =>
    obtain ⟨inner, rfl, hall⟩ := (takes_list_iff hexact hvalue).1 htakes
    obtain ⟨other, rfl⟩ := Nat.exists_eq_add_one_of_ne_zero (Nat.ne_zero_of_lt hother)
    exact takes_list hvalue (hread.forall₂ (Nat.le_of_succ_le_succ hother) hvalue hall)
  | _ =>
    have h := htakes []
    cases room <;> cases h

end Reader

namespace Schema

open Reader (Shallow)

variable {s : Schema} {depth room other : Nat}

theorem Collects.of_room (h : ∀ f, Shallow (s.read f) depth) (hother : depth ≤ other)
    {p q : s.Partial} {ms : List (Option String × List Token)}
    (hvalue : ∀ m ∈ ms, IsValue m.2) (hcollects : s.Collects room p ms q) :
    s.Collects other p ms q := by
  induction hcollects with
  | nil p => exact .nil p
  | known hf hp hx _ ih =>
    rw [List.forall_mem_cons] at hvalue
    exact .known hf hp (h _ hvalue.1 hother hx) (ih hvalue.2)
  | unknown hf _ ih =>
    rw [List.forall_mem_cons] at hvalue
    exact .unknown hf (ih hvalue.2)

theorem Lists.of_room (h : ∀ f, Shallow (s.read f) depth) (hother : depth ≤ other)
    {fields : List s.Field} {p q : s.Partial} {useds : List (List Token)}
    (hvalue : ∀ used ∈ useds, IsValue used) (hlists : s.Lists room fields p useds q) :
    s.Lists other fields p useds q := by
  induction hlists with
  | nil p => exact .nil p
  | fallback hx _ ih => exact .fallback hx (ih hvalue)
  | item hx _ ih =>
    rw [List.forall_mem_cons] at hvalue
    exact .item (h _ hvalue.1 hother hx) (ih hvalue.2)

theorem shallow_reader (h : ∀ f, Shallow (s.read f) depth) (hexact : ∀ f, Exact (s.read f)) :
    Shallow s.reader (depth + 1) := by
  intro room other used all hused hother htakes
  obtain ⟨other, rfl⟩ := Nat.exists_eq_add_one_of_ne_zero (Nat.ne_zero_of_lt hother)
  rw [Nat.add_le_add_iff_right] at hother
  cases hused with
  | @object ms hvalue =>
    obtain ⟨inner, p, rfl, hcollects, hall⟩ := (takes_reader_object_iff hexact hvalue).1 htakes
    exact takes_object hvalue (hcollects.of_room h hother hvalue) hall
  | @list useds hvalue =>
    obtain ⟨inner, p, rfl, hlists, hall⟩ := (takes_reader_list_iff hexact hvalue).1 htakes
    exact takes_elements hvalue (hlists.of_room h hother hvalue) hall
  | _ =>
    have hread := htakes []
    cases room <;> cases hread

theorem shallow_readerOf {α : Type} (make : s.Members → α) (h : ∀ f, Shallow (s.read f) depth)
    (hexact : ∀ f, Exact (s.read f)) : Shallow (s.readerOf make) (depth + 1) := by
  intro room other used x hused hother htakes
  obtain ⟨all, hall, rfl⟩ := (takes_readerOf_iff (exact_reader hexact) hused).1 htakes
  exact takes_readerOf make (shallow_reader h hexact hused hother hall)

end Schema

end Tariff.Json

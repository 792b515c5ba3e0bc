import Mathlib.Data.List.Forall2
import Tariff.Proofs.Json.Grammar

namespace Tariff.Json.Reader

variable {α ε : Type}

-- The tokens are taken for the value, and what follows them is left.
def Takes (read : Reader α) (room : Nat) (used : List Token) (x : α) : Prop :=
  ∀ rest, read room (used ++ rest) = .ok (x, rest)

-- Where a whole value stands, just this value is taken.
def Exact (read : Reader α) : Prop :=
  ∀ {room : Nat} {used rest after : List Token} {x : α}, IsValue used →
    read room (used ++ rest) = .ok (x, after) → after = rest ∧ Takes read room used x

-- It is enough to find a value that was taken: no value is the start of another one.
theorem exact_of_taken {read : Reader α}
    (h : ∀ {room : Nat} {tokens after : List Token} {x : α}, read room tokens = .ok (x, after) →
      ∃ taken, tokens = taken ++ after ∧ IsValue taken ∧ Takes read room taken x) :
    Exact read := by
  intro room used rest after x hused hread
  obtain ⟨taken, htokens, htaken, htakes⟩ := h hread
  obtain ⟨rfl, rfl⟩ := hused.append_inj htaken htokens
  exact ⟨rfl, htakes⟩

theorem takes_text (room : Nat) (s : String) : Takes text room [.text (some s)] s :=
  fun _ => rfl

theorem exact_text : Exact text := by
  apply exact_of_taken
  intro room tokens after s h
  unfold text at h
  split at h
  · cases h
    exact ⟨[.text (some s)], rfl, .text _, takes_text room s⟩
  · cases h

theorem takes_natural {n : Numeral} {k : Nat} (h : n.value? = some (.natural k)) (wanted : String)
    (room : Nat) : Takes (natural wanted) room [.number n] k := by
  intro rest
  rw [List.singleton_append, natural]
  simp only [h]

theorem exact_natural (wanted : String) : Exact (natural wanted) := by
  apply exact_of_taken
  intro room tokens after k h
  unfold natural at h
  split at h
  · rename_i n rest
    split at h
    · rename_i hn
      cases h
      exact ⟨[.number n], rfl, .number n, takes_natural hn wanted room⟩
    all_goals cases h
  · cases h

theorem takes_parsed {read : String → Except ε α} {reason : ε → String} {s : String} {x : α}
    (h : read s = .ok x) (room : Nat) : Takes (parsed read reason) room [.text (some s)] x := by
  intro rest
  simp only [parsed, takes_text room s rest, h]

theorem parsed_eq_ok {read : String → Except ε α} {reason : ε → String} {room : Nat}
    {tokens rest : List Token} {x : α} (h : parsed read reason room tokens = .ok (x, rest)) :
    ∃ s, text room tokens = .ok (s, rest) ∧ read s = .ok x := by
  cases htext : text room tokens with
  | error e =>
    simp only [parsed, htext] at h
    cases h
  | ok result =>
    obtain ⟨s, after⟩ := result
    cases hread : read s with
    | error e =>
      simp only [parsed, htext, hread] at h
      cases h
    | ok value =>
      simp only [parsed, htext, hread] at h
      cases h
      exact ⟨s, rfl, hread⟩

theorem exact_parsed (read : String → Except ε α) (reason : ε → String) :
    Exact (parsed read reason) := by
  intro room used rest after x hused h
  obtain ⟨s, htext, hread⟩ := parsed_eq_ok h
  obtain ⟨rfl, htakes⟩ := exact_text hused htext
  refine ⟨rfl, fun other => ?_⟩
  simp only [parsed, htakes other, hread]

theorem takes_choice {choices : List (String × α)} {name : String} {x : α}
    (h : choices.lookup name = some x) (room : Nat) :
    Takes (choice choices) room [.text (some name)] x := by
  intro rest
  cases room <;> simp [choice, chosen, h, Except.map]

theorem takes_choice_object {choices : List (String × α)} {name : String} {x : α}
    (h : chosen choices name = .ok x) (room : Nat) :
    Takes (choice choices) (room + 1) (objectTokens [(some name, [.null])]) x := by
  intro rest
  simp [objectTokens_append, joined, memberTokens, choice, h]

theorem exact_choice (choices : List (String × α)) : Exact (choice choices) := by
  apply exact_of_taken
  intro room tokens after x h
  unfold choice at h
  split at h
  · rename_i name rest
    unfold chosen at h
    cases hname : choices.lookup name with
    | none =>
      rw [hname] at h
      cases h
    | some value =>
      rw [hname] at h
      cases h
      exact ⟨[.text (some name)], rfl, .text _, takes_choice hname room⟩
  · cases h
  · rename_i room name rest
    split at h
    · cases h
    · rename_i value rest' hchosen
      cases h
      refine ⟨objectTokens [(some name, [.null])], ?_, .object ?_, takes_choice_object hchosen room⟩
      · simp [objectTokens_append, joined, memberTokens]
      · simpa using IsValue.null
    all_goals cases h
  · cases h

theorem optional_of_ne_null {read : Reader α} {room : Nat} {t : Token} {tokens : List Token}
    (ht : t ≠ .null) :
    optional read room (t :: tokens) =
      (read room (t :: tokens)).map fun (value, rest) => (some value, rest) := by
  rw [optional]
  · cases read room (t :: tokens) <;> rfl
  · intro rest h
    exact ht (List.cons.inj h).1

theorem takes_optional_of_ne_null {read : Reader α} {room : Nat} {t : Token} {more : List Token}
    (ht : t ≠ .null) {x : Option α} :
    Takes (optional read) room (t :: more) x ↔ ∃ y, x = some y ∧ Takes read room (t :: more) y := by
  have hoptional (rest : List Token) : optional read room (t :: more ++ rest) =
      (read room (t :: more ++ rest)).map fun (value, rest) => (some value, rest) :=
    optional_of_ne_null ht
  have hread (rest : List Token) (htakes : Takes (optional read) room (t :: more) x) :
      ∃ y, x = some y ∧ read room (t :: more ++ rest) = .ok (y, rest) := by
    have h := htakes rest
    rw [hoptional] at h
    cases hvalue : read room (t :: more ++ rest) with
    | error e =>
      rw [hvalue] at h
      cases h
    | ok result =>
      rw [hvalue] at h
      cases h
      exact ⟨_, rfl, rfl⟩
  constructor
  · intro htakes
    obtain ⟨y, rfl, -⟩ := hread [] htakes
    refine ⟨y, rfl, fun rest => ?_⟩
    obtain ⟨z, hz, h⟩ := hread rest htakes
    cases hz
    exact h
  · rintro ⟨y, rfl, htakes⟩ rest
    rw [hoptional, htakes rest]
    rfl

theorem exact_optional {read : Reader α} (hread : Exact read) : Exact (optional read) := by
  intro room used rest after x hused h
  obtain ⟨t, more, rfl, -⟩ := hused.exists_cons
  by_cases ht : t = .null
  · subst ht
    have hsplit : (.null :: more) ++ [] = [.null] ++ more := by simp
    obtain ⟨-, rfl⟩ := hused.append_inj .null hsplit
    cases h
    exact ⟨rfl, fun _ => rfl⟩
  · rw [List.cons_append, optional_of_ne_null ht] at h
    cases hvalue : read room (t :: more ++ rest) with
    | error e =>
      rw [List.cons_append] at hvalue
      rw [hvalue] at h
      cases h
    | ok result =>
      obtain ⟨value, left⟩ := result
      obtain ⟨rfl, htakes⟩ := hread hused hvalue
      rw [List.cons_append] at hvalue
      rw [hvalue] at h
      cases h
      refine ⟨rfl, fun other => ?_⟩
      rw [List.cons_append, optional_of_ne_null ht, ← List.cons_append, htakes other]
      rfl

-- What stands after the comma, where one is due.
def due? (first : Bool) (tokens : List Token) : Option (List Token) :=
  if first then some tokens else
    match tokens with
    | .comma :: rest => some rest
    | _ => none

theorem due?_eq_some_iff {first : Bool} {tokens due : List Token} :
    due? first tokens = some due ↔ tokens = lead first ++ due := by
  cases first with
  | true => simp [due?, lead]
  | false =>
    simp only [due?, lead, Bool.false_eq_true, if_false, List.singleton_append]
    split <;> simp_all

theorem items_succ {read : Reader α} {room fuel : Nat} {first : Bool} {tokens : List Token}
    (h : tokens.head? ≠ some .closeList) :
    items read room (fuel + 1) first tokens =
      match due? first tokens with
      | none => .error .malformed
      | some due =>
        match read room due with
        | .error e => .error e
        | .ok (x, rest) =>
          match items read room fuel false rest with
          | .error e => .error e
          | .ok (xs, rest) => .ok (x :: xs, rest) := by
  cases tokens with
  | nil => rfl
  | cons t rest => cases t <;> first | rfl | exact absurd rfl h

-- All that one step of the loop over the items can do.
theorem items_succ_eq_ok {read : Reader α} {room fuel : Nat} {first : Bool}
    {tokens after : List Token} {xs : List α} :
    items read room (fuel + 1) first tokens = .ok (xs, after) ↔
      (tokens = .closeList :: after ∧ xs = []) ∨
      ∃ due x rest more, tokens.head? ≠ some .closeList ∧ tokens = lead first ++ due ∧
        read room due = .ok (x, rest) ∧ items read room fuel false rest = .ok (more, after) ∧
        xs = x :: more := by
  by_cases hclose : tokens.head? = some .closeList
  · obtain ⟨rest, rfl⟩ := List.head?_eq_some_iff.1 hclose
    simp [items, eq_comm, and_comm]
  · rw [items_succ hclose]
    constructor
    · intro h
      refine .inr ?_
      cases hdue : due? first tokens with
      | none =>
        rw [hdue] at h
        cases h
      | some due =>
        simp only [hdue] at h
        split at h
        · cases h
        · rename_i x rest hread
          split at h
          · cases h
          · rename_i more last hmore
            cases h
            exact ⟨due, x, rest, more, hclose, due?_eq_some_iff.1 hdue, hread, hmore, rfl⟩
    · rintro (⟨rfl, -⟩ | ⟨due, x, rest, more, -, htokens, hread, hmore, rfl⟩)
      · exact absurd rfl hclose
      · simp only [due?_eq_some_iff.2 htokens, hread, hmore]

-- A piece that is due is not taken for the end of the list.
theorem head?_lead_append_ne {used : List Token} (h : IsValue used) (first : Bool)
    (rest : List Token) : (lead first ++ (used ++ rest)).head? ≠ some .closeList := by
  obtain ⟨t, more, rfl, ht⟩ := h.exists_cons
  cases first <;> simp [lead, ht]

theorem items_of_takes {read : Reader α} {room : Nat} {useds : List (List Token)} {xs : List α}
    (hvalue : ∀ used ∈ useds, IsValue used) (h : List.Forall₂ (Takes read room) useds xs)
    {fuel : Nat} (hfuel : useds.length < fuel) (first : Bool) (rest : List Token) :
    items read room fuel first (separated first useds ++ .closeList :: rest) = .ok (xs, rest) := by
  induction h generalizing fuel first with
  | nil =>
    obtain ⟨fuel, rfl⟩ := Nat.exists_eq_add_one_of_ne_zero (Nat.ne_zero_of_lt hfuel)
    rfl
  | @cons used x useds xs hused _ ih =>
    obtain ⟨fuel, rfl⟩ := Nat.exists_eq_add_one_of_ne_zero (Nat.ne_zero_of_lt hfuel)
    rw [List.forall_mem_cons] at hvalue
    rw [List.length_cons, Nat.add_lt_add_iff_right] at hfuel
    rw [separated_cons_append, items_succ_eq_ok]
    exact .inr ⟨_, x, _, xs, head?_lead_append_ne hvalue.1 first _, rfl, hused _,
      ih hvalue.2 hfuel false, rfl⟩

theorem takes_of_items {read : Reader α} (hread : Exact read) {room fuel : Nat} {first : Bool}
    {useds : List (List Token)} (hvalue : ∀ used ∈ useds, IsValue used) {xs : List α}
    {rest after : List Token}
    (h : items read room fuel first (separated first useds ++ .closeList :: rest) =
      .ok (xs, after)) :
    after = rest ∧ List.Forall₂ (Takes read room) useds xs := by
  induction useds generalizing fuel first xs with
  | nil =>
    cases fuel with
    | zero => cases h
    | succ fuel =>
      cases h
      exact ⟨rfl, .nil⟩
  | cons used useds ih =>
    rw [List.forall_mem_cons] at hvalue
    have hhead := head?_lead_append_ne hvalue.1 first
      (separated false useds ++ .closeList :: rest)
    cases fuel with
    | zero => cases h
    | succ fuel =>
      rw [separated_cons_append, items_succ_eq_ok] at h
      obtain ⟨hclose, -⟩ | ⟨due, x, left, more, -, hdue, hitem, hmore, rfl⟩ := h
      · rw [hclose] at hhead
        exact absurd rfl hhead
      · obtain rfl := List.append_cancel_left hdue
        obtain ⟨rfl, htakes⟩ := hread hvalue.1 hitem
        obtain ⟨hafter, hall⟩ := ih hvalue.2 hmore
        exact ⟨hafter, .cons htakes hall⟩

theorem takes_list {read : Reader α} {room : Nat} {useds : List (List Token)} {xs : List α}
    (hvalue : ∀ used ∈ useds, IsValue used) (h : List.Forall₂ (Takes read room) useds xs) :
    Takes (list read) (room + 1) (listTokens useds) xs := by
  intro rest
  rw [listTokens_append, list, ← separated_true]
  apply items_of_takes hvalue h
  have hlength := length_le_separated true fun used hused => (hvalue used hused).ne_nil
  rw [List.length_append, List.length_cons]
  omega

theorem exact_list {read : Reader α} (hread : Exact read) : Exact (list read) := by
  intro room used rest after xs hused h
  cases hused with
  | @list useds hvalue =>
    cases room with
    | zero => cases h
    | succ room =>
      rw [listTokens_append, list, ← separated_true] at h
      obtain ⟨hafter, hall⟩ := takes_of_items hread hvalue h
      exact ⟨hafter, takes_list hvalue hall⟩
  | _ => cases room <;> cases h

theorem document_of_takes {read : Reader α} {s : String} {x : α}
    (h : Takes read 127 (Token.ofText s) x) : document read s = .ok x := by
  have hread := h []
  rw [List.append_nil] at hread
  rw [document, hread]

theorem document_eq_ok {read : Reader α} {s : String} {x : α} :
    document read s = .ok x ↔ read 127 (Token.ofText s) = .ok (x, []) := by
  unfold document
  split
  · simp_all
  · simp_all
  · simp_all

theorem document_iff_takes {read : Reader α} (hread : Exact read) {s : String}
    (hvalue : IsValue (Token.ofText s)) {x : α} :
    document read s = .ok x ↔ Takes read 127 (Token.ofText s) x := by
  refine ⟨fun h => ?_, document_of_takes⟩
  rw [document_eq_ok, ← List.append_nil (Token.ofText s)] at h
  exact (hread hvalue h).2

theorem takes_list_iff {read : Reader α} (hread : Exact read) {room : Nat}
    {useds : List (List Token)} (hvalue : ∀ used ∈ useds, IsValue used) {xs : List α} :
    Takes (list read) room (listTokens useds) xs ↔
      ∃ inner, room = inner + 1 ∧ List.Forall₂ (Takes read inner) useds xs := by
  constructor
  · intro htakes
    have h := htakes []
    cases room with
    | zero => cases h
    | succ inner =>
      rw [listTokens_append, list, ← separated_true] at h
      exact ⟨inner, rfl, (takes_of_items hread hvalue h).2⟩
  · rintro ⟨inner, rfl, hall⟩
    exact takes_list hvalue hall

end Tariff.Json.Reader

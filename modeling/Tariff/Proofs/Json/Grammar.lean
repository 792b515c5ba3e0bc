import Tariff.Json.Reader

namespace Tariff.Json

-- Pieces with commas between them.
def joined : List (List Token) → List Token
  | [] => []
  | [piece] => piece
  | piece :: next :: rest => piece ++ .comma :: joined (next :: rest)

-- A member of an object. Its key has no text when it holds half of a surrogate pair.
def memberTokens (member : Option String × List Token) : List Token :=
  .text member.1 :: .colon :: member.2

def listTokens (items : List (List Token)) : List Token :=
  .openList :: joined items ++ [.closeList]

def objectTokens (members : List (Option String × List Token)) : List Token :=
  .openObject :: joined (members.map memberTokens) ++ [.closeObject]

inductive IsValue : List Token → Prop
  | null : IsValue [.null]
  | boolean (b : Bool) : IsValue [.boolean b]
  | number (n : Numeral) : IsValue [.number n]
  | text (s : Option String) : IsValue [.text s]
  | list {items : List (List Token)} (h : ∀ item ∈ items, IsValue item) :
    IsValue (listTokens items)
  | object {members : List (Option String × List Token)} (h : ∀ member ∈ members, IsValue member.2) :
    IsValue (objectTokens members)

theorem listTokens_append (items : List (List Token)) (rest : List Token) :
    listTokens items ++ rest = .openList :: (joined items ++ .closeList :: rest) := by
  simp [listTokens]

theorem objectTokens_append (members : List (Option String × List Token)) (rest : List Token) :
    objectTokens members ++ rest =
      .openObject :: (joined (members.map memberTokens) ++ .closeObject :: rest) := by
  simp [objectTokens]

theorem joined_cons_append (piece : List Token) (more : List (List Token)) (rest : List Token) :
    joined (piece :: more) ++ rest = piece ++ (more.flatMap (.comma :: ·) ++ rest) := by
  induction more generalizing piece with
  | nil => rfl
  | cons next more ih =>
    rw [joined, List.append_assoc, List.cons_append, ih next, List.flatMap_cons, List.append_assoc,
      List.cons_append]

theorem flatMap_comma_cons (piece : List Token) (more : List (List Token)) (rest : List Token) :
    (piece :: more).flatMap (.comma :: ·) ++ rest =
      .comma :: (piece ++ (more.flatMap (.comma :: ·) ++ rest)) := by
  simp

-- Before every piece but the first of all stands a comma.
def lead (first : Bool) : List Token :=
  if first then [] else [.comma]

-- The pieces that are left of a container, where `first` says that none has been read.
def separated (first : Bool) : List (List Token) → List Token
  | [] => []
  | piece :: more => lead first ++ piece ++ separated false more

theorem separated_cons_append (first : Bool) (piece : List Token) (more : List (List Token))
    (rest : List Token) :
    separated first (piece :: more) ++ rest =
      lead first ++ (piece ++ (separated false more ++ rest)) := by
  simp [separated]

theorem separated_true (pieces : List (List Token)) : separated true pieces = joined pieces := by
  have hlater (pieces : List (List Token)) :
      separated false pieces = pieces.flatMap (.comma :: ·) := by
    induction pieces with
    | nil => rfl
    | cons piece more ih => simp [separated, lead, ih]
  cases pieces with
  | nil => rfl
  | cons piece more =>
    have hjoined := joined_cons_append piece more []
    simp only [List.append_nil] at hjoined
    rw [hjoined, separated, hlater]
    rfl

theorem length_le_separated (first : Bool) {pieces : List (List Token)}
    (h : ∀ piece ∈ pieces, piece ≠ []) : pieces.length ≤ (separated first pieces).length := by
  induction pieces generalizing first with
  | nil => exact Nat.le_refl 0
  | cons piece pieces ih =>
    rw [List.forall_mem_cons] at h
    have hpiece := List.length_pos_iff.2 h.1
    have hmore := ih false h.2
    simp only [separated, List.length_append, List.length_cons]
    omega

theorem IsValue.exists_cons {ts : List Token} (h : IsValue ts) :
    ∃ t more, ts = t :: more ∧ t ≠ .closeList := by
  cases h with
  | null => exact ⟨_, _, rfl, by simp⟩
  | boolean b => exact ⟨_, _, rfl, by simp⟩
  | number n => exact ⟨_, _, rfl, by simp⟩
  | text s => exact ⟨_, _, rfl, by simp⟩
  | list h => exact ⟨_, _, rfl, by simp⟩
  | object h => exact ⟨_, _, rfl, by simp⟩

theorem IsValue.ne_nil {ts : List Token} (h : IsValue ts) : ts ≠ [] := by
  obtain ⟨t, more, rfl, -⟩ := h.exists_cons
  simp

namespace Reader

-- What is done after a value, inside the containers that are open.
def resume (enclosing : List Container) (rest : List Token) : Option (List Token) :=
  match enclosing with
  | [] => some rest
  | _ => pass .shape .item enclosing rest

theorem pass_of_advance_item {stage : Stage} {enclosing after : List Container} {t : Token}
    (h : advance .shape stage enclosing t = some (.item, after)) (rest : List Token) :
    pass .shape stage enclosing (t :: rest) = resume after rest := by
  cases after <;> simp [pass, h, resume]

theorem pass_of_advance {stage : Stage} {enclosing after : List Container} {t : Token}
    (next : Stage) (h : advance .shape stage enclosing t = some (next, after))
    (hnext : next ≠ .item) (rest : List Token) :
    pass .shape stage enclosing (t :: rest) = pass .shape next after rest := by
  rw [pass, h]
  cases next <;> simp_all

-- After an opening bracket a value is read as anywhere else.
theorem pass_opened_list {enclosing : List Container} {t : Token} (h : t ≠ .closeList)
    (rest : List Token) :
    pass .shape (.opened .list) enclosing (t :: rest) =
      pass .shape .value enclosing (t :: rest) := by
  have hadvance : advance .shape (.opened .list) enclosing t =
      advance .shape .value enclosing t := by
    cases t <;> first | rfl | exact absurd rfl h
  rw [pass, pass, hadvance]

-- The items after the first one, up to the closing bracket.
theorem pass_items {items : List (List Token)} {enclosing : List Container}
    (h : ∀ item ∈ items, ∀ rest, pass .shape .value (.list :: enclosing) (item ++ rest) =
      pass .shape .item (.list :: enclosing) rest) (rest : List Token) :
    pass .shape .item (.list :: enclosing) (items.flatMap (.comma :: ·) ++ .closeList :: rest) =
      resume enclosing rest := by
  induction items with
  | nil => exact pass_of_advance_item rfl rest
  | cons item items ih =>
    rw [List.forall_mem_cons] at h
    rw [flatMap_comma_cons, pass_of_advance .value rfl (by simp), h.1, ih h.2]

theorem pass_key {stage : Stage} (hstage : stage = .key ∨ stage = .opened .object)
    (enclosing : List Container) (member : Option String × List Token) (rest : List Token) :
    pass .shape stage enclosing (memberTokens member ++ rest) =
      pass .shape .value enclosing (member.2 ++ rest) := by
  have hkey : advance .shape stage enclosing (.text member.1) = some (.colon, enclosing) := by
    obtain rfl | rfl := hstage <;> rfl
  rw [memberTokens, List.cons_append, List.cons_append, pass_of_advance .colon hkey (by simp),
    pass_of_advance .value rfl (by simp)]

theorem pass_members {members : List (Option String × List Token)} {enclosing : List Container}
    (h : ∀ member ∈ members, ∀ rest,
      pass .shape .value (.object :: enclosing) (member.2 ++ rest) =
        pass .shape .item (.object :: enclosing) rest) (rest : List Token) :
    pass .shape .item (.object :: enclosing)
        ((members.map memberTokens).flatMap (.comma :: ·) ++ .closeObject :: rest) =
      resume enclosing rest := by
  induction members with
  | nil => exact pass_of_advance_item rfl rest
  | cons member members ih =>
    rw [List.forall_mem_cons] at h
    rw [List.map_cons, flatMap_comma_cons, pass_of_advance .key rfl (by simp),
      pass_key (.inl rfl), h.1, ih h.2]

theorem pass_of_isValue {ts : List Token} (h : IsValue ts) (enclosing : List Container)
    (rest : List Token) :
    pass .shape .value enclosing (ts ++ rest) = resume enclosing rest := by
  induction h generalizing enclosing rest with
  | null => exact pass_of_advance_item rfl rest
  | boolean b => exact pass_of_advance_item rfl rest
  | number n => exact pass_of_advance_item rfl rest
  | text s => exact pass_of_advance_item rfl rest
  | @list items h ih =>
    rw [listTokens_append, pass_of_advance (.opened .list) rfl (by simp)]
    cases items with
    | nil => exact pass_of_advance_item rfl rest
    | cons item items =>
      rw [List.forall_mem_cons] at h ih
      obtain ⟨t, more, hitem, ht⟩ := h.1.exists_cons
      have hopened (after : List Token) : pass .shape (.opened .list) (.list :: enclosing)
          (item ++ after) = pass .shape .value (.list :: enclosing) (item ++ after) := by
        rw [hitem]
        exact pass_opened_list ht _
      rw [joined_cons_append, hopened, ih.1]
      exact pass_items (fun other hother => ih.2 other hother _) rest
  | @object members h ih =>
    rw [objectTokens_append, pass_of_advance (.opened .object) rfl (by simp)]
    cases members with
    | nil => exact pass_of_advance_item rfl rest
    | cons member members =>
      rw [List.forall_mem_cons] at ih
      rw [List.map_cons, joined_cons_append, pass_key (.inr rfl), ih.1]
      exact pass_members (fun other hother => ih.2 other hother _) rest

end Reader

theorem IsValue.append_inj {ts us rest other : List Token} (hts : IsValue ts) (hus : IsValue us)
    (h : ts ++ rest = us ++ other) : ts = us ∧ rest = other := by
  have hpass := Reader.pass_of_isValue hts [] rest
  rw [h, Reader.pass_of_isValue hus [] other] at hpass
  obtain rfl : other = rest := Option.some.inj hpass
  exact ⟨List.append_cancel_right h, rfl⟩

end Tariff.Json

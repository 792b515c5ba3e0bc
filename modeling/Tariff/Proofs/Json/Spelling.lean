import Tariff.Json.Token
import Tariff.Json.Value
import Tariff.Proofs.Json.Grammar
import Tariff.Proofs.Json.Number
import Tariff.Proofs.Text.Hex

namespace Tariff.Json

namespace Token

open Numeral (Ends)

theorem unit?_digits {n : Nat} (h : n < 256) :
    unit? '0' '0' (Text.Hex.digit (n / 16)) (Text.Hex.digit (n % 16)) = some n := by
  have hzero : Text.Hex.value? '0' = some 0 := by decide
  have hsum : ((0 * 16 + 0) * 16 + n / 16) * 16 + n % 16 = n := by omega
  simp only [unit?, hzero, Text.Hex.value?_digit (show n / 16 < 16 by omega),
    Text.Hex.value?_digit (show n % 16 < 16 by omega), Option.bind_eq_bind, Option.bind_some, hsum]

theorem pieces_short {e c : Char} (he : e ≠ 'u') (h : shortEscape? e = some c)
    (rest : List Char) :
    pieces ('\\' :: e :: rest) =
      (pieces rest).map fun read => (.char c :: read.1, read.2) := by
  rw [pieces.eq_4 e rest fun _ _ _ _ _ hu => absurd hu he, h]
  cases pieces rest <;> rfl

theorem pieces_unit {n : Nat} (h : n < 256) (rest : List Char) :
    pieces ('\\' :: 'u' :: '0' :: '0' :: Text.Hex.digit (n / 16) :: Text.Hex.digit (n % 16) ::
      rest) = (pieces rest).map fun read => (.unit n :: read.1, read.2) := by
  rw [pieces, unit?_digits h]
  cases pieces rest <;> rfl

theorem pieces_plain {c : Char} (hquote : c ≠ '"') (hslash : c ≠ '\\') (h : ¬ c.toNat < 0x20)
    (rest : List Char) :
    pieces (c :: rest) = (pieces rest).map fun read => (.char c :: read.1, read.2) := by
  rw [pieces.eq_5 c rest hquote (fun _ _ _ _ _ hc => absurd hc hslash)
    (fun _ _ hc => absurd hc hslash), if_neg (by simp [hslash, h])]
  cases pieces rest <;> rfl

-- A written character is read as one piece that stands for it.
theorem exists_piece (c : Char) :
    ∃ piece,
      (∀ rest, pieces (Value.escape c ++ rest) =
        (pieces rest).map fun read => (piece :: read.1, read.2)) ∧
      ∀ more, join (piece :: more) = (join more).map (c :: ·) := by
  unfold Value.escape
  -- the seven characters that have a short escape
  iterate 7
    split
    · rename_i hc
      subst hc
      exact ⟨.char _, pieces_short (by decide) rfl, fun _ => rfl⟩
  split
  · rename_i hc
    refine ⟨.unit c.toNat, pieces_unit (by omega), fun more => ?_⟩
    have hlow : isLow c.toNat = false := by
      simp only [isLow, Bool.and_eq_false_iff, decide_eq_false_iff_not]
      omega
    have hhigh : isHigh c.toNat = false := by
      simp only [isHigh, Bool.and_eq_false_iff, decide_eq_false_iff_not]
      omega
    rw [join.eq_def]
    simp [hlow, hhigh, Char.ofNat_toNat]
  · rename_i hquote hslash _ _ _ _ _ hc
    exact ⟨.char c, pieces_plain hquote hslash hc, fun _ => rfl⟩

theorem exists_pieces (cs rest : List Char) :
    ∃ ps, pieces (cs.flatMap Value.escape ++ '"' :: rest) = some (ps, rest) ∧
      join ps = some cs := by
  induction cs with
  | nil => exact ⟨[], by rw [List.flatMap_nil, List.nil_append, pieces], rfl⟩
  | cons c cs ih =>
    obtain ⟨ps, hpieces, hjoin⟩ := ih
    obtain ⟨piece, hpiece, hstands⟩ := exists_piece c
    refine ⟨piece :: ps, ?_, ?_⟩
    · rw [List.flatMap_cons, List.append_assoc, hpiece, hpieces]
      rfl
    · rw [hstands, hjoin]
      rfl

-- The characters that are tokens of their own.
def marks : List (Char × Token) :=
  [('\x7b', .openObject), ('\x7d', .closeObject), ('[', .openList), (']', .closeList),
    (':', .colon), (',', .comma)]

theorem ofChars_mark {c : Char} {t : Token} (h : (c, t) ∈ marks) (rest : List Char) :
    ofChars (c :: rest) = t :: ofChars rest := by
  simp only [marks, List.mem_cons, Prod.mk.injEq, List.not_mem_nil, or_false] at h
  obtain ⟨rfl, rfl⟩ | ⟨rfl, rfl⟩ | ⟨rfl, rfl⟩ | ⟨rfl, rfl⟩ | ⟨rfl, rfl⟩ | ⟨rfl, rfl⟩ := h <;>
    rw [ofChars]

theorem ofChars_quoted (s : String) (rest : List Char) :
    ofChars (Value.quoted s ++ rest) = .text (some s) :: ofChars rest := by
  obtain ⟨ps, hpieces, hjoin⟩ := exists_pieces s.toList rest
  have hchars : Value.quoted s ++ rest =
      '"' :: (s.toList.flatMap Value.escape ++ '"' :: rest) := by
    simp [Value.quoted]
  rw [hchars, ofChars.eq_11]
  split
  · rename_i hnone
    cases hpieces.symm.trans hnone
  · rename_i ps' after hsome
    cases hpieces.symm.trans hsome
    simp [hjoin]

theorem ofChars_natural (n : Nat) {rest : List Char} (h : Ends rest) :
    ofChars (Text.Decimal.ofNat n ++ rest) = .number (.ofNat n) :: ofChars rest := by
  obtain ⟨c, cs, hcs⟩ := List.exists_cons_of_ne_nil (Nat.toDigits_ne_nil (n := n) (b := 10))
  have hread := Numeral.read_ofNat n h
  have hdigit : Text.Decimal.isDigit c = true :=
    Text.Decimal.isDigit_of_mem_ofNat (n := n) (by rw [Text.Decimal.ofNat, hcs]; simp)
  have hne {mark : Char} (hmark : Text.Decimal.isDigit mark = false) : c ≠ mark := by
    rintro rfl
    rw [hdigit] at hmark
    cases hmark
  have hspace : isSpace c = false := by
    have hmarks : c ≠ ' ' ∧ c ≠ '\t' ∧ c ≠ '\n' ∧ c ≠ '\r' :=
      ⟨hne (by decide), hne (by decide), hne (by decide), hne (by decide)⟩
    simp [isSpace, hmarks]
  rw [Text.Decimal.ofNat, hcs, List.cons_append] at hread ⊢
  rw [ofChars.eq_12 c (cs ++ rest) (hne (by decide)) (hne (by decide)) (hne (by decide))
    (hne (by decide)) (hne (by decide)) (hne (by decide))
    (fun _ hc => absurd hc (hne (by decide))) (fun _ hc => absurd hc (hne (by decide)))
    (fun _ hc => absurd hc (hne (by decide))) (hne (by decide)), if_neg (by simp [hspace])]
  split
  · rename_i hnone
    cases hread.symm.trans hnone
  · rename_i numeral after hsome
    cases hread.symm.trans hsome
    rfl

theorem ofChars_space {c : Char} (h : isSpace c = true) (rest : List Char) :
    ofChars (c :: rest) = ofChars rest := by
  have hne {mark : Char} (hmark : isSpace mark = false) : c ≠ mark := by
    rintro rfl
    rw [h] at hmark
    cases hmark
  rw [ofChars.eq_12 c rest (hne (by decide)) (hne (by decide)) (hne (by decide))
    (hne (by decide)) (hne (by decide)) (hne (by decide))
    (fun _ hc => absurd hc (hne (by decide))) (fun _ hc => absurd hc (hne (by decide)))
    (fun _ hc => absurd hc (hne (by decide))) (hne (by decide)), if_pos h]

theorem ofChars_spaces {blanks : List Char} (h : ∀ c ∈ blanks, isSpace c = true)
    (rest : List Char) : ofChars (blanks ++ rest) = ofChars rest := by
  induction blanks with
  | nil => rfl
  | cons c blanks ih =>
    rw [List.forall_mem_cons] at h
    rw [List.cons_append, ofChars_space h.1, ih h.2]

theorem ofChars_newLine (depth : Nat) (rest : List Char) :
    ofChars (Value.newLine depth ++ rest) = ofChars rest := by
  apply ofChars_spaces
  intro c hc
  rw [Value.newLine, List.mem_cons] at hc
  obtain rfl | hc := hc
  · decide
  · rw [(List.mem_replicate.mp hc).2]
    decide

end Token

namespace Value

mutual

def tokens : Value → List Token
  | .null => [.null]
  | .natural n => [.number (.ofNat n)]
  | .text s => [.text (some s)]
  | .list items => listTokens (tokensOfItems items)
  | .object members => objectTokens (tokensOfMembers members)

def tokensOfItems : List Value → List (List Token)
  | [] => []
  | item :: rest => item.tokens :: tokensOfItems rest

def tokensOfMembers : List (String × Value) → List (Option String × List Token)
  | [] => []
  | (key, value) :: rest => (some key, value.tokens) :: tokensOfMembers rest

end

theorem tokensOfItems_eq_map (items : List Value) : tokensOfItems items = items.map tokens := by
  induction items with
  | nil => rfl
  | cons item rest ih => rw [tokensOfItems, ih, List.map_cons]

theorem tokensOfMembers_eq_map (members : List (String × Value)) :
    tokensOfMembers members = members.map fun member => (some member.1, member.2.tokens) := by
  induction members with
  | nil => rfl
  | cons member rest ih => rw [tokensOfMembers, ih, List.map_cons]

mutual

theorem isValue_tokens : (v : Value) → IsValue v.tokens
  | .null => .null
  | .natural n => .number (.ofNat n)
  | .text s => .text (some s)
  | .list items => .list (isValue_of_mem_tokensOfItems items)
  | .object members => .object (isValue_of_mem_tokensOfMembers members)

theorem isValue_of_mem_tokensOfItems : (items : List Value) →
    ∀ ts ∈ tokensOfItems items, IsValue ts
  | [] => List.forall_mem_nil _
  | item :: rest =>
    List.forall_mem_cons.mpr ⟨isValue_tokens item, isValue_of_mem_tokensOfItems rest⟩

theorem isValue_of_mem_tokensOfMembers : (members : List (String × Value)) →
    ∀ member ∈ tokensOfMembers members, IsValue member.2
  | [] => List.forall_mem_nil _
  | (_, value) :: rest =>
    List.forall_mem_cons.mpr ⟨isValue_tokens value, isValue_of_mem_tokensOfMembers rest⟩

end

open Token (ofChars)
open Numeral (Ends)

-- The characters are read as the tokens in front of everything that ends a number.
def Spells (cs : List Char) (ts : List Token) : Prop :=
  ∀ rest, Ends rest → ofChars (cs ++ rest) = ts ++ ofChars rest

theorem ends_cons {c : Char} (h : Text.Decimal.isDigit c = false ∧ c ≠ '.' ∧ c ≠ 'e' ∧ c ≠ 'E')
    (rest : List Char) : Ends (c :: rest) := by
  intro d hd
  obtain rfl : c = d := Option.some.inj hd
  exact h

theorem ends_newLine (depth : Nat) (rest : List Char) : Ends (newLine depth ++ rest) :=
  ends_cons (by decide) _

theorem ends_mark {c : Char} {t : Token} (h : (c, t) ∈ Token.marks) (rest : List Char) :
    Ends (c :: rest) := by
  have hall : ∀ mark ∈ Token.marks, Text.Decimal.isDigit mark.1 = false ∧ mark.1 ≠ '.' ∧
      mark.1 ≠ 'e' ∧ mark.1 ≠ 'E' := by decide
  exact ends_cons (hall _ h) rest

theorem Spells.append {cs ds : List Char} {ts us : List Token} (hcs : Spells cs ts)
    (hds : Spells ds us) (hends : ∀ rest, Ends (ds ++ rest)) : Spells (cs ++ ds) (ts ++ us) := by
  intro rest hrest
  rw [List.append_assoc, hcs _ (hends rest), hds rest hrest, List.append_assoc]

theorem Spells.mark {c : Char} {t : Token} (h : (c, t) ∈ Token.marks) {cs : List Char}
    {ts : List Token} (hcs : Spells cs ts) : Spells (c :: cs) (t :: ts) := by
  intro rest hrest
  rw [List.cons_append, Token.ofChars_mark h, hcs rest hrest]
  rfl

-- A text in front of another one that starts with a mark.
theorem Spells.append_mark {c : Char} {t : Token} (h : (c, t) ∈ Token.marks) {cs ds : List Char}
    {ts us : List Token} (hcs : Spells cs ts) (hds : Spells ds us) :
    Spells (cs ++ c :: ds) (ts ++ t :: us) :=
  hcs.append (hds.mark h) fun _ => ends_mark h _

theorem Spells.newLine {cs : List Char} {ts : List Token} (h : Spells cs ts) (depth : Nat) :
    Spells (newLine depth ++ cs) ts := by
  intro rest hrest
  rw [List.append_assoc, Token.ofChars_newLine, h rest hrest]

theorem Spells.space {cs : List Char} {ts : List Token} (h : Spells cs ts) :
    Spells (' ' :: cs) ts := by
  intro rest hrest
  rw [List.cons_append, Token.ofChars_space (by decide), h rest hrest]

theorem spells_nil : Spells [] [] :=
  fun _ _ => rfl

theorem spells_null : Spells ['n', 'u', 'l', 'l'] [.null] := by
  intro rest _
  rw [List.cons_append, List.cons_append, List.cons_append, List.cons_append, List.nil_append,
    ofChars]
  rfl

theorem spells_natural (n : Nat) : Spells (Text.Decimal.ofNat n) [.number (.ofNat n)] :=
  fun _ hrest => Token.ofChars_natural n hrest

theorem spells_quoted (s : String) : Spells (quoted s) [.text (some s)] :=
  fun rest _ => Token.ofChars_quoted s rest

theorem spells_member (key : String) {cs : List Char} {ts : List Token} (h : Spells cs ts) :
    Spells (quoted key ++ ':' :: cs) (memberTokens (some key, ts)) :=
  (spells_quoted key).append_mark (by decide) h

mutual

theorem spells_compact : (v : Value) → Spells v.compact v.tokens
  | .null => spells_null
  | .natural n => spells_natural n
  | .text s => spells_quoted s
  | .list items => ((spells_compactItems items).append_mark (by decide) spells_nil).mark (by decide)
  | .object members =>
    ((spells_compactMembers members).append_mark (by decide) spells_nil).mark (by decide)

theorem spells_compactItems : (items : List Value) →
    Spells (compactItems items) (joined (tokensOfItems items))
  | [] => spells_nil
  | [item] => spells_compact item
  | item :: next :: rest =>
    (spells_compact item).append_mark (by decide) (spells_compactItems (next :: rest))

theorem spells_compactMembers : (members : List (String × Value)) →
    Spells (compactMembers members) (joined ((tokensOfMembers members).map memberTokens))
  | [] => spells_nil
  | [(key, value)] => spells_member key (spells_compact value)
  | (key, value) :: next :: rest =>
    (spells_member key (spells_compact value)).append_mark (by decide)
      (spells_compactMembers (next :: rest))

end

-- A line break and what closes a container.
theorem Spells.append_closing {c : Char} {t : Token} (h : (c, t) ∈ Token.marks) {cs : List Char}
    {ts : List Token} (hcs : Spells cs ts) (depth : Nat) :
    Spells (cs ++ (Value.newLine depth ++ [c])) (ts ++ [t]) :=
  hcs.append ((spells_nil.mark h).newLine depth) fun rest => by
    rw [List.append_assoc]
    exact ends_newLine depth _

mutual

theorem spells_pretty : (v : Value) → (depth : Nat) → Spells (v.pretty depth) v.tokens
  | .null, _ => spells_null
  | .natural n, _ => spells_natural n
  | .text s, _ => spells_quoted s
  | .list [], _ => (spells_nil.mark (by decide)).mark (by decide)
  | .list (item :: items), depth => by
    have hitems := spells_prettyItems (item :: items) (depth + 1)
    rw [pretty, List.append_assoc, tokens]
    exact ((hitems.newLine (depth + 1)).append_closing (by decide) depth).mark (by decide)
  | .object [], _ => (spells_nil.mark (by decide)).mark (by decide)
  | .object (member :: members), depth => by
    have hmembers := spells_prettyMembers (member :: members) (depth + 1)
    rw [pretty, List.append_assoc, tokens]
    exact ((hmembers.newLine (depth + 1)).append_closing (by decide) depth).mark (by decide)

theorem spells_prettyItems : (items : List Value) → (depth : Nat) →
    Spells (prettyItems depth items) (joined (tokensOfItems items))
  | [], _ => spells_nil
  | [item], depth => spells_pretty item depth
  | item :: next :: rest, depth => by
    have hrest := spells_prettyItems (next :: rest) depth
    rw [prettyItems, List.append_assoc]
    exact (spells_pretty item depth).append_mark (by decide) (hrest.newLine depth)

theorem spells_prettyMembers : (members : List (String × Value)) → (depth : Nat) →
    Spells (prettyMembers depth members) (joined ((tokensOfMembers members).map memberTokens))
  | [], _ => spells_nil
  | [(key, value)], depth => spells_member key (spells_pretty value depth).space
  | (key, value) :: next :: rest, depth => by
    have hmember := spells_member key (spells_pretty value depth).space
    have hrest := spells_prettyMembers (next :: rest) depth
    rw [prettyMembers, List.append_assoc]
    exact hmember.append_mark (by decide) (hrest.newLine depth)

end

theorem ofText_of_spells {cs : List Char} {ts : List Token} (h : Spells cs ts) :
    Token.ofText (String.ofList cs) = ts := by
  have hall := h [] Numeral.ends_nil
  rw [List.append_nil, ofChars, List.append_nil] at hall
  rw [Token.ofText, String.toList_ofList, hall]

theorem ofText_compactText (v : Value) : Token.ofText v.compactText = v.tokens :=
  ofText_of_spells (spells_compact v)

theorem ofText_prettyText (v : Value) : Token.ofText v.prettyText = v.tokens :=
  ofText_of_spells (spells_pretty v 0)

end Value

end Tariff.Json

import Tariff.Proofs.Assembly.Phrase

namespace Tariff.Assembly

-- What follows the first colon that has a space behind it.
def afterLabel? : List Char → Option (List Char)
  | [] => none
  | ':' :: ' ' :: rest => some rest
  | _ :: rest => afterLabel? rest

def unlabel (line : List Char) : List Char :=
  (afterLabel? line).getD line

-- The text with the label of every line removed.
def unlabelled (listing : String) : String :=
  String.ofList ((Text.lines listing.toList).flatMap fun line => unlabel line ++ ['\n'])

theorem unlabel_append {label : List Char} (h : ':' ∉ label) (rest : List Char) :
    unlabel (label ++ ':' :: ' ' :: rest) = rest := by
  have hafter : afterLabel? (label ++ ':' :: ' ' :: rest) = some rest := by
    induction label with
    | nil => rfl
    | cons c label ih =>
      rw [List.mem_cons, not_or] at h
      rw [List.cons_append, afterLabel?, ih h.2]
      rintro _ rfl
      exact absurd rfl h.1
  rw [unlabel, hafter, Option.getD_some]

theorem unlabel_of_not_mem {line : List Char} (h : ':' ∉ line) : unlabel line = line := by
  have hafter : afterLabel? line = none := by
    induction line with
    | nil => rfl
    | cons c line ih =>
      rw [List.mem_cons, not_or] at h
      rw [afterLabel?, ih h.2]
      rintro _ rfl
      exact absurd rfl h.1
  rw [unlabel, hafter, Option.getD_none]

-- The lines of a listing, without the line feeds.
def constantLine (index : Nat) (value : Amount) : List Char :=
  phrase ".constant".toList [value.digits] ++ ' ' :: ';' :: ' ' :: '#' :: Text.Decimal.ofNat index

def separatorLine (index : Nat) : List Char :=
  if index = 0 then "; source #0".toList
  else phrase ".source".toList [] ++ ' ' :: ';' :: ' ' :: '#' :: Text.Decimal.ofNat index

def invocationLine (position : Nat) (i : Invocation) : List Char :=
  Text.Hex.padded 4 (2 * position) ++ ':' :: ' ' :: code i

def scriptLines (index : Nat) (script : Script) : List (List Char) :=
  separatorLine index :: script.invocations.mapIdx invocationLine

def listingLines (p : Program) : List (List Char) :=
  p.constants.mapIdx constantLine ++ (p.sources.mapIdx scriptLines).flatten

theorem toList_listingLine (position : Nat) (i : Invocation) :
    (Script.listingLine position i).toList = invocationLine position i ++ ['\n'] := by
  have hoperand : (toString i.operand).toList = Text.Decimal.ofNat i.operand.toNat :=
    String.toList_ofList
  have hstring (s : String) : toString s = s := rfl
  unfold Script.listingLine invocationLine code
  cases hop : i.op? with
  | none =>
    rw [spelling_of_none hop]
    simp [phrase, hstring, hoperand]
  | some op =>
    rw [spelling_of_some hop]
    by_cases hshown : (op.takesOperand || i.operand != 0) = true
    · simp only [if_pos hshown]
      simp [phrase, hstring, hoperand]
    · simp only [if_neg hshown]
      simp [phrase, hstring]

-- Numbering that starts elsewhere, for inductions over numbered lists.
theorem mapIdx_cons_add {α β : Type} (f : Nat → α → β) (start : Nat) (a : α) (l : List α) :
    ((a :: l).mapIdx fun index => f (index + start)) =
      f start a :: l.mapIdx fun index => f (index + (start + 1)) := by
  have hshift : (fun index => f (index + 1 + start)) = fun index => f (index + (start + 1)) := by
    funext index
    rw [Nat.add_assoc, Nat.add_comm 1]
  rw [List.mapIdx_cons, hshift, Nat.zero_add]

theorem listingFrom_eq (position : Nat) (is : List Invocation) :
    Script.listingFrom position is =
      (is.mapIdx fun index => invocationLine (index + position)).flatMap
        fun line => line ++ ['\n'] := by
  induction is generalizing position with
  | nil => rfl
  | cons i is ih =>
    rw [Script.listingFrom, toList_listingLine, ih, mapIdx_cons_add, List.flatMap_cons]

theorem map_mapIdx {α β γ : Type} (f : Nat → α → β) (g : β → γ) (l : List α) :
    (l.mapIdx f).map g = l.mapIdx fun index a => g (f index a) := by
  rw [List.mapIdx_eq_zipIdx_map, List.mapIdx_eq_zipIdx_map, List.map_map]
  rfl

theorem map_mapIdx_const {α β γ : Type} {f : Nat → α → β} {g : β → γ} {k : α → γ}
    (h : ∀ index a, g (f index a) = k a) (l : List α) : (l.mapIdx f).map g = l.map k := by
  apply List.ext_getElem?
  intro n
  have hn : g ∘ f n = k := funext (h n)
  rw [List.getElem?_map, List.getElem?_map, List.getElem?_mapIdx, Option.map_map, hn]

theorem toList_listing (p : Program) :
    p.listing.toList = (listingLines p).flatMap fun line => line ++ ['\n'] := by
  have hstring (s : String) : toString s = s := rfl
  have hconstant (index : Nat) (value : Amount) :
      (".constant " ++ value.text ++ s!" ; #{index}\n").toList =
        constantLine index value ++ ['\n'] := by
    simp [constantLine, phrase, hstring, Amount.text, Text.Decimal.ofNat]
  have hscript (index : Nat) (script : Script) :
      ((if index = 0 then "; source #0\n" else s!".source ; #{index}\n") ++ script.listing).toList =
        ((scriptLines index script).map fun line => line ++ ['\n']).flatten := by
    rw [String.toList_append, Script.listing, String.toList_ofList, listingFrom_eq, scriptLines,
      List.map_cons, List.flatten_cons, separatorLine]
    simp only [Nat.add_zero]
    split
    · rfl
    · simp [phrase, hstring, Text.Decimal.ofNat, List.flatMap_def]
  simp only [Program.listing, listingLines, String.toList_append, String.toList_join,
    List.flatMap_def, List.map_append, List.flatten_append, List.map_flatten, map_mapIdx, hconstant,
    List.flatten_flatten, hscript]

-- A character of a line without its label.
def isPrinted (c : Char) : Bool :=
  c == ' ' || (!Text.isBlank c && c != ':')

theorem isPrinted_of_isSolid {c : Char} (h : isSolid c = true) : isPrinted c = true := by
  obtain ⟨hblank, -, -, hcolon⟩ := isSolid_iff.mp h
  simp [isPrinted, hblank, hcolon]

theorem isPrinted_of_mem_phrase {word : List Char} {more : List (List Char)} (hword : Solid word)
    (hmore : ∀ other ∈ more, Solid other) {c : Char} (h : c ∈ phrase word more) :
    isPrinted c = true := by
  obtain rfl | hsolid := mem_phrase hword hmore h
  · decide
  · exact isPrinted_of_isSolid hsolid

theorem isPrinted_of_mem_comment {index : Nat} {c : Char}
    (h : c ∈ ' ' :: ';' :: ' ' :: '#' :: Text.Decimal.ofNat index) : isPrinted c = true := by
  simp only [List.mem_cons] at h
  obtain rfl | rfl | rfl | rfl | h := h
  · decide
  · decide
  · decide
  · decide
  · exact isPrinted_of_isSolid ((solid_ofNat index).2 c h)

theorem isPrinted_of_mem_constantLine {index : Nat} {value : Amount} {c : Char}
    (h : c ∈ constantLine index value) : isPrinted c = true := by
  rw [constantLine, List.mem_append] at h
  obtain h | h := h
  · exact isPrinted_of_mem_phrase (by decide) (solid_digits value) h
  · exact isPrinted_of_mem_comment h

theorem isPrinted_of_mem_separatorLine {index : Nat} {c : Char} (h : c ∈ separatorLine index) :
    isPrinted c = true := by
  have hfirst : "; source #0".toList.all isPrinted = true := by decide
  rw [separatorLine] at h
  split at h
  · exact List.all_eq_true.mp hfirst c h
  · obtain h | h := List.mem_append.mp h
    · exact isPrinted_of_mem_phrase (by decide) (List.forall_mem_nil _) h
    · exact isPrinted_of_mem_comment h

theorem isPrinted_of_mem_code {i : Invocation} {c : Char} (h : c ∈ code i) : isPrinted c = true :=
  isPrinted_of_mem_phrase (solid_spelling i).1 (solid_spelling i).2 h

theorem isPrinted_of_mem_toDigits {b n : Nat} (hb : 1 < b) {c : Char} (h : c ∈ Nat.toDigits b n) :
    isPrinted c = true := by
  have hdigit (n : Nat) : isPrinted (Nat.digitChar n) = true := by
    by_cases hn : n < 16
    · have hsmall : ∀ n < 16, isPrinted (Nat.digitChar n) = true := by decide
      exact hsmall n hn
    · rw [Nat.digitChar_eq_star.mpr (by omega)]
      decide
  induction n using Nat.strongRecOn with
  | ind n ih =>
    rw [Nat.toDigits_eq_if hb] at h
    split at h
    · rw [List.mem_singleton] at h
      exact h ▸ hdigit n
    · rw [List.mem_append, List.mem_singleton] at h
      obtain h | h := h
      · exact ih (n / b) (Nat.div_lt_self (by omega) hb) h
      · exact h ▸ hdigit (n % b)

theorem isPrinted_of_mem_padded {width n : Nat} {c : Char} (h : c ∈ Text.Hex.padded width n) :
    isPrinted c = true := by
  rw [Text.Hex.padded, List.mem_append] at h
  obtain h | h := h
  · rw [List.eq_of_mem_replicate h]
    decide
  · exact isPrinted_of_mem_toDigits (by decide) h

theorem not_mem_of_isPrinted {line : List Char} (h : ∀ c ∈ line, isPrinted c = true) :
    ':' ∉ line :=
  fun hmem => absurd (h ':' hmem) (by decide)

theorem unlabel_constantLine (index : Nat) (value : Amount) :
    unlabel (constantLine index value) = constantLine index value :=
  unlabel_of_not_mem (not_mem_of_isPrinted fun _ h => isPrinted_of_mem_constantLine h)

theorem unlabel_separatorLine (index : Nat) : unlabel (separatorLine index) = separatorLine index :=
  unlabel_of_not_mem (not_mem_of_isPrinted fun _ h => isPrinted_of_mem_separatorLine h)

theorem unlabel_invocationLine (position : Nat) (i : Invocation) :
    unlabel (invocationLine position i) = code i :=
  unlabel_append (not_mem_of_isPrinted fun _ h => isPrinted_of_mem_padded h) (code i)

theorem mem_listingLines {p : Program} {line : List Char} (h : line ∈ listingLines p) :
    (∃ index value, line = constantLine index value) ∨ (∃ index, line = separatorLine index) ∨
      ∃ position i, line = invocationLine position i := by
  rw [listingLines, List.mem_append, List.mem_flatten] at h
  obtain h | ⟨ls, hls, h⟩ := h
  · obtain ⟨index, hindex, rfl⟩ := List.mem_mapIdx.mp h
    exact .inl ⟨index, _, rfl⟩
  · obtain ⟨index, hindex, rfl⟩ := List.mem_mapIdx.mp hls
    rw [scriptLines, List.mem_cons] at h
    obtain rfl | h := h
    · exact .inr (.inl ⟨index, rfl⟩)
    · obtain ⟨position, hposition, rfl⟩ := List.mem_mapIdx.mp h
      exact .inr (.inr ⟨position, _, rfl⟩)

-- Neither a line nor what its label leaves can be mistaken for more than one line.
theorem isPrinted_of_mem_listingLines {p : Program} {line : List Char} (h : line ∈ listingLines p) :
    (∀ c ∈ line, isPrinted c = true ∨ c = ':') ∧ ∀ c ∈ unlabel line, isPrinted c = true := by
  obtain ⟨index, value, rfl⟩ | ⟨index, rfl⟩ | ⟨position, i, rfl⟩ := mem_listingLines h
  · rw [unlabel_constantLine]
    exact ⟨fun c hc => .inl (isPrinted_of_mem_constantLine hc),
      fun c hc => isPrinted_of_mem_constantLine hc⟩
  · rw [unlabel_separatorLine]
    exact ⟨fun c hc => .inl (isPrinted_of_mem_separatorLine hc),
      fun c hc => isPrinted_of_mem_separatorLine hc⟩
  · rw [unlabel_invocationLine]
    refine ⟨fun c hc => ?_, fun c hc => isPrinted_of_mem_code hc⟩
    rw [invocationLine, List.mem_append, List.mem_cons, List.mem_cons] at hc
    obtain hc | hc | hc | hc := hc
    · exact .inl (isPrinted_of_mem_padded hc)
    · exact .inr hc
    · exact .inl (hc ▸ by decide)
    · exact .inl (isPrinted_of_mem_code hc)

theorem lines_of_isPrinted {ls : List (List Char)}
    (h : ∀ line ∈ ls, ∀ c ∈ line, isPrinted c = true ∨ c = ':') :
    Text.lines (ls.flatMap fun line => line ++ ['\n']) = ls := by
  apply Text.lines_flatMap
  · intro line hline hmem
    exact absurd (h line hline '\n' hmem) (by decide)
  · intro line hline hlast
    exact absurd (h line hline '\r' (List.mem_of_getLast? hlast)) (by decide)

theorem lines_listing (p : Program) : Text.lines p.listing.toList = listingLines p := by
  rw [toList_listing]
  exact lines_of_isPrinted fun line hline => (isPrinted_of_mem_listingLines hline).1

theorem lines_unlabelled (p : Program) :
    Text.lines (unlabelled p.listing).toList = (listingLines p).map unlabel := by
  have hmap : ((listingLines p).flatMap fun line => unlabel line ++ ['\n']) =
      ((listingLines p).map unlabel).flatMap fun line => line ++ ['\n'] := by
    rw [List.flatMap_map]
  rw [unlabelled, String.toList_ofList, lines_listing, hmap]
  apply lines_of_isPrinted
  intro line hline c hc
  obtain ⟨labelled, hlabelled, rfl⟩ := List.mem_map.mp hline
  exact .inl ((isPrinted_of_mem_listingLines hlabelled).2 c hc)

theorem length_listingLines (p : Program) :
    (listingLines p).length =
      p.constants.length + p.sources.length + (p.sources.flatMap Script.invocations).length := by
  -- the induction is on the sources, wherever the numbering starts
  have hscripts (sources : List Script) (start : Nat) :
      (sources.mapIdx fun index => scriptLines (index + start)).flatten.length =
        sources.length + (sources.flatMap Script.invocations).length := by
    induction sources generalizing start with
    | nil => rfl
    | cons script sources ih =>
      rw [mapIdx_cons_add, List.flatten_cons, List.length_append, ih, scriptLines,
        List.length_cons, List.length_mapIdx, List.flatMap_cons, List.length_append,
        List.length_cons]
      omega
  rw [listingLines, List.length_append, List.length_mapIdx, Nat.add_assoc]
  exact congrArg _ (hscripts p.sources 0)

-- The lines before an invocation are the listing of the program that ends there.
theorem listingLines_eq_append {p : Program} {before after : List Script}
    {good rest : List Invocation} {i : Invocation}
    (h : p.sources = before ++ ⟨good ++ i :: rest⟩ :: after) :
    ∃ later, listingLines p =
      listingLines ⟨before ++ [⟨good⟩], p.constants⟩ ++ invocationLine good.length i :: later := by
  refine ⟨(rest.mapIdx fun index => invocationLine (index + 1 + good.length)) ++
    (after.mapIdx fun index => scriptLines (index + 1 + before.length)).flatten, ?_⟩
  simp only [listingLines, h, List.mapIdx_append, List.mapIdx_cons, List.mapIdx_nil,
    List.flatten_append, List.flatten_cons, List.flatten_nil, scriptLines, List.append_assoc,
    List.cons_append, List.append_nil, Nat.zero_add]

end Tariff.Assembly

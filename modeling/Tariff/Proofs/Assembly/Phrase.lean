import Mathlib.Data.List.Basic
import Tariff.Proofs.Assembly.Grammar
import Tariff.Proofs.Text.Decimal

namespace Tariff

-- Assembly text can say the invocation: the opcode is known, and the operand is zero when the
-- opcode takes none.
def Invocation.Writable (i : Invocation) : Prop :=
  ∃ op, i.op? = some op ∧ (op.takesOperand = false → i.operand = 0)

namespace Assembly

-- A character that can stand in a word: it is not blank, starts no comment and ends no label.
def isSolid (c : Char) : Bool :=
  !Text.isBlank c && c != ';' && c != '#' && c != ':'

theorem isSolid_iff {c : Char} :
    isSolid c = true ↔ Text.isBlank c = false ∧ c ≠ ';' ∧ c ≠ '#' ∧ c ≠ ':' := by
  simp [isSolid, and_assoc]

def Solid (word : List Char) : Prop :=
  word ≠ [] ∧ ∀ c ∈ word, isSolid c = true

instance (word : List Char) : Decidable (Solid word) :=
  decidable_of_iff ((!word.isEmpty && word.all isSolid) = true) (by simp [Solid])

theorem Solid.isBlank_eq_false {word : List Char} (h : Solid word) {c : Char} (hc : c ∈ word) :
    Text.isBlank c = false :=
  (isSolid_iff.mp (h.2 c hc)).1

theorem Solid.words_eq {word : List Char} (h : Solid word) : Text.words word = [word] :=
  Text.words_of_word h.1 fun _ hc => h.isBlank_eq_false hc

-- Words with a space between each two.
def phrase : List Char → List (List Char) → List Char
  | word, [] => word
  | word, next :: more => word ++ ' ' :: phrase next more

theorem mem_phrase {word : List Char} {more : List (List Char)} (hword : Solid word)
    (hmore : ∀ other ∈ more, Solid other) {c : Char} (h : c ∈ phrase word more) :
    c = ' ' ∨ isSolid c = true := by
  induction more generalizing word with
  | nil => exact .inr (hword.2 c h)
  | cons next more ih =>
    rw [List.forall_mem_cons] at hmore
    rw [phrase, List.mem_append, List.mem_cons] at h
    obtain hc | hc | hc := h
    · exact .inr (hword.2 c hc)
    · exact .inl hc
    · exact ih hmore.1 hmore.2 hc

theorem phrase_ne_nil {word : List Char} (hword : Solid word) (more : List (List Char)) :
    phrase word more ≠ [] := by
  cases more with
  | nil => exact hword.1
  | cons next more => simp [phrase]

theorem head?_phrase {word : List Char} (hword : Solid word) (more : List (List Char)) :
    (phrase word more).head? = word.head? := by
  cases more with
  | nil => rfl
  | cons next more => rw [phrase, List.head?_append_of_ne_nil _ hword.1]

theorem getLast?_phrase {word : List Char} {more : List (List Char)} (hword : Solid word)
    (hmore : ∀ other ∈ more, Solid other) :
    ∀ c ∈ (phrase word more).getLast?, Text.isBlank c = false := by
  induction more generalizing word with
  | nil =>
    intro c hc
    exact hword.isBlank_eq_false (List.mem_of_mem_getLast? hc)
  | cons next more ih =>
    rw [List.forall_mem_cons] at hmore
    rw [phrase, List.getLast?_append_of_ne_nil _ (List.cons_ne_nil _ _),
      List.getLast?_cons_of_ne_nil (phrase_ne_nil hmore.1 more)]
    exact ih hmore.1 hmore.2

theorem words_phrase {word : List Char} {more : List (List Char)} (hword : Solid word)
    (hmore : ∀ other ∈ more, Solid other) : Text.words (phrase word more) = word :: more := by
  induction more generalizing word with
  | nil => exact hword.words_eq
  | cons next more ih =>
    rw [List.forall_mem_cons] at hmore
    rw [phrase, Text.words_append (by decide), hword.words_eq, ih hmore.1 hmore.2,
      List.singleton_append]

theorem uncommented_append {text : List Char} (h : ∀ c ∈ text, c ≠ ';' ∧ c ≠ '#')
    (rest : List Char) : uncommented (text ++ rest) = text ++ uncommented rest := by
  rw [← dropComment_eq_uncommented, ← dropComment_eq_uncommented]
  apply List.takeWhile_append_of_pos
  intro c hc
  simpa using h c hc

-- A phrase is its own body, with or without a comment behind it.
theorem body_phrase {word : List Char} {more : List (List Char)} (hword : Solid word)
    (hmore : ∀ other ∈ more, Solid other) (tail : List Char)
    (htail : ∀ c ∈ uncommented tail, Text.isBlank c = true) :
    body (phrase word more ++ tail) = phrase word more := by
  have hmarks : ∀ c ∈ phrase word more, c ≠ ';' ∧ c ≠ '#' := by
    intro c hc
    obtain rfl | hsolid := mem_phrase hword hmore hc
    · decide
    · exact ⟨(isSolid_iff.mp hsolid).2.1, (isSolid_iff.mp hsolid).2.2.1⟩
  have hhead : ∀ c ∈ (phrase word more).head?, Text.isBlank c = false := by
    rw [head?_phrase hword]
    intro c hc
    exact hword.isBlank_eq_false (List.mem_of_mem_head? hc)
  rw [body, uncommented_append hmarks,
    Text.trim_append_blanks hhead (getLast?_phrase hword hmore) htail]

theorem solid_ofNat (n : Nat) : Solid (Text.Decimal.ofNat n) := by
  refine ⟨Nat.toDigits_ne_nil, fun c hc => ?_⟩
  have hdigit := Text.Decimal.isDigit_of_mem_ofNat hc
  refine isSolid_iff.mpr ⟨Text.Decimal.isBlank_of_isDigit hdigit, ?_, ?_, ?_⟩ <;>
  · rintro rfl
    exact absurd hdigit (by decide)

theorem solid_digits (a : Amount) : ∀ word ∈ [a.digits], Solid word := by
  intro word hword
  rw [List.mem_singleton] at hword
  exact hword ▸ solid_ofNat a.toNat

theorem solid_name (op : Opcode) : Solid op.name.toList := by
  cases op <;> decide

theorem solid_ofByte (b : UInt8) : Solid ('0' :: 'x' :: Text.Hex.ofByte b) := by
  have hdigit : ∀ n < 16, isSolid (Text.Hex.digit n) = true := by decide
  have hbyte : b.toNat < 256 := b.toNat_lt
  refine ⟨List.cons_ne_nil _ _, fun c hc => ?_⟩
  simp only [Text.Hex.ofByte, List.mem_cons, List.not_mem_nil, or_false] at hc
  obtain rfl | rfl | rfl | rfl := hc
  · decide
  · decide
  · exact hdigit _ (by omega)
  · exact hdigit _ (by omega)

-- The words on the line of an invocation.
def spelling (i : Invocation) : List Char × List (List Char) :=
  match i.op? with
  | some op =>
    (op.name.toList,
      if op.takesOperand || i.operand != 0 then [Text.Decimal.ofNat i.operand.toNat] else [])
  | none =>
    ("UNKNOWN".toList,
      ['0' :: 'x' :: Text.Hex.ofByte i.opcode, Text.Decimal.ofNat i.operand.toNat])

def code (i : Invocation) : List Char :=
  phrase (spelling i).1 (spelling i).2

theorem spelling_of_none {i : Invocation} (h : i.op? = none) :
    spelling i = ("UNKNOWN".toList,
      ['0' :: 'x' :: Text.Hex.ofByte i.opcode, Text.Decimal.ofNat i.operand.toNat]) := by
  simp only [spelling, h]

theorem spelling_of_some {i : Invocation} {op : Opcode} (h : i.op? = some op) :
    spelling i = (op.name.toList,
      if op.takesOperand || i.operand != 0 then [Text.Decimal.ofNat i.operand.toNat] else []) := by
  simp only [spelling, h]

theorem solid_spelling (i : Invocation) :
    Solid (spelling i).1 ∧ ∀ word ∈ (spelling i).2, Solid word := by
  cases hop : i.op? with
  | none =>
    have hunknown : Solid "UNKNOWN".toList := by decide
    rw [spelling_of_none hop]
    refine ⟨hunknown, fun word hword => ?_⟩
    simp only [List.mem_cons, List.not_mem_nil, or_false] at hword
    obtain rfl | rfl := hword
    · exact solid_ofByte i.opcode
    · exact solid_ofNat i.operand.toNat
  | some op =>
    rw [spelling_of_some hop]
    refine ⟨solid_name op, fun word hword => ?_⟩
    split at hword
    · rw [List.mem_singleton] at hword
      exact hword ▸ solid_ofNat i.operand.toNat
    · cases hword

theorem body_code (i : Invocation) : body (code i) = code i := by
  have hsolid := solid_spelling i
  have hbody := body_phrase hsolid.1 hsolid.2 [] (List.forall_mem_nil _)
  rwa [List.append_nil] at hbody

theorem words_code (i : Invocation) :
    Text.words (code i) = (spelling i).1 :: (spelling i).2 :=
  words_phrase (solid_spelling i).1 (solid_spelling i).2

theorem head?_code (i : Invocation) : (code i).head? ≠ some '.' := by
  have hunknown : "UNKNOWN".toList.head? ≠ some '.' := by decide
  have hname (op : Opcode) : op.name.toList.head? ≠ some '.' := by cases op <;> decide
  rw [code, head?_phrase (solid_spelling i).1]
  cases hop : i.op? with
  | none => exact spelling_of_none hop ▸ hunknown
  | some op => exact spelling_of_some hop ▸ hname op

theorem ofName?_name (op : Opcode) : Opcode.ofName? op.name.toList = some op := by
  cases op <;> decide

theorem readLine_code_of_writable {i : Invocation} (h : i.Writable) :
    readLine (code i) = .ok (.instruction i) := by
  obtain ⟨op, hop, hoperand⟩ := h
  have hbyte : op.byte = i.opcode := Opcode.byte_of_ofByte? hop
  have hwords := words_code i
  rw [spelling_of_some hop] at hwords
  apply readLine_of_form
  rw [body_code]
  cases htakes : op.takesOperand with
  | true =>
    rw [htakes] at hwords
    have hform := Form.operand (head?_code i) hwords (ofName?_name op) htakes
      (Text.Decimal.unsigned?_ofNat i.operand.toNat_lt)
    rwa [Invocation.of, hbyte, UInt8.ofNat_toNat] at hform
  | false =>
    rw [htakes, hoperand htakes] at hwords
    have hform := Form.plain (head?_code i) hwords (ofName?_name op) htakes
    rwa [Invocation.of, hbyte, ← hoperand htakes] at hform

theorem readLine_code_of_unknown {i : Invocation} (h : i.op? = none) :
    readLine (code i) = .error (.unknownInstruction "UNKNOWN") := by
  have hname : Opcode.ofName? "UNKNOWN".toList = none := by decide
  have hwords := words_code i
  rw [spelling_of_none h] at hwords
  apply readLine_of_form
  rw [body_code]
  exact Form.unknownInstruction (head?_code i) hwords hname

theorem readLine_code_of_stray {i : Invocation} {op : Opcode} (hop : i.op? = some op)
    (h : ¬ i.Writable) : readLine (code i) = .error (.strayOperand op.name) := by
  have hstray : op.takesOperand = false ∧ i.operand ≠ 0 := by
    by_contra hnot
    refine h ⟨op, hop, fun htakes => ?_⟩
    by_contra hoperand
    exact hnot ⟨htakes, hoperand⟩
  have hshown : (op.takesOperand || i.operand != 0) = true := by simpa using .inr hstray.2
  have hwords := words_code i
  rw [spelling_of_some hop, if_pos hshown] at hwords
  apply readLine_of_form
  rw [body_code]
  exact Form.operandStray (head?_code i) hwords (ofName?_name op) hstray.1

theorem readLine_code_of_not_writable {i : Invocation} (h : ¬ i.Writable) :
    ∃ problem, readLine (code i) = .error problem ∧
      (i.op? = none → problem = .unknownInstruction "UNKNOWN") ∧
      ∀ op, i.op? = some op → problem = .strayOperand op.name := by
  cases hop : i.op? with
  | none => exact ⟨_, readLine_code_of_unknown hop, fun _ => rfl, by simp⟩
  | some op => exact ⟨_, readLine_code_of_stray hop h, by simp, by simp⟩

end Assembly

end Tariff

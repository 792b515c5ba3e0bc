import Tariff.Assembly
import Tariff.Proofs.Text.Blank

namespace Tariff.Assembly

-- A comment runs from the first `;` or `#` to the end of the line.
def uncommented : List Char → List Char
  | [] => []
  | ';' :: _ => []
  | '#' :: _ => []
  | c :: rest => c :: uncommented rest

-- A line without its comment and without the blanks around it.
def body (cs : List Char) : List Char :=
  Text.trim (uncommented cs)

-- The forms of a body. Where several things are wrong with it, the rules say which one counts.
inductive Form : List Char → Except Problem Line → Prop
  | blank : Form [] (.ok .blank)
  | constant {rest name text : List Char} {value : Amount}
    (hwords : Text.words rest = [name, text])
    (hname : name.map Char.toLower = "constant".toList)
    (hvalue : Amount.ofDigits? text = some value) : Form ('.' :: rest) (.ok (.constant value))
  | constantAlone {rest name : List Char} (hwords : Text.words rest = [name])
    (hname : name.map Char.toLower = "constant".toList) :
    Form ('.' :: rest) (.error (.badArgument ".constant requires a value"))
  | constantUnread {rest name text : List Char} {more : List (List Char)}
    (hwords : Text.words rest = name :: text :: more)
    (hname : name.map Char.toLower = "constant".toList)
    (hvalue : Amount.ofDigits? text = none) :
    Form ('.' :: rest) (.error (.badNumber (String.ofList text)))
  | constantCrowded {rest name text extra : List Char} {more : List (List Char)} {value : Amount}
    (hwords : Text.words rest = name :: text :: extra :: more)
    (hname : name.map Char.toLower = "constant".toList)
    (hvalue : Amount.ofDigits? text = some value) :
    Form ('.' :: rest) (.error (.badArgument "too many arguments for .constant"))
  | source {rest name : List Char} (hwords : Text.words rest = [name])
    (hname : name.map Char.toLower = "source".toList) : Form ('.' :: rest) (.ok .source)
  | sourceCrowded {rest name extra : List Char} {more : List (List Char)}
    (hwords : Text.words rest = name :: extra :: more)
    (hname : name.map Char.toLower = "source".toList) :
    Form ('.' :: rest) (.error (.badArgument ".source takes no arguments"))
  | dotAlone {rest : List Char} (hwords : Text.words rest = []) :
    Form ('.' :: rest) (.error (.unknownDirective ""))
  | unknownDirective {rest name : List Char} {arguments : List (List Char)}
    (hwords : Text.words rest = name :: arguments)
    (hconstant : name.map Char.toLower ≠ "constant".toList)
    (hsource : name.map Char.toLower ≠ "source".toList) :
    Form ('.' :: rest) (.error (.unknownDirective (String.ofList name)))
  | plain {text name : List Char} {op : Opcode} (hdot : text.head? ≠ some '.')
    (hwords : Text.words text = [name]) (hname : Opcode.ofName? name = some op)
    (hop : op.takesOperand = false) : Form text (.ok (.instruction (.of op 0)))
  | operand {text name digits : List Char} {op : Opcode} {n : Nat} (hdot : text.head? ≠ some '.')
    (hwords : Text.words text = [name, digits]) (hname : Opcode.ofName? name = some op)
    (hop : op.takesOperand = true) (hvalue : Text.Decimal.unsigned? 256 digits = some n) :
    Form text (.ok (.instruction (.of op (UInt8.ofNat n))))
  | operandMissing {text name : List Char} {op : Opcode} (hdot : text.head? ≠ some '.')
    (hwords : Text.words text = [name]) (hname : Opcode.ofName? name = some op)
    (hop : op.takesOperand = true) :
    Form text (.error (.badArgument (op.name ++ " requires an operand")))
  | operandUnread {text name digits : List Char} {more : List (List Char)} {op : Opcode}
    (hdot : text.head? ≠ some '.') (hwords : Text.words text = name :: digits :: more)
    (hname : Opcode.ofName? name = some op) (hop : op.takesOperand = true)
    (hvalue : Text.Decimal.unsigned? 256 digits = none) :
    Form text (.error (.badNumber (String.ofList digits)))
  | operandCrowded {text name digits extra : List Char} {more : List (List Char)} {op : Opcode}
    {n : Nat} (hdot : text.head? ≠ some '.')
    (hwords : Text.words text = name :: digits :: extra :: more)
    (hname : Opcode.ofName? name = some op) (hop : op.takesOperand = true)
    (hvalue : Text.Decimal.unsigned? 256 digits = some n) :
    Form text (.error (.badArgument ("too many arguments for " ++ op.name)))
  | operandStray {text name extra : List Char} {more : List (List Char)} {op : Opcode}
    (hdot : text.head? ≠ some '.') (hwords : Text.words text = name :: extra :: more)
    (hname : Opcode.ofName? name = some op) (hop : op.takesOperand = false) :
    Form text (.error (.strayOperand op.name))
  | unknownInstruction {text name : List Char} {arguments : List (List Char)}
    (hdot : text.head? ≠ some '.') (hwords : Text.words text = name :: arguments)
    (hname : Opcode.ofName? name = none) :
    Form text (.error (.unknownInstruction (String.ofList (Text.upper name))))

theorem dropComment_eq_uncommented (cs : List Char) : dropComment cs = uncommented cs := by
  fun_induction uncommented cs with
  | case1 | case2 | case3 => rfl
  | case4 c rest hsemicolon hsign ih =>
    rw [← ih]
    exact List.takeWhile_cons_of_pos (by simpa using ⟨hsemicolon, hsign⟩)

theorem trim_dropComment (cs : List Char) : Text.trim (dropComment cs) = body cs := by
  rw [dropComment_eq_uncommented, body]

theorem readLine_of_directive {cs rest : List Char} (h : body cs = '.' :: rest) :
    readLine cs = readDirective (Text.words rest) := by
  simp only [readLine, trim_dropComment, h]

theorem readLine_of_instruction {cs text : List Char} (h : body cs = text)
    (hne : text ≠ []) (hdot : text.head? ≠ some '.') :
    readLine cs = readInstruction (Text.words text) := by
  unfold readLine
  rw [trim_dropComment, h]
  split
  · exact absurd rfl hne
  · exact absurd rfl hdot
  · rfl

theorem form_readDirective (rest : List Char) :
    Form ('.' :: rest) (readDirective (Text.words rest)) := by
  cases hwords : Text.words rest with
  | nil => exact .dotAlone hwords
  | cons name arguments =>
    by_cases hconstant : name.map Char.toLower = "constant".toList
    · simp only [readDirective, if_pos hconstant]
      rcases arguments with _ | ⟨text, more⟩
      · exact .constantAlone hwords hconstant
      cases hvalue : Amount.ofDigits? text with
      | none =>
        simp only [readConstant, hvalue]
        exact .constantUnread hwords hconstant hvalue
      | some value =>
        simp only [readConstant, hvalue]
        rcases more with _ | ⟨extra, more⟩
        · exact .constant hwords hconstant hvalue
        · exact .constantCrowded hwords hconstant hvalue
    by_cases hsource : name.map Char.toLower = "source".toList
    · simp only [readDirective, if_neg hconstant, if_pos hsource]
      rcases arguments with _ | ⟨extra, more⟩
      · exact .source hwords hsource
      · exact .sourceCrowded hwords hsource
    · simp only [readDirective, if_neg hconstant, if_neg hsource]
      exact .unknownDirective hwords hconstant hsource

theorem form_readInstruction {text : List Char} (hdot : text.head? ≠ some '.')
    (hne : Text.words text ≠ []) : Form text (readInstruction (Text.words text)) := by
  cases hwords : Text.words text with
  | nil => exact absurd hwords hne
  | cons name arguments =>
    cases hname : Opcode.ofName? name with
    | none =>
      simp only [readInstruction, hname]
      exact .unknownInstruction hdot hwords hname
    | some op =>
      cases hop : op.takesOperand with
      | false =>
        rcases arguments with _ | ⟨extra, more⟩
        · simp only [readInstruction, hname, readOperand, hop]
          exact .plain hdot hwords hname hop
        · simp only [readInstruction, hname, readOperand, hop]
          exact .operandStray hdot hwords hname hop
      | true =>
        rcases arguments with _ | ⟨digits, more⟩
        · simp only [readInstruction, hname, readOperand, hop]
          exact .operandMissing hdot hwords hname hop
        cases hvalue : Text.Decimal.unsigned? 256 digits with
        | none =>
          simp only [readInstruction, hname, readOperand, hop, hvalue]
          exact .operandUnread hdot hwords hname hop hvalue
        | some n =>
          simp only [readInstruction, hname, readOperand, hop, hvalue]
          rcases more with _ | ⟨extra, more⟩
          · exact .operand hdot hwords hname hop hvalue
          · exact .operandCrowded hdot hwords hname hop hvalue

-- A body that is not empty has a word: it neither starts nor ends with a blank.
theorem form_readLine (cs : List Char) : Form (body cs) (readLine cs) := by
  cases hbody : body cs with
  | nil =>
    simp only [readLine, trim_dropComment, hbody]
    exact .blank
  | cons c rest =>
    by_cases hc : c = '.'
    · subst hc
      rw [readLine_of_directive hbody]
      exact form_readDirective rest
    · have hdot : (c :: rest).head? ≠ some '.' := by simpa using hc
      rw [readLine_of_instruction hbody (by simp) hdot]
      apply form_readInstruction hdot
      rw [← hbody]
      exact Text.words_trim_ne_nil (by rw [body] at hbody; simp [hbody])

theorem readLine_of_words {cs text name : List Char} {arguments : List (List Char)}
    (h : body cs = text) (hdot : text.head? ≠ some '.')
    (hwords : Text.words text = name :: arguments) :
    readLine cs = readInstruction (name :: arguments) := by
  have hne : text ≠ [] := by
    rintro rfl
    cases hwords
  rw [readLine_of_instruction h hne hdot, hwords]

-- One case for each rule.
theorem readLine_of_form {cs : List Char} {outcome : Except Problem Line}
    (h : Form (body cs) outcome) : readLine cs = outcome := by
  have hother : "source".toList ≠ "constant".toList := by decide
  generalize hbody : body cs = text at h
  cases h with
  | blank =>
    simp only [readLine, trim_dropComment, hbody]
  | constant hwords hname hvalue =>
    rw [readLine_of_directive hbody, hwords, readDirective, if_pos hname, readConstant, hvalue]
    rfl
  | constantAlone hwords hname =>
    rw [readLine_of_directive hbody, hwords, readDirective, if_pos hname, readConstant]
  | constantUnread hwords hname hvalue =>
    rw [readLine_of_directive hbody, hwords, readDirective, if_pos hname, readConstant, hvalue]
  | constantCrowded hwords hname hvalue =>
    rw [readLine_of_directive hbody, hwords, readDirective, if_pos hname, readConstant, hvalue]
    rfl
  | source hwords hname =>
    rw [readLine_of_directive hbody, hwords, readDirective, if_neg (hname ▸ hother), if_pos hname]
    rfl
  | sourceCrowded hwords hname =>
    rw [readLine_of_directive hbody, hwords, readDirective, if_neg (hname ▸ hother), if_pos hname]
    rfl
  | dotAlone hwords => rw [readLine_of_directive hbody, hwords, readDirective]
  | unknownDirective hwords hconstant hsource =>
    rw [readLine_of_directive hbody, hwords, readDirective, if_neg hconstant, if_neg hsource]
  | plain hdot hwords hname hop =>
    rw [readLine_of_words hbody hdot hwords]
    simp only [readInstruction, hname, readOperand, hop]
    rfl
  | operand hdot hwords hname hop hvalue =>
    rw [readLine_of_words hbody hdot hwords]
    simp only [readInstruction, hname, readOperand, hop, hvalue]
    rfl
  | operandMissing hdot hwords hname hop =>
    rw [readLine_of_words hbody hdot hwords]
    simp only [readInstruction, hname, readOperand, hop]
    rfl
  | operandUnread hdot hwords hname hop hvalue =>
    rw [readLine_of_words hbody hdot hwords]
    simp only [readInstruction, hname, readOperand, hop, hvalue]
    rfl
  | operandCrowded hdot hwords hname hop hvalue =>
    rw [readLine_of_words hbody hdot hwords]
    simp only [readInstruction, hname, readOperand, hop, hvalue]
    exact if_pos (by simp)
  | operandStray hdot hwords hname hop =>
    rw [readLine_of_words hbody hdot hwords]
    simp only [readInstruction, hname, readOperand, hop]
    rfl
  | unknownInstruction hdot hwords hname =>
    rw [readLine_of_words hbody hdot hwords]
    simp only [readInstruction, hname]

theorem readLine_eq_iff {cs : List Char} {outcome : Except Problem Line} :
    readLine cs = outcome ↔ Form (body cs) outcome := by
  constructor
  · rintro rfl
    exact form_readLine cs
  · exact readLine_of_form

end Tariff.Assembly

import Tariff.Json.Number
import Tariff.Text.Hex

namespace Tariff.Json

-- A text that is not well formed has the tokens before that place, followed by `broken`, so that a
-- reader meets faults in the order of the text.
inductive Token
  | openObject
  | closeObject
  | openList
  | closeList
  | colon
  | comma
  | null
  | boolean (b : Bool)
  | number (n : Numeral)
  -- No text when an escape denotes half of a surrogate pair.
  | text (s : Option String)
  | broken
deriving DecidableEq, Repr

namespace Token

def isSpace (c : Char) : Bool :=
  c == ' ' || c == '\t' || c == '\n' || c == '\r'

-- A character of a string, or the number of a `\u` escape.
inductive Piece
  | char (c : Char)
  | unit (n : Nat)
deriving DecidableEq, Repr

def unit? (a b c d : Char) : Option Nat := do
  let a ← Text.Hex.value? a
  let b ← Text.Hex.value? b
  let c ← Text.Hex.value? c
  let d ← Text.Hex.value? d
  some (((a * 16 + b) * 16 + c) * 16 + d)

def shortEscape? : Char → Option Char
  | '"' => some '"'
  | '\\' => some '\\'
  | '/' => some '/'
  | 'b' => some '\x08'
  | 'f' => some '\x0c'
  | 'n' => some '\n'
  | 'r' => some '\r'
  | 't' => some '\t'
  | _ => none

-- What follows an opening quote: the pieces up to the closing quote, and the rest.
def pieces : List Char → Option (List Piece × List Char)
  | [] => none
  | '"' :: rest => some ([], rest)
  | '\\' :: 'u' :: a :: b :: c :: d :: rest =>
    match unit? a b c d, pieces rest with
    | some n, some (ps, after) => some (.unit n :: ps, after)
    | _, _ => none
  | '\\' :: e :: rest =>
    match shortEscape? e, pieces rest with
    | some c, some (ps, after) => some (.char c :: ps, after)
    | _, _ => none
  | c :: rest =>
    if c = '\\' ∨ c.toNat < 0x20 then none
    else
      match pieces rest with
      | some (ps, after) => some (.char c :: ps, after)
      | none => none

def isHigh (n : Nat) : Bool := 0xD800 ≤ n && n ≤ 0xDBFF

def isLow (n : Nat) : Bool := 0xDC00 ≤ n && n ≤ 0xDFFF

-- Two escapes that form a surrogate pair are one character.
def join : List Piece → Option (List Char)
  | [] => some []
  | .char c :: rest => (join rest).map (c :: ·)
  | .unit n :: rest =>
    if isLow n then none
    else if isHigh n then
      match rest with
      | .unit m :: rest =>
        if isLow m then
          (join rest).map (Char.ofNat (0x10000 + (n - 0xD800) * 0x400 + (m - 0xDC00)) :: ·)
        else none
      | _ => none
    else (join rest).map (Char.ofNat n :: ·)

-- What a string leaves behind is shorter than what it was read from.
theorem pieces_length_lt {cs after : List Char} {ps : List Piece}
    (h : pieces cs = some (ps, after)) : after.length < cs.length := by
  fun_induction pieces cs generalizing ps after with
  | case1 => simp at h
  | case2 rest => simp at h; simp [h.2]
  | case3 a b c d rest n ps' after' hp hn ih =>
    simp at h; obtain ⟨-, rfl⟩ := h
    have := ih hp; simp; omega
  | case4 => simp at h
  | case5 e rest _ c ps' after' hp hc ih =>
    simp at h; obtain ⟨-, rfl⟩ := h
    have := ih hp; simp; omega
  | case6 => simp at h
  | case7 => simp at h
  | case8 c rest =>
    rename_i hp ih
    simp at h; obtain ⟨-, rfl⟩ := h
    have := ih hp; simp; omega
  | case9 => simp at h

-- All tokens of a text. White space separates tokens and is not one.
def ofChars (cs : List Char) : List Token :=
  match cs with
  | [] => []
  | '\x7b' :: rest => .openObject :: ofChars rest
  | '\x7d' :: rest => .closeObject :: ofChars rest
  | '[' :: rest => .openList :: ofChars rest
  | ']' :: rest => .closeList :: ofChars rest
  | ':' :: rest => .colon :: ofChars rest
  | ',' :: rest => .comma :: ofChars rest
  | 'n' :: 'u' :: 'l' :: 'l' :: rest => .null :: ofChars rest
  | 't' :: 'r' :: 'u' :: 'e' :: rest => .boolean true :: ofChars rest
  | 'f' :: 'a' :: 'l' :: 's' :: 'e' :: rest => .boolean false :: ofChars rest
  | '"' :: rest =>
    match h : pieces rest with
    | none => [.broken]
    | some (ps, after) =>
      have := pieces_length_lt h
      .text ((join ps).map String.ofList) :: ofChars after
  | c :: rest =>
    if isSpace c then ofChars rest
    else
      match h : Numeral.read (c :: rest) with
      | none => [.broken]
      | some (n, after) =>
        have := Numeral.read_length_lt h
        .number n :: ofChars after
termination_by cs.length
decreasing_by
  all_goals simp only [List.length_cons] at *
  all_goals omega

def ofText (s : String) : List Token :=
  ofChars s.toList

end Token

end Tariff.Json

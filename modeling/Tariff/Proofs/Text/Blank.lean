import Tariff.Text.Blank

namespace Tariff.Text

theorem splitOn_eq_splitOnP (sep : Char → Bool) (cs : List Char) :
    splitOn sep cs = cs.splitOnP sep := by
  induction cs with
  | nil => rfl
  | cons c cs ih =>
    rw [List.splitOnP_cons_eq_if_modifyHead, splitOn, ih]
    split
    · rfl
    · cases hs : cs.splitOnP sep with
      | nil => exact absurd hs (List.splitOnP_ne_nil sep cs)
      | cons piece pieces => rfl

theorem not_mem_intercalate {c sep : Char} (hsep : c ≠ sep) {pieces : List (List Char)}
    (h : ∀ piece ∈ pieces, c ∉ piece) : c ∉ [sep].intercalate pieces := by
  induction pieces with
  | nil => exact List.not_mem_nil
  | cons piece rest ih =>
    obtain ⟨hpiece, hrest⟩ := List.forall_mem_cons.mp h
    by_cases hne : rest = []
    · rw [hne, List.intercalate_singleton]
      exact hpiece
    · rw [List.intercalate_cons_of_ne_nil hne]
      simp [hpiece, hsep, ih hrest]

theorem words_append {sep : Char} (h : isBlank sep = true) (first rest : List Char) :
    words (first ++ sep :: rest) = words first ++ words rest := by
  simp only [words, splitOn_eq_splitOnP, List.splitOnP_append_cons _ _ h, List.filter_append]

theorem words_of_word {word : List Char} (hne : word ≠ [])
    (h : ∀ c ∈ word, isBlank c = false) : words word = [word] := by
  rw [words, splitOn_eq_splitOnP, List.splitOnP_eq_singleton h]
  simpa using hne

theorem words_cons_ne_nil {c : Char} (h : isBlank c = false) (cs : List Char) :
    words (c :: cs) ≠ [] := by
  rw [words, splitOn_eq_splitOnP, List.splitOnP_cons_eq_if_modifyHead, h]
  cases hs : cs.splitOnP isBlank with
  | nil => exact absurd hs (List.splitOnP_ne_nil isBlank cs)
  | cons piece pieces => simp

-- What is left after trimming on the right stands at the start of what was there.
theorem isBlank_of_trim_eq_cons {cs rest : List Char} {c : Char} (h : trim cs = c :: rest) :
    isBlank c = false := by
  have hpre : c :: rest <+: trimLeft cs := by
    rw [← h, trim, ← List.reverse_suffix, List.reverse_reverse]
    exact List.dropWhile_suffix _
  obtain ⟨after, hafter⟩ := hpre
  have hhead := List.head?_dropWhile_not isBlank cs
  rw [show cs.dropWhile isBlank = c :: (rest ++ after) from hafter.symm] at hhead
  simpa using hhead

theorem words_trim_ne_nil {cs : List Char} (h : trim cs ≠ []) : words (trim cs) ≠ [] := by
  cases ht : trim cs with
  | nil => exact absurd ht h
  | cons c rest => exact words_cons_ne_nil (isBlank_of_trim_eq_cons ht) rest

theorem trimLeft_of_head {cs : List Char} (h : ∀ c ∈ cs.head?, isBlank c = false) :
    trimLeft cs = cs := by
  cases cs with
  | nil => rfl
  | cons c cs =>
    have hc : isBlank c = false := h c rfl
    simp [trimLeft, hc]

-- Only the blanks behind a text are lost, when it has none at its ends.
theorem trim_append_blanks {body blanks : List Char} (hhead : ∀ c ∈ body.head?, isBlank c = false)
    (hlast : ∀ c ∈ body.getLast?, isBlank c = false) (hblanks : ∀ c ∈ blanks, isBlank c = true) :
    trim (body ++ blanks) = body := by
  cases body with
  | nil =>
    have hnil : trimLeft (blanks ++ []) = [] := List.dropWhile_append_of_pos hblanks
    rw [List.append_nil] at hnil
    rw [List.nil_append, trim, hnil]
    rfl
  | cons c cs =>
    have hleft : trimLeft (c :: cs ++ blanks) = c :: cs ++ blanks := trimLeft_of_head hhead
    have hright : trimLeft (c :: cs).reverse = (c :: cs).reverse := by
      apply trimLeft_of_head
      rwa [List.head?_reverse]
    have hrest : trimLeft (blanks.reverse ++ (c :: cs).reverse) = trimLeft (c :: cs).reverse :=
      List.dropWhile_append_of_pos fun b hb => hblanks b (List.mem_reverse.mp hb)
    rw [trim, hleft, List.reverse_append, hrest, hright, List.reverse_reverse]

theorem trim_blanks_append {blanks : List Char} (h : ∀ c ∈ blanks, isBlank c = true)
    (cs : List Char) : trim (blanks ++ cs) = trim cs := by
  have hleft : trimLeft (blanks ++ cs) = trimLeft cs := List.dropWhile_append_of_pos h
  rw [trim, trim, hleft]

-- A word keeps all its characters, whatever blanks there are on either side of it.
theorem trim_of_word {before word after : List Char} (hbefore : ∀ c ∈ before, isBlank c = true)
    (hword : ∀ c ∈ word, isBlank c = false) (hafter : ∀ c ∈ after, isBlank c = true) :
    trim (before ++ word ++ after) = word := by
  rw [List.append_assoc, trim_blanks_append hbefore]
  apply trim_append_blanks _ _ hafter
  · intro c hc
    exact hword c (List.mem_of_mem_head? hc)
  · intro c hc
    exact hword c (List.mem_of_mem_getLast? hc)

theorem chomp_of_getLast? {line : List Char} (h : line.getLast? ≠ some '\r') :
    chomp line = line := by
  rw [← List.head?_reverse] at h
  unfold chomp
  split
  · rename_i rest heq
    rw [heq] at h
    exact absurd rfl h
  · rfl

theorem splitOnP_flatMap_lines {ls : List (List Char)} (h : ∀ line ∈ ls, '\n' ∉ line) :
    (ls.flatMap fun line => line ++ ['\n']).splitOnP (· == '\n') = ls ++ [[]] := by
  induction ls with
  | nil => rfl
  | cons line ls ih =>
    have hline : ∀ c ∈ line, (c == '\n') = false := by
      intro c hc
      rw [beq_eq_false_iff_ne]
      rintro rfl
      exact h line List.mem_cons_self hc
    rw [List.flatMap_cons, List.append_assoc, List.singleton_append,
      List.splitOnP_append_cons_of_forall_mem hline '\n' rfl,
      ih fun other hother => h other (List.mem_cons_of_mem _ hother), List.cons_append]

theorem chompAll_concat_nil {ls : List (List Char)} (h : ∀ line ∈ ls, line.getLast? ≠ some '\r') :
    chompAll (ls ++ [[]]) = ls := by
  induction ls with
  | nil => rfl
  | cons line ls ih =>
    obtain ⟨next, rest, hnext⟩ : ∃ next rest, ls ++ [[]] = next :: rest :=
      List.exists_cons_of_ne_nil (by simp)
    rw [List.cons_append, hnext, chompAll, ← hnext, chomp_of_getLast? (h line List.mem_cons_self),
      ih fun other hother => h other (List.mem_cons_of_mem _ hother)]

theorem lines_flatMap {ls : List (List Char)} (hfeed : ∀ line ∈ ls, '\n' ∉ line)
    (hreturn : ∀ line ∈ ls, line.getLast? ≠ some '\r') :
    lines (ls.flatMap fun line => line ++ ['\n']) = ls := by
  rw [lines, splitOn_eq_splitOnP, splitOnP_flatMap_lines hfeed, chompAll_concat_nil hreturn]

end Tariff.Text

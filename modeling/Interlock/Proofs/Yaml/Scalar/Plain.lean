import Interlock.Yaml.Scalar.Plain
import Interlock.Proofs.Document
import Interlock.Proofs.Yaml.Place

/-!
# Plain scalars written and scanned

A text that may be written plain is scanned as it stands (`scanPlain?_plain`): no colon in it ends a
word and no number sign starts one, so the scanner goes on to the end of the line, and the next line
is outdented. The white space before a character counts once the character has come, and a text that
is written plain ends with no space.
-/

namespace Interlock.Yaml

open Scalar Document

variable {c p : Char} {cs rest : List Char} {more : List Cell} {line column indent : ℕ} {g : Gap}

/-! ## Words -/

lemma endsWord_cellsFrom : endsWord (cellsFrom line column cs) = startsBlank cs := by
  cases cs
  all_goals rfl

/-- Where a text goes on with a line end, a word ends as it does in the text alone. -/
lemma startsBlank_line : startsBlank (cs ++ '\n' :: rest) = startsBlank cs := by
  cases cs
  all_goals rfl

lemma isLeadSign_line : isLeadSign c (cs ++ '\n' :: rest) = isLeadSign c cs := by
  rw [isLeadSign, startsBlank_line, isLeadSign]

/-- A cell away from the start of its line is no mark. -/
lemma isMark_eq_false {sign : Char} {c : Cell} (h : c.column ≠ 0 ∨ c.char ≠ sign) :
    isMark sign (c :: more) = false := by
  rcases more with _ | ⟨d, _ | ⟨e, more⟩⟩
  · rfl
  · rfl
  · rcases h with column | char
    · simp [isMark, column]
    · simp [isMark, char]

lemma isDocumentMark_eq_false {c : Cell} (h : c.column ≠ 0 ∨ c.char ≠ '-' ∧ c.char ≠ '.') :
    isDocumentMark (c :: more) = false := by
  rw [isDocumentMark, isMark_eq_false (h.imp_right And.left),
    isMark_eq_false (h.imp_right And.right)]
  rfl

/-! ## Steps of the scanner -/

lemma isLooseColon_block {c : Cell} : isLooseColon false c more = false := by
  cases more with
  | nil => rfl
  | cons d more => rfl

lemma endsPlain_block {c : Cell} :
    endsPlain false c more = (decide (c.char = ':') && endsWord more) := by
  rw [endsPlain, Bool.false_and, Bool.or_false]

lemma scanPlain?_space : scanPlain? false indent g (⟨' ', line, column⟩ :: more) =
    scanPlain? false indent (g.addBlank ' ') more := by
  have blank : (⟨' ', line, column⟩ : Cell).blank := rfl
  rw [scanPlain?, if_pos blank, if_neg (by simp)]

/-- A character that the scalar does not end with. -/
lemma scanPlain?_char (blank : isBlank c = false) (broken : isBreak c = false)
    (inside : g.isOpen → endsAfterGap false indent ⟨c, line, column⟩ more = false)
    (word : c = ':' → endsWord more = false) :
    scanPlain? false indent g (⟨c, line, column⟩ :: more) =
      (scanPlain? false indent {} more).map (.after (g.text ++ [c])) := by
  have stays : (g.isOpen && endsAfterGap false indent ⟨c, line, column⟩ more) = false := by
    cases h : g.isOpen
    · rfl
    · exact inside h
  have loose : endsPlain false ⟨c, line, column⟩ more = false := by
    rw [endsPlain_block]
    by_cases colon : c = ':'
    · rw [word colon, Bool.and_false]
    · rw [decide_eq_false colon, Bool.false_and]
  rw [scanPlain?, Cell.blank, blank, Cell.lineEnd, broken, stays, isLooseColon_block, loose]
  rfl

/-- After the end of its line a scalar ends with the next line, if that is outdented. -/
lemma scanPlain?_outdented (broken : g.broken) (outside : Outdented indent rest) :
    scanPlain? false indent g (cellsFrom line 0 rest) = some ⟨[], true, lineCells line rest⟩ := by
  have pass : ∀ column < margin rest, ∀ more,
      scanPlain? false indent g (⟨' ', line, column⟩ :: more) = scanPlain? false indent g more := by
    intro column _ more
    rw [scanPlain?_space, Gap.addBlank, if_pos broken]
  have opened : g.isOpen := by rw [Gap.isOpen, broken, Bool.true_or]
  rw [apply_lineCells pass, lineCells]
  obtain ⟨left, starts⟩ := outside
  cases h : body rest with
  | nil => rw [cellsFrom, scanPlain?, broken]
  | cons c more =>
    obtain ⟨blank, next⟩ := starts c (by rw [h]; rfl)
    rw [cellsFrom_cons next, scanPlain?, Cell.blank, blank, Cell.lineEnd, next, opened,
      endsAfterGap, decide_eq_true left, broken]
    rfl

/-! ## Texts -/

/-- The characters go on with a plain text after its character `p`. -/
structure GoesOn (p : Char) (cs : List Char) : Prop where
  single : ∀ c ∈ cs, isBreak c = false
  printable : ∀ c ∈ cs, isPrintable c
  inner : hasInnerSign (p :: cs) = false
  last : (p :: cs).getLast? ≠ some ' '

namespace GoesOn

lemma next (h : GoesOn p (c :: cs)) : GoesOn c cs where
  single := (List.forall_mem_cons.mp h.single).2
  printable := (List.forall_mem_cons.mp h.printable).2
  inner := (Bool.or_eq_false_iff.mp h.inner).2
  last := by
    have last := h.last
    rwa [List.getLast?_cons_cons] at last

/-- No colon ends a word. -/
lemma colon (h : GoesOn p (c :: cs)) (sign : c = ':') : startsBlank cs = false := by
  have inner := h.inner
  subst sign
  simpa [hasInnerSign] using (Bool.or_eq_false_iff.mp (Bool.or_eq_false_iff.mp inner).1).1

/-- No number sign comes after a space. -/
lemma number (h : GoesOn ' ' (c :: cs)) : c ≠ '#' := by
  rintro rfl
  exact absurd h.inner (by simp [hasInnerSign, isBlank])

end GoesOn

/-- The rest of a plain text, after a character of it and some spaces. -/
lemma scanPlain?_rest (text : GoesOn p cs) (outside : Outdented indent rest)
    (inside : indent ≤ column) (away : 0 < column) (blanks : List Char)
    (spaces : blanks ≠ [] → p = ' ') :
    scanPlain? false indent { blanks } (cellsFrom line column (cs ++ '\n' :: rest)) =
      some ⟨blanks ++ cs, true, lineCells (line + 1) rest⟩ := by
  induction cs generalizing p blanks column with
  | nil =>
    have unspaced : blanks = [] := by
      by_contra spaced
      exact text.last (congrArg _ (spaces spaced))
    subst unspaced
    rw [List.nil_append, cellsFrom_break (by decide), scanPlain?]
    exact scanPlain?_outdented rfl outside
  | cons c cs ih =>
    have unbroken := text.single c List.mem_cons_self
    have later := ih text.next (Nat.le_succ_of_le inside) (Nat.succ_pos column)
    rw [List.cons_append, cellsFrom_cons unbroken]
    by_cases space : c = ' '
    · subst space
      rw [scanPlain?_space]
      have read := later (blanks ++ [' ']) fun _ => rfl
      rw [List.append_assoc] at read
      exact read
    · have blank : isBlank c = false := by
        rw [isBlank_of_printable (text.printable c List.mem_cons_self), decide_eq_false space]
      rw [scanPlain?_char blank unbroken, later [] fun h => absurd rfl h]
      · exact congrArg some (congrArg (Scanned.mk · _ _) (List.append_assoc blanks [c] cs))
      · intro gap
        have left : ¬ column < indent := Nat.not_lt.mpr inside
        have sign : c ≠ '#' := by
          rintro rfl
          have after : p = ' ' := spaces (by simpa [Gap.isOpen] using gap)
          exact (after ▸ text).number rfl
        rw [endsAfterGap, isDocumentMark_eq_false (.inl (Nat.ne_of_gt away)), decide_eq_false left,
          decide_eq_false sign]
        rfl
      · intro sign
        rw [endsWord_cellsFrom, startsBlank_line]
        exact text.colon sign

/-- A text that may be written plain goes on after its first character, which is no space. -/
lemma GoesOn.of_isPlain (h : isPlain (c :: cs)) : GoesOn c cs ∧ isPrintable c ∧ isBreak c = false ∧
    isBlank c = false ∧ isLeadSign c cs = false := by
  simp only [isPlain, Bool.not_eq_true', Bool.or_eq_false_iff] at h
  obtain ⟨⟨⟨⟨⟨⟨⟨single, space⟩, last⟩, printable⟩, lead⟩, inner⟩, -⟩, -⟩ := h
  have single : ∀ d ∈ c :: cs, isBreak d = false := by simpa using single
  have printable : ∀ d ∈ c :: cs, isPrintable d := by simpa using printable
  have first := printable c List.mem_cons_self
  refine ⟨⟨?_, ?_, inner, by simpa using last⟩, first, single c List.mem_cons_self,
    (isBlank_of_printable first).trans space, lead⟩
  · exact fun d hd => single d (List.mem_cons_of_mem c hd)
  · exact fun d hd => printable d (List.mem_cons_of_mem c hd)

/-- A text that may be written plain is scanned as it stands. -/
theorem scanPlain?_plain (h : isPlain cs) (outside : Outdented indent rest)
    (inside : indent ≤ column) :
    scanPlain? false indent {} (cellsFrom line column (cs ++ '\n' :: rest)) =
      some ⟨cs, true, lineCells (line + 1) rest⟩ := by
  cases cs with
  | nil => exact absurd h (by decide)
  | cons c cs =>
    obtain ⟨text, -, unbroken, blank, lead⟩ := GoesOn.of_isPlain h
    have later : scanPlain? false indent {}
        (cellsFrom line (column + 1) (cs ++ '\n' :: rest)) = _ :=
      scanPlain?_rest text outside (Nat.le_succ_of_le inside) (Nat.succ_pos column) []
        fun h => absurd rfl h
    rw [List.cons_append, cellsFrom_cons unbroken, scanPlain?_char blank unbroken, later]
    · rfl
    · exact fun gap => absurd gap (by decide)
    · intro sign
      rw [endsWord_cellsFrom, startsBlank_line]
      subst sign
      simpa [isLeadSign] using lead

/-! ## Names and numbers -/

/-- No character of a word is one of these. -/
lemma not_mem_of_word {signs : List Char} (h : isWordChar c) (signs_h : signs.all (!isWordChar ·)) :
    c ∉ signs := by
  intro hc
  have sign := List.all_eq_true.mp signs_h c hc
  rw [h] at sign
  exact absurd sign (by decide)

lemma isBlank_of_word (h : isWordChar c) : isBlank c = false := by
  have other : c ∉ [' ', '\t'] := not_mem_of_word h (by decide)
  simpa [isBlank] using other

lemma isBreak_of_word (h : isWordChar c) : isBreak c = false := by
  have other : c ∉ ['\n', '\r', '\x85', '\u2028', '\u2029'] := not_mem_of_word h (by decide)
  simpa [isBreak, and_assoc] using other

lemma isPrintable_of_word (h : isWordChar c) : isPrintable c := by
  simp only [isWordChar, Char.isDigit, isPrintable, Bool.or_eq_true, Bool.and_eq_true,
    decide_eq_true_eq, Char.le_def, UInt32.le_iff_toNat_le] at h ⊢
  rcases h with h | rfl
  · refine .inl (.inr ?_)
    simp only [Char.reduceVal, UInt32.reduceToNat] at h ⊢
    omega
  · decide

lemma isLeadSign_of_word (h : isWordChar c) : isLeadSign c cs = false := by
  have lead : c ∉ ['#', ',', '[', ']', '\x7b', '\x7d', '&', '*', '!', '|', '>', '\'', '"', '%',
      '@', '\x60'] :=
    not_mem_of_word h (by decide)
  have sign : c ∉ ['?', ':', '-'] := not_mem_of_word h (by decide)
  rw [isLeadSign, decide_eq_false lead, decide_eq_false sign]
  rfl

lemma hasInnerSign_of_word (h : cs.all isWordChar) : hasInnerSign cs = false := by
  have words := List.all_eq_true.mp h
  clear h
  induction cs with
  | nil => rfl
  | cons c cs ih =>
    cases cs with
    | nil => rfl
    | cons d cs =>
      obtain ⟨-, words⟩ := List.forall_mem_cons.mp words
      have sign : d ∉ [':', '#'] := not_mem_of_word (words d List.mem_cons_self) (by decide)
      obtain ⟨colon, number⟩ := not_or.mp (mt List.mem_pair.mpr sign)
      rw [hasInnerSign, ih words, decide_eq_false colon, decide_eq_false number]
      rfl

/-- A word may be written plain. -/
lemma isPlain_of_word (h : IsWord cs) : isPlain cs := by
  obtain ⟨nonempty, all⟩ := h
  have words := List.all_eq_true.mp all
  cases cs with
  | nil => exact absurd rfl nonempty
  | cons c cs =>
    have first := words c List.mem_cons_self
    have single : (c :: cs).any isBreak = false := by
      rw [List.any_eq_false]
      exact fun d hd => Bool.eq_false_iff.mp (isBreak_of_word (words d hd))
    have printable : (c :: cs).any (!isPrintable ·) = false := by
      rw [List.any_eq_false]
      exact fun d hd => by simp [isPrintable_of_word (words d hd)]
    have lead : c ∉ [' ', '-', '.'] := not_mem_of_word first (by decide)
    have last : (c :: cs).getLast? ≠ some ' ' := fun h =>
      absurd (words ' ' (List.mem_of_getLast? h)) (by decide)
    simp only [List.mem_cons, List.not_mem_nil, or_false, not_or] at lead
    obtain ⟨space, dash, dot⟩ := lead
    have dashes : "---".toList.isPrefixOf (c :: cs) = false := by
      simp [List.isPrefixOf, Ne.symm dash]
    have dots : "...".toList.isPrefixOf (c :: cs) = false := by
      simp [List.isPrefixOf, Ne.symm dot]
    rw [Scalar.isPlain, single, decide_eq_false space, decide_eq_false last, printable,
      isLeadSign_of_word first, hasInnerSign_of_word all, dashes, dots]
    rfl

/-- A name is scanned up to the colon after it. -/
theorem scanPlain?_name (h : cs.all isWordChar) (ends : isBlank c ∨ isBreak c) :
    scanPlain? false indent {} (cellsFrom line column (cs ++ ':' :: c :: rest)) =
      some ⟨cs, false, cellsFrom line (column + cs.length) (':' :: c :: rest)⟩ := by
  have words := List.all_eq_true.mp h
  clear h
  induction cs generalizing column with
  | nil =>
    have word : endsWord (cellsFrom line (column + 1) (c :: rest)) := by
      rw [endsWord_cellsFrom, startsBlank]
      exact Bool.or_eq_true _ _ ▸ ends
    rw [List.nil_append, cellsFrom_cons (by decide), scanPlain?, endsPlain_block, word,
      isLooseColon_block]
    rfl
  | cons d cs ih =>
    obtain ⟨first, words⟩ := List.forall_mem_cons.mp words
    have unbroken := isBreak_of_word first
    rw [List.cons_append, cellsFrom_cons unbroken, scanPlain?_char (isBlank_of_word first) unbroken,
      ih words]
    · rw [List.length_cons, Nat.add_right_comm, Nat.add_assoc]
      rfl
    · exact fun gap => absurd gap (by decide)
    · rintro rfl
      exact absurd first (by decide)

end Interlock.Yaml

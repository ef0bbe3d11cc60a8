import Interlock.Yaml.Writer
import Mathlib.Data.List.Basic

/-!
# Places of written characters

A written text has no character but printable ones, so its cells are its characters, each with its
place (`cells?_printable`). Where a line starts, the spaces before its first character matter to no
scanner (`apply_lineCells`): what is left is `lineCells`, the cells from that character on. A text
that goes on after a scalar is `Outdented`: its first line starts further to the left than the lines
of the scalar.
-/

namespace Interlock.Yaml

variable {c : Char} {cs text rest : List Char} {line column indent : ℕ}

/-! ## Characters -/

lemma isAllowed_of_printable (h : Scalar.isPrintable c) : isAllowed c := by
  simp only [Scalar.isPrintable, isAllowed, Bool.or_eq_true, Bool.and_eq_true,
    decide_eq_true_eq] at h ⊢
  grind

/-- A printable character is no line end of the kinds that are made one. -/
lemma ne_joined_of_printable (h : Scalar.isPrintable c) : c ≠ '\r' ∧ c ≠ '\x85' := by
  constructor
  all_goals
    rintro rfl
    exact absurd h (by decide)

/-- The only printable blank is the space. -/
lemma isBlank_of_printable (h : Scalar.isPrintable c) : isBlank c = decide (c = ' ') := by
  have tab : c ≠ '\t' := by
    rintro rfl
    exact absurd h (by decide)
  rw [isBlank, decide_eq_false tab, Bool.or_false]

lemma joinLineEnds_printable (h : ∀ c ∈ text, Scalar.isPrintable c) : joinLineEnds text = text := by
  induction text with
  | nil => rfl
  | cons c text ih =>
    obtain ⟨first, rest⟩ := List.forall_mem_cons.mp h
    obtain ⟨feed, next⟩ := ne_joined_of_printable first
    rw [joinLineEnds, if_neg (not_or_intro feed next), ih rest]
    rintro rest rfl
    exact absurd rfl feed

/-- The cells of a text whose characters are all printable. -/
lemma cells?_printable (h : ∀ c ∈ text, Scalar.isPrintable c) :
    cells? text = some (cellsFrom 0 0 text) := by
  rw [cells?, if_pos (List.all_eq_true.mpr fun c hc => isAllowed_of_printable (h c hc)),
    joinLineEnds_printable h]

/-! ## Cells -/

lemma cellsFrom_cons (h : isBreak c = false) :
    cellsFrom line column (c :: rest) = ⟨c, line, column⟩ :: cellsFrom line (column + 1) rest := by
  rw [cellsFrom, h]
  rfl

lemma cellsFrom_break (h : isBreak c) :
    cellsFrom line column (c :: rest) = ⟨c, line, column⟩ :: cellsFrom (line + 1) 0 rest := by
  rw [cellsFrom, h]
  rfl

@[simp] lemma length_cellsFrom : (cellsFrom line column text).length = text.length := by
  induction text generalizing line column with
  | nil => rfl
  | cons c text ih =>
    rw [cellsFrom]
    split_ifs
    · exact congrArg (· + 1) ih
    · exact congrArg (· + 1) ih

/-! ## Lines -/

/-- The spaces at the start of a line. -/
def margin (text : List Char) : ℕ := (text.takeWhile (· = ' ')).length

/-- A line from its first character on that is no space, and the lines after it. -/
def body (text : List Char) : List Char := text.dropWhile (· = ' ')

/-- The cells of a text that starts a line, from its first character on that is no space. -/
def lineCells (line : ℕ) (text : List Char) : List Cell := cellsFrom line (margin text) (body text)

@[simp] lemma lineCells_nil : lineCells line [] = [] := rfl

lemma margin_indented (h : c ≠ ' ') : margin (List.replicate indent ' ' ++ c :: rest) = indent := by
  rw [margin, List.takeWhile_append_of_pos (by simp), List.takeWhile_cons_of_neg (by simpa using h)]
  simp

lemma body_indented (h : c ≠ ' ') : body (List.replicate indent ' ' ++ c :: rest) = c :: rest := by
  rw [body, List.dropWhile_append_of_pos (by simp), List.dropWhile_cons_of_neg (by simpa using h)]

lemma lineCells_indented (h : c ≠ ' ') :
    lineCells line (List.replicate indent ' ' ++ c :: rest) =
      cellsFrom line indent (c :: rest) := by
  rw [lineCells, margin_indented h, body_indented h]

lemma length_lineCells_le : (lineCells line text).length ≤ text.length := by
  rw [lineCells, length_cellsFrom]
  exact (List.dropWhile_suffix _).length_le

/-- What passes over the spaces at the start of a line sees the line from its first other character
on. -/
lemma apply_lineCells {α : Type} {f : List Cell → α}
    (h : ∀ column < margin text, ∀ cs, f (⟨' ', line, column⟩ :: cs) = f cs) :
    f (cellsFrom line 0 text) = f (lineCells line text) := by
  -- some of the spaces have been passed over
  suffices later : ∀ start,
      (∀ column < start + margin text, ∀ cs, f (⟨' ', line, column⟩ :: cs) = f cs) →
      f (cellsFrom line start text) = f (cellsFrom line (start + margin text) (body text)) by
    rw [later 0 (by simpa using h), Nat.zero_add, lineCells]
  clear h
  induction text with
  | nil => exact fun start _ => rfl
  | cons c text ih =>
    intro start h
    by_cases space : c = ' '
    · subst space
      have longer : margin (' ' :: text) = margin text + 1 := rfl
      rw [longer] at h ⊢
      rw [cellsFrom_cons (by decide), h start (by omega), ih (start + 1) fun k hk => h k (by omega)]
      congr 2
      omega
    · have flush : margin (c :: text) = 0 := by simp [margin, space]
      have all : body (c :: text) = c :: text := by simp [body, space]
      rw [flush, all, Nat.add_zero]

/-- The indentation of a line, if one starts here. -/
def lead (indent : ℕ) (broken : Bool) : List Char :=
  if broken then List.replicate indent ' ' else []

lemma indentLines_break {write : Char → List Char} {broken : Bool} (h : isBreak c) :
    Scalar.indentLines indent write broken (c :: cs) =
      c :: Scalar.indentLines indent write true cs := by
  rw [Scalar.indentLines, if_pos h]

lemma indentLines_char {write : Char → List Char} {broken : Bool} (h : isBreak c = false) :
    Scalar.indentLines indent write broken (c :: cs) =
      lead indent broken ++ (write c ++ Scalar.indentLines indent write false cs) := by
  rw [Scalar.indentLines, if_neg (Bool.eq_false_iff.mp h), List.append_assoc]
  rfl

/-- The text starts a line further to the left than `indent`, or is empty. -/
structure Outdented (indent : ℕ) (text : List Char) : Prop where
  margin : margin text < indent
  starts : ∀ c ∈ (body text).head?, isBlank c = false ∧ isBreak c = false

lemma Outdented.indented {width : ℕ} (h : width < indent) (blank : isBlank c = false)
    (broken : isBreak c = false) :
    Outdented indent (List.replicate width ' ' ++ c :: rest) := by
  have space : c ≠ ' ' := by
    rintro rfl
    exact absurd blank (by decide)
  constructor
  · rw [margin_indented space]
    exact h
  · rw [body_indented space]
    rintro d ⟨⟩
    exact ⟨blank, broken⟩

end Interlock.Yaml

import Interlock.Proofs.Yaml.Scalar.Quoted
import Interlock.Proofs.Yaml.Scalar.Block

/-!
# Written scalars

The style of a text says what the text is like (`Styled`), which is what each of the scanners needs.
In every style the characters that are written are printable (`isPrintable_write`): where a text has
others, it goes between double quotes, and there they are escaped.
-/

namespace Interlock.Yaml.Scalar

variable {c : Char} {cs rest : List Char} {indent : ℕ}

/-- A text that is written in a style. -/
inductive Styled (cs : List Char) : Style → Prop
  | plain (clear : Resolution.isAmbiguous cs = false) (single : isPlain cs) : Styled cs .plain
  | singleQuoted (feed : '\n' ∉ cs) (fits : isSingleQuoted cs) : Styled cs .singleQuoted
  | doubleQuoted : Styled cs .doubleQuoted
  | literal (feed : '\n' ∈ cs) (fits : isLiteral cs) : Styled cs .literal

lemma styled_style : Styled cs (style cs) := by
  rw [style]
  split_ifs with feed literal plain single
  · exact .literal feed literal
  · exact .doubleQuoted
  · obtain ⟨clear, single⟩ := Bool.and_eq_true_iff.mp plain
    exact .plain (Bool.not_eq_true' _ ▸ clear) single
  · exact .singleQuoted feed single
  · exact .doubleQuoted

lemma printable_of_needsEscapes (h : needsEscapes cs = false) : ∀ c ∈ cs, isPrintable c := by
  simpa using (Bool.or_eq_false_iff.mp h).1

lemma printable_of_isLiteral (h : isLiteral cs) : ∀ c ∈ cs, isPrintable c := by
  rw [isLiteral, Bool.not_eq_true', Bool.or_eq_false_iff] at h
  exact printable_of_needsEscapes h.1

lemma printable_of_isSingleQuoted (h : isSingleQuoted cs) : ∀ c ∈ cs, isPrintable c := by
  rw [isSingleQuoted, Bool.not_eq_true', Bool.or_eq_false_iff] at h
  exact printable_of_needsEscapes h.1

lemma printable_of_isPlain (h : isPlain cs) : ∀ c ∈ cs, isPrintable c := by
  cases cs with
  | nil => exact nofun
  | cons c cs =>
    obtain ⟨text, first, -⟩ := GoesOn.of_isPlain h
    exact List.forall_mem_cons.mpr ⟨first, text.printable⟩

/-! ## Characters that are written -/

lemma printable_spaces : ∀ d ∈ List.replicate indent ' ', isPrintable d := by
  rintro d hd
  rw [List.eq_of_mem_replicate hd]
  decide

lemma printable_hexDigits {width n : ℕ} : ∀ d ∈ hexDigits width n, isPrintable d := by
  intro d hd
  obtain ⟨k, small, rfl⟩ := hexDigits_mem hd
  have printable : ∀ k < 16, isPrintable k.digitChar.toUpper := by decide
  exact printable k small

/-- An escape has none but printable characters, whatever it stands for. -/
lemma printable_escape : ∀ d ∈ escape c, isPrintable d := by
  rw [escape]
  cases named : escapeLetter? c with
  | some letter =>
    have printable : isPrintable letter :=
      of_lookup (P := fun _ l => isPrintable l) (by decide) named
    exact List.forall_mem_cons.mpr ⟨by decide, List.forall_mem_singleton.mpr printable⟩
  | none =>
    dsimp only
    split_ifs with printable small
    · exact List.forall_mem_singleton.mpr printable
    · exact List.forall_mem_cons.mpr
        ⟨by decide, List.forall_mem_cons.mpr ⟨by decide, printable_hexDigits⟩⟩
    · exact List.forall_mem_cons.mpr
        ⟨by decide, List.forall_mem_cons.mpr ⟨by decide, printable_hexDigits⟩⟩

lemma printable_indentLines {write : Char → List Char} {broken : Bool}
    (printable : ∀ c ∈ cs, isPrintable c) (written : ∀ c ∈ cs, ∀ d ∈ write c, isPrintable d) :
    ∀ d ∈ indentLines indent write broken cs, isPrintable d := by
  induction cs generalizing broken with
  | nil => exact nofun
  | cons c cs ih =>
    obtain ⟨first, printable⟩ := List.forall_mem_cons.mp printable
    obtain ⟨one, written⟩ := List.forall_mem_cons.mp written
    rw [indentLines]
    split_ifs
    · exact List.forall_mem_cons.mpr ⟨first, ih printable written⟩
    · exact List.forall_mem_append.mpr
        ⟨List.forall_mem_append.mpr ⟨printable_spaces, one⟩, ih printable written⟩
    · exact List.forall_mem_append.mpr ⟨one, ih printable written⟩

lemma printable_writeSingle (printable : ∀ c ∈ cs, isPrintable c) :
    ∀ d ∈ writeSingle indent cs, isPrintable d := by
  have quoted : ∀ c ∈ cs, ∀ d ∈ doubleQuote c, isPrintable d := by
    intro c hc
    rw [doubleQuote]
    split_ifs
    · exact List.all_eq_true.mp (by decide)
    · exact List.forall_mem_singleton.mpr (printable c hc)
  have lines := @printable_indentLines cs indent doubleQuote false printable quoted
  rw [writeSingle, List.cons_append, List.cons_append]
  refine List.forall_mem_cons.mpr
    ⟨by decide, List.forall_mem_append.mpr ⟨List.forall_mem_append.mpr ⟨lines, ?_⟩,
    List.forall_mem_singleton.mpr (by decide)⟩⟩
  split_ifs
  · exact printable_spaces
  · exact List.forall_mem_nil _

lemma printable_writeDouble : ∀ d ∈ writeDouble cs, isPrintable d := by
  refine List.forall_mem_append.mpr ⟨List.forall_mem_cons.mpr ⟨by decide, ?_⟩,
    List.forall_mem_singleton.mpr (by decide)⟩
  intro d hd
  obtain ⟨c, -, hc⟩ := List.mem_flatMap.mp hd
  exact printable_escape d hc

lemma printable_chompSign : ∀ d ∈ chompSign cs, isPrintable d := by
  refine List.all_eq_true.mp ?_
  rcases List.eq_nil_or_concat' cs with rfl | ⟨init, c, rfl⟩
  · decide
  · rw [chompSign_concat]
    split_ifs
    all_goals decide

lemma printable_writeLiteral (printable : ∀ c ∈ cs, isPrintable c) :
    ∀ d ∈ writeLiteral indent cs, isPrintable d := by
  have digit : ∀ d ∈ hint cs, isPrintable d := by
    rw [hint]
    split_ifs
    · exact List.all_eq_true.mp (by decide)
    · exact List.forall_mem_nil _
  have lines := @printable_indentLines cs indent ([·]) true printable fun c hc =>
    List.forall_mem_singleton.mpr (printable c hc)
  rw [writeLiteral_eq]
  exact List.forall_mem_cons.mpr ⟨by decide, List.forall_mem_append.mpr ⟨digit,
    List.forall_mem_append.mpr ⟨printable_chompSign, List.forall_mem_cons.mpr ⟨by decide, lines⟩⟩⟩⟩

/-- Every character that is written is printable. -/
theorem isPrintable_write : ∀ d ∈ write indent cs, isPrintable d := by
  have styled := @styled_style cs
  rw [write]
  generalize style cs = style at styled ⊢
  have feed : ∀ d ∈ ['\n'], isPrintable d := List.forall_mem_singleton.mpr (by decide)
  cases styled with
  | plain _ single => exact List.forall_mem_append.mpr ⟨printable_of_isPlain single, feed⟩
  | singleQuoted _ fits =>
    exact List.forall_mem_append.mpr
      ⟨printable_writeSingle (printable_of_isSingleQuoted fits), feed⟩
  | doubleQuoted => exact List.forall_mem_append.mpr ⟨printable_writeDouble, feed⟩
  | literal _ fits =>
    have lines := @printable_writeLiteral cs indent (printable_of_isLiteral fits)
    dsimp only
    split_ifs
    · exact lines
    · exact List.forall_mem_append.mpr ⟨lines, feed⟩

end Interlock.Yaml.Scalar

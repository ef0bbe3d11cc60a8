import Interlock.Yaml.Lexer
import Interlock.Proofs.Yaml.Scalar.Written

/-!
# Tokens of written lines

A file is written line by line, and each kind of line adds its tokens: a name with a value after it,
a name with the lines of its value below it, and an item. `Lexes` says what the tokens of a text are
once the lexer gets to the start of a line, and `Follows` the same after the sign of an item or of a
value. Each line is lexed with whatever text comes after it, so a file is lexed from its last line
to its first.
-/

namespace Interlock.Yaml

open Scalar Document

variable {c d : Char} {cs name text rest : List Char} {more cells cells' : List Cell}
  {line column col : ℕ}
  {indents : List ℕ} {key : Option Candidate} {tokens out : List Token} {allowed : Bool}

namespace Lexer

variable {l l' : Lexer}

/-! ## Steps -/

/-- The character is no white space and starts no comment. -/
structure Starts (c : Char) : Prop where
  blank : isBlank c = false
  unbroken : isBreak c = false
  comment : c ≠ '#'
  order : c ≠ '\ufeff'

instance : DecidablePred Starts := fun c =>
  decidable_of_iff (isBlank c = false ∧ isBreak c = false ∧ c ≠ '#' ∧ c ≠ '\ufeff')
    ⟨fun h => ⟨h.1, h.2.1, h.2.2.1, h.2.2.2⟩, fun h => ⟨h.1, h.2, h.3, h.4⟩⟩

lemma Starts.of_printable (printable : isPrintable c) (unbroken : isBreak c = false)
    (blank : isBlank c = false) (number : c ≠ '#') : Starts c where
  blank := blank
  unbroken := unbroken
  comment := number
  order := by
    rintro rfl
    exact absurd printable (by decide)

lemma skip_starts {flow : Bool} (h : Starts c) :
    skip flow allowed false (⟨c, line, column⟩ :: more) = (allowed, ⟨c, line, column⟩ :: more) := by
  obtain ⟨space, tab⟩ := Bool.or_eq_false_iff.mp h.blank
  rw [skip, Cell.lineEnd, h.unbroken, space, tab, decide_eq_false h.order]
  exact if_neg h.comment

/-- A token comes, and the lexer goes on after it. -/
lemma run?_step {c : Cell} {l₁ l₂ : Lexer}
    (skipped : skip l.flow l.keyAllowed false cells = (allowed, c :: more))
    (late : (l.allowKey allowed).dropLate? c = some l₁)
    (token : (l₁.closeBlocks c.column).token? c more = some (l₂, cells'))
    (shorter : cells'.length < cells.length) : l.run? cells = l₂.run? cells' := by
  rw [run?, skipped]
  simp only [late, token, bind, Option.bind, if_pos shorter]

/-- White space before a token does not matter. -/
lemma run?_of_skip
    (agree : skip l.flow l.keyAllowed false cells = skip l'.flow l'.keyAllowed false cells')
    (same : ∀ allowed, l.allowKey allowed = l'.allowKey allowed)
    (shorter : cells'.length ≤ cells.length)
    (run : l'.run? cells' = some out) : l.run? cells = some out := by
  -- only the check that the text gets shorter sees the white space
  rw [run?] at run ⊢
  rw [agree]
  generalize skip l'.flow l'.keyAllowed false cells' = skipped at run ⊢
  rcases skipped with ⟨allowed, _ | ⟨c, more⟩⟩
  · rw [← run]
    exact congrArg finish? (same allowed)
  · simp only [same, Option.bind_eq_bind, Option.bind_eq_some_iff] at run ⊢
    obtain ⟨l₁, late, ⟨l₂, left⟩, token, run⟩ := run
    refine ⟨l₁, late, (l₂, left), token, ?_⟩
    split_ifs at run with fits
    rw [if_pos (Nat.lt_of_lt_of_le fits shorter)]
    exact run

/-- A text in the innermost block, or in a new one inside of it, closes no block. -/
lemma closeBlocks_eq (inside : ∀ i ∈ l.indents.head?, i ≤ column) : l.closeBlocks column = l := by
  have inner : (l.indents.takeWhile (column < ·)).length = 0 := by
    cases h : l.indents with
    | nil => rfl
    | cons i indents =>
      have left := inside i (by rw [h]; rfl)
      rw [List.takeWhile_cons_of_neg (by simpa using left)]
      rfl
  rw [closeBlocks, inner, closeMany]
  split_ifs
  · rfl
  · rfl

/-- A text to the left of the innermost block closes it. -/
lemma closeBlocks_left (left : column < col) :
    closeBlocks { indents := col :: indents, key, keyAllowed := allowed, tokens } column =
      closeBlocks { indents, key, keyAllowed := allowed, tokens := .blockEnd :: tokens }
        column := by
  have shorter : (col :: indents).takeWhile (column < ·) = col :: indents.takeWhile (column < ·) :=
    List.takeWhile_cons_of_pos (by simpa using left)
  simp only [closeBlocks, closeMany, shorter, List.length_cons, List.drop_succ_cons,
    List.replicate_succ', List.append_assoc]
  rfl

lemma closeAll_inner :
    closeAll { indents := col :: indents, key, keyAllowed := allowed, tokens } =
      closeAll { indents, key, keyAllowed := allowed, tokens := .blockEnd :: tokens } := by
  simp only [closeAll, closeMany, List.length_cons, List.drop_succ_cons, List.replicate_succ',
    List.append_assoc]
  rfl

lemma openBlock_open {t : Token} (h : l.indents.head? = some column) :
    l.openBlock column t = l := by
  have closed : l.opens column = false := by simp [opens, h]
  rw [openBlock, closed]
  rfl

/-- A candidate that need not be a key is not given up in vain. -/
lemma any_late {c : Cell} (optional : ∀ k ∈ key, k.required = false) :
    key.any (fun k => k.isLate c && k.required) = false := by
  cases key with
  | none => rfl
  | some k =>
    have free := optional k rfl
    simp [free]

lemma optional_filter {p : Candidate → Bool} (optional : ∀ k ∈ key, k.required = false) :
    ∀ k ∈ key.filter p, k.required = false :=
  fun k hk => optional k (Option.mem_filter_iff.mp hk).1

lemma dropLate?_optional {c : Cell} (optional : ∀ k ∈ key, k.required = false) :
    dropLate? { indents, key, keyAllowed := allowed, tokens } c =
      some { indents, key := key.filter (!·.isLate c), keyAllowed := allowed, tokens } := by
  rw [dropLate?, if_neg (by simp [any_late optional])]
  rfl

lemma dropLate?_early {k : Candidate} {c : Cell} (early : k.isLate c = false) :
    dropLate? { indents, key := some k, keyAllowed := allowed, tokens } c =
      some { indents, key := some k, keyAllowed := allowed, tokens } := by
  simp [dropLate?, early]

lemma dropKey?_optional (optional : ∀ k ∈ key, k.required = false) :
    dropKey? { indents, key, keyAllowed := allowed, tokens } =
      some { indents, keyAllowed := allowed, tokens } := by
  cases key with
  | none => rfl
  | some k =>
    have free := optional k rfl
    rw [dropKey?, Option.any_some, free]
    rfl

/-- A token of the innermost block starts here. -/
lemma run?_token {l₁ l₂ : Lexer} (starts : Starts c)
    (late : l.dropLate? ⟨c, line, column⟩ = some l₁) (inside : ∀ i ∈ l₁.indents.head?, i ≤ column)
    (token : l₁.token? ⟨c, line, column⟩ (cellsFrom line (column + 1) text) = some (l₂, cells'))
    (shorter : cells'.length ≤ text.length) :
    l.run? (cellsFrom line column (c :: text)) = l₂.run? cells' := by
  have skipped : skip l.flow l.keyAllowed false (cellsFrom line column (c :: text)) =
      (l.keyAllowed, ⟨c, line, column⟩ :: cellsFrom line (column + 1) text) := by
    rw [cellsFrom_cons starts.unbroken]
    exact skip_starts starts
  refine run?_step skipped late ?_ ?_
  · rw [closeBlocks_eq inside]
    exact token
  · rw [length_cellsFrom]
    exact Nat.lt_succ_of_le shorter

/-! ## Plain scalars -/

/-- No sign stands where a plain scalar starts, and a sign that ends no word is none. -/
lemma startsPlain_of_lead (blank : isBlank c = false) (unbroken : isBreak c = false)
    (lead : isLeadSign c text = false) :
    startsPlain false ⟨c, line, column⟩ (cellsFrom line (column + 1) text) := by
  simp only [isLeadSign, Bool.or_eq_false_iff, decide_eq_false_iff_not, List.mem_cons,
    List.not_mem_nil, or_false, not_or] at lead
  obtain ⟨signs, single⟩ := lead
  by_cases sign : c = '?' ∨ c = ':' ∨ c = '-'
  · have stays : startsBlank text = false := by simpa [sign] using single
    have next : (cellsFrom line (column + 1) text).head?.any Cell.blank = false := by
      cases text with
      | nil => rfl
      | cons d text => exact (Bool.or_eq_false_iff.mp stays).1
    rcases sign with rfl | rfl | rfl
    all_goals simp [startsPlain, endsWord_cellsFrom, stays, next]
  · rw [not_or, not_or] at sign
    simp [startsPlain, Cell.blank, Cell.lineEnd, isFlowSign, blank, unbroken, signs, sign]

lemma ne_number_of_lead (h : isLeadSign c cs = false) : c ≠ '#' := by
  rintro rfl
  exact absurd h (by simp [isLeadSign])

lemma Starts.of_word (h : isWordChar c) : Starts c :=
  .of_printable (isPrintable_of_word h) (isBreak_of_word h) (isBlank_of_word h)
    (ne_number_of_lead (@isLeadSign_of_word c [] h))

lemma token?_plain (outer : l.outer = []) (start : column = 0 → c ∉ ['-', '.'])
    (blank : isBlank c = false) (unbroken : isBreak c = false) (lead : isLeadSign c text = false) :
    l.token? ⟨c, line, column⟩ (cellsFrom line (column + 1) text) =
      l.plain? ⟨c, line, column⟩ (cellsFrom line (column + 1) text) := by
  have flow : l.flow = false := by rw [Lexer.flow, outer]; rfl
  have mark (sign : Char) (h : sign ∈ ['-', '.']) :
      isMark sign (⟨c, line, column⟩ :: cellsFrom line (column + 1) text) = false := by
    refine isMark_eq_false (not_and_or.mp ?_)
    rintro ⟨zero, rfl⟩
    exact start zero h
  have starts := @startsPlain_of_lead c text line column blank unbroken lead
  simp only [isLeadSign, Bool.or_eq_false_iff, decide_eq_false_iff_not, List.mem_cons,
    List.not_mem_nil, or_false, not_or] at lead
  obtain ⟨signs, single⟩ := lead
  have loose (sign : Char) (h : sign = '?' ∨ sign = ':' ∨ sign = '-') :
      ¬(c = sign ∧ startsBlank text) := by
    rintro ⟨rfl, ends⟩
    simp [h, ends] at single
  simp only [token?, mark '-' (by decide), mark '.' (by decide), signs, flow, endsWord_cellsFrom,
    loose '-' (by decide), loose '?' (by decide), loose ':' (by decide), starts, Bool.false_eq_true,
    false_or, if_false, if_true, false_and, and_false]

/-! ## Signs -/

lemma token?_singleQuote : l.token? ⟨'\'', line, column⟩ more =
    l.node? ⟨'\'', line, column⟩ ((scanSingle? {} more).map (leading (.scalar .singleQuoted))) := by
  simp [token?, isMark_eq_false]

lemma token?_doubleQuote : l.token? ⟨'"', line, column⟩ more =
    l.node? ⟨'"', line, column⟩
      ((scanDouble? .text {} more).map (leading (.scalar .doubleQuoted))) := by
  simp [token?, isMark_eq_false]

lemma token?_bar (outer : l.outer = []) :
    l.token? ⟨'|', line, column⟩ more = l.block? .literal more := by
  simp [token?, isMark_eq_false, flow, outer]

lemma token?_colon (word : endsWord more) :
    l.token? ⟨':', line, column⟩ more = (l.value? ⟨':', line, column⟩).map (·, more) := by
  simp [token?, isMark_eq_false, word]

lemma token?_dash {d : Cell} (space : d.char = ' ') : l.token? ⟨'-', line, column⟩ (d :: more) =
    (l.sign? ⟨'-', line, column⟩ .blockSequence .item true).map (·, d :: more) := by
  have mark : isMark '-' (⟨'-', line, column⟩ :: d :: more) = false := by
    cases more with
    | nil => rfl
    | cons e more => simp [isMark, space]
  simp [token?, mark, isMark_eq_false, endsWord, Cell.blank, space, isBlank]

lemma token?_open : l.token? ⟨'[', line, column⟩ more =
    (l.openFlow? ⟨'[', line, column⟩ .flowSequence).map (·, more) := by
  simp [token?, isMark_eq_false]

lemma token?_close : l.token? ⟨']', line, column⟩ more =
    (l.closeFlow? .flowSequenceEnd).map (·, more) := by
  simp [token?, isMark_eq_false]

end Lexer

open Lexer

/-! ## Lines -/

/-- The tokens of a text that starts a line. -/
def Lexes (indents : List ℕ) (text : List Char) (out : List Token) : Prop :=
  ∀ tokens line key, (∀ k ∈ key, k.required = false) →
    run? { indents, key, tokens } (lineCells line text) = some (tokens.reverse ++ out)

/-- The text goes on with a token no further to the right than a column, or it has ended. -/
structure Resumes (col : ℕ) (text : List Char) : Prop where
  margin : margin text ≤ col
  starts : ∀ c ∈ (body text).head?, Starts c

namespace Resumes

lemma nil : Resumes col [] := ⟨Nat.zero_le col, nofun⟩

lemma indented (starts : Starts c) : Resumes col (List.replicate col ' ' ++ c :: text) := by
  have space : c ≠ ' ' := by
    rintro rfl
    exact absurd starts.blank (by decide)
  constructor
  · rw [margin_indented space]
  · rw [body_indented space]
    rintro d ⟨⟩
    exact starts

lemma mono {inner : ℕ} (h : Resumes col text) (deeper : col ≤ inner) : Resumes inner text :=
  ⟨Nat.le_trans h.margin deeper, h.starts⟩

lemma outdented (h : Resumes col text) : Outdented (col + 1) text :=
  ⟨Nat.lt_succ_of_le h.margin, fun c hc => ⟨(h.starts c hc).blank, (h.starts c hc).unbroken⟩⟩

end Resumes

/-- The tokens of a text after a sign and a space, in a line of the innermost block. -/
def Follows (col : ℕ) (indents : List ℕ) (text : List Char) (out : List Token) : Prop :=
  ∀ tokens line column allowed, col < column →
    run? { indents := col :: indents, keyAllowed := allowed, tokens }
      (cellsFrom line column (' ' :: text)) =
      some (tokens.reverse ++ out)

/-- At the end all blocks end. -/
lemma Lexes.nil : Lexes indents [] (List.replicate indents.length .blockEnd) := by
  intro tokens line key optional
  have closed := @dropKey?_optional (indents.drop indents.length) key
    (List.replicate indents.length .blockEnd ++ tokens) true optional
  rw [lineCells_nil, run?, skip]
  change Option.map _ (dropKey? _) = _
  refine (congrArg _ closed).trans ?_
  rw [Option.map_some, List.reverse_append, List.reverse_replicate]

/-- After the lines of an inner block, a line of an outer one or the end closes it. -/
lemma Lexes.dedent {inner : ℕ} (h : Lexes (col :: indents) text out) (resumes : Resumes col text)
    (deeper : col < inner) : Lexes (inner :: col :: indents) text (.blockEnd :: out) := by
  intro tokens line key optional
  have outer := h (.blockEnd :: tokens) line key optional
  rw [List.append_cons tokens.reverse, ← List.reverse_cons, ← outer, lineCells]
  cases rest : body text with
  | nil =>
    rw [cellsFrom, run?, run?, skip, skip]
    exact congrArg (fun l : Lexer => l.dropKey?.map fun l => l.tokens.reverse) closeAll_inner
  | cons c rest' =>
    have starts := resumes.starts c (rest ▸ rfl)
    have left : margin text < inner := Nat.lt_of_le_of_lt resumes.margin deeper
    rw [cellsFrom_cons starts.unbroken, run?, run?]
    dsimp only [flow]
    rw [skip_starts starts]
    dsimp only [allowKey]
    rw [dropLate?_optional optional, dropLate?_optional optional]
    dsimp only [bind, Option.bind]
    rw [closeBlocks_left left]

/-- A line ends, and the next one starts. -/
lemma Lexes.lineEnd (h : Lexes indents text out) (optional : ∀ k ∈ key, k.required = false) :
    run? { indents, key, keyAllowed := allowed, tokens } (cellsFrom line column ('\n' :: text)) =
      some (tokens.reverse ++ out) := by
  have agree : skip false allowed false (cellsFrom line column ('\n' :: text)) =
      skip false true false (lineCells (line + 1) text) := by
    have pass : ∀ column < margin text, ∀ more,
        skip false true false (⟨' ', line + 1, column⟩ :: more) = skip false true false more :=
          fun _ _ _ => rfl
    rw [← apply_lineCells pass, cellsFrom_break (by decide), skip]
    cases allowed
    all_goals rfl
  refine @run?_of_skip _ _ _ _ { indents, key, tokens } agree (fun _ => rfl) ?_
    (h tokens (line + 1) key optional)
  rw [length_cellsFrom]
  exact Nat.le_succ_of_le length_lineCells_le

namespace Follows

/-- A token comes after the space. -/
lemma step {l : Lexer} (starts : Starts c)
    (token : token? { indents := col :: indents, keyAllowed := allowed, tokens }
      ⟨c, line, column + 1⟩
      (cellsFrom line (column + 2) text) = some (l, cells'))
    (right : col < column) (shorter : cells'.length ≤ text.length) :
    run? { indents := col :: indents, keyAllowed := allowed, tokens }
      (cellsFrom line column (' ' :: c :: text)) =
      l.run? cells' := by
  have skipped : skip false allowed false (cellsFrom line column (' ' :: c :: text)) =
      (allowed, ⟨c, line, column + 1⟩ :: cellsFrom line (column + 2) text) := by
    rw [cellsFrom_cons (by decide), cellsFrom_cons starts.unbroken]
    exact skip_starts starts
  refine run?_step skipped rfl ?_ ?_
  · rw [closeBlocks_eq]
    · exact token
    · rintro i ⟨⟩
      exact Nat.le_succ_of_le (Nat.le_of_lt right)
  · rw [length_cellsFrom]
    exact Nat.lt_succ_of_lt (Nat.lt_succ_of_le shorter)

/-- A key may start here, but nothing says that one has to. -/
lemma noteKey? (right : col < column) : ∃ key, (∀ k ∈ key, k.required = false) ∧
    Lexer.noteKey? { indents := col :: indents, keyAllowed := allowed, tokens }
      ⟨c, line, column + 1⟩ =
      some { indents := col :: indents, key, keyAllowed := allowed, tokens } := by
  cases allowed with
  | false => exact ⟨none, nofun, rfl⟩
  | true =>
    refine ⟨_, ?_, rfl⟩
    rintro k ⟨⟩
    have other : col ≠ column + 1 := by omega
    simp [other]

lemma plain (h : Lexes (col :: indents) rest out) (single : isPlain cs)
    (outside : Outdented (col + 1) rest) :
    Follows col indents (cs ++ '\n' :: rest) (.scalar .plain cs :: out) := by
  intro tokens line column allowed right
  cases cs with
  | nil => exact absurd single (by decide)
  | cons c cs =>
    obtain ⟨-, printable, unbroken, blank, lead⟩ := GoesOn.of_isPlain single
    have starts := Starts.of_printable printable unbroken blank (ne_number_of_lead lead)
    obtain ⟨key, optional, noted⟩ := @noteKey? c line column col indents tokens allowed right
    have scanned :=
      @scanPlain?_plain (c :: cs) rest line (column + 1) (col + 1) single outside (by omega)
    rw [List.cons_append, cellsFrom_cons unbroken] at scanned
    have token : token? { indents := col :: indents, keyAllowed := allowed, tokens }
      ⟨c, line, column + 1⟩ (cellsFrom line (column + 2) (cs ++ '\n' :: rest)) =
        some ({ indents := col :: indents, key, tokens := .scalar .plain (c :: cs) :: tokens },
          lineCells (line + 1) rest) := by
      have start : column + 1 = 0 → c ∉ ['-', '.'] :=
        fun zero => absurd zero (Nat.succ_ne_zero column)
      rw [token?_plain rfl start blank unbroken (isLeadSign_line.trans lead), plain?, noted]
      exact congrArg (Option.bind · _) scanned
    rw [List.append_cons tokens.reverse, ← List.reverse_cons]
    refine (step starts token right ?_).trans (h _ (line + 1) key optional)
    have shorter := @length_lineCells_le rest (line + 1)
    rw [List.length_append, List.length_cons]
    omega

lemma quoted {sign : Char} {style : Style} {scan : List Cell → Option Quoted}
    (h : Lexes (col :: indents) rest out) (starts : Starts sign)
    (known : ∀ (l : Lexer) line column more, l.token? ⟨sign, line, column⟩ more =
      l.node? ⟨sign, line, column⟩ ((scan more).map (leading (.scalar style))))
    (scanned : ∀ line column, 0 < column →
      ScansTo (scan (cellsFrom line column text)) cs ('\n' :: rest))
    (shorter : rest.length < text.length) :
    Follows col indents (sign :: text) (.scalar style cs :: out) := by
  intro tokens line column allowed right
  obtain ⟨key, optional, noted⟩ := @noteKey? sign line column col indents tokens allowed right
  obtain ⟨line', column', read⟩ := scanned line (column + 2) (Nat.succ_pos _)
  have token : token? { indents := col :: indents, keyAllowed := allowed, tokens }
    ⟨sign, line, column + 1⟩ (cellsFrom line (column + 2) text) =
      some
        ({ indents := col :: indents, key, keyAllowed := false,
           tokens := .scalar style cs :: tokens },
          cellsFrom line' column' ('\n' :: rest)) := by
    rw [known, node?, noted, read]
    rfl
  rw [List.append_cons tokens.reverse, ← List.reverse_cons]
  refine (step starts token right ?_).trans (h.lineEnd optional)
  rw [length_cellsFrom]
  exact shorter

/-- A text line by line. -/
lemma literal (h : Lexes (col :: indents) rest out) (nonempty : cs ≠ [])
    (printable : ∀ c ∈ cs, isPrintable c) (outside : Outdented (col + 2) rest) :
    Follows col indents (writeLiteral (col + 2) cs ++
      ((if endsBroken cs then [] else ['\n']) ++ rest))
      (.scalar .literal cs :: out) := by
  intro tokens line column allowed right
  obtain ⟨line', scanned⟩ :=
    @scanBlock?_written cs rest line (column + 2) col nonempty printable outside
  have shorter := @length_lineCells_le rest line'
  rw [writeLiteral_eq, List.cons_append, List.append_assoc, List.append_assoc, List.cons_append]
  generalize lines : hint cs ++ _ = text at scanned ⊢
  have token : token? { indents := col :: indents, keyAllowed := allowed, tokens }
    ⟨'|', line, column + 1⟩ (cellsFrom line (column + 2) text) =
      some ({ indents := col :: indents, tokens := .scalar .literal cs :: tokens },
        lineCells line' rest) := by
    rw [token?_bar rfl]
    exact congrArg (Option.bind · _) scanned
  rw [List.append_cons tokens.reverse, ← List.reverse_cons]
  refine (step (by decide) token right ?_).trans (h _ line' none nofun)
  rw [← lines]
  simp only [List.length_append, List.length_cons]
  omega

lemma brackets (h : Lexes (col :: indents) rest out) :
    Follows col indents ('[' :: ']' :: '\n' :: rest)
      (.flowSequence :: .flowSequenceEnd :: out) := by
  intro tokens line column allowed right
  -- what was a candidate before the brackets is one after them, unless it is too late for it at the
  -- second
  obtain ⟨key, optional, noted⟩ := @noteKey? '[' line column col indents tokens allowed right
  have opened : token? { indents := col :: indents, keyAllowed := allowed, tokens }
    ⟨'[', line, column + 1⟩
      (cellsFrom line (column + 2) (']' :: '\n' :: rest)) =
      some ({ indents := col :: indents, outer := [key], tokens := .flowSequence :: tokens },
        cellsFrom line (column + 2) (']' :: '\n' :: rest)) := by
    rw [token?_open, openFlow?, noted]
    rfl
  let sign : Cell := ⟨']', line, column + 2⟩
  have late : dropLate?
      { indents := col :: indents, outer := [key], tokens := .flowSequence :: tokens } sign = some
      { indents := col :: indents, outer := [key.filter (!·.isLate sign)],
        tokens := .flowSequence :: tokens } := by
    rw [dropLate?, if_neg (by simp [any_late optional])]
    rfl
  have closed : token?
      { indents := col :: indents, outer := [key.filter (!·.isLate sign)],
        tokens := .flowSequence :: tokens } sign
      (cellsFrom line (column + 3) ('\n' :: rest)) = some
      ({ indents := col :: indents, key := key.filter (!·.isLate sign), keyAllowed := false,
         tokens := .flowSequenceEnd :: .flowSequence :: tokens },
        cellsFrom line (column + 3) ('\n' :: rest)) := by
    rw [token?_close]
    rfl
  have inside : ∀ i ∈ (col :: indents).head?, i ≤ column + 2 := by
    rintro i ⟨⟩
    omega
  rw [List.append_cons tokens.reverse, List.append_cons _ _ out, ← List.reverse_cons,
    ← List.reverse_cons, step (by decide) opened right (by simp),
    run?_token (by decide) late inside closed (by simp)]
  exact h.lineEnd (optional_filter optional)

/-- A text in the style that is chosen for it. -/
theorem written (h : Lexes (col :: indents) rest out) (outside : Outdented (col + 1) rest) :
    Follows col indents (write (col + 2) cs ++ rest) (.scalar (style cs) cs :: out) := by
  have styled := @styled_style cs
  rw [write]
  generalize style cs = style at styled ⊢
  cases styled with
  | plain _ single =>
    rw [List.append_assoc]
    exact plain h single outside
  | singleQuoted feed fits =>
    have more : writeSingle (col + 2) cs ++ ['\n'] ++ rest =
        '\'' :: (indentLines (col + 2) doubleQuote false cs ++
          (closing (col + 2) cs ++ '\n' :: rest)) := by
      simp [writeSingle, closing]
    rw [more]
    refine quoted h (by decide) (fun l _ _ _ => token?_singleQuote) ?_ ?_
    · exact fun line column away => scanSingle?_written feed fits (Nat.succ_pos _) away
    · simp only [List.length_append, List.length_cons]
      omega
  | doubleQuoted =>
    have more : writeDouble cs ++ ['\n'] ++ rest =
        '"' :: (cs.flatMap escape ++ '"' :: '\n' :: rest) := by
      simp [writeDouble]
    rw [more]
    refine quoted h (by decide) (fun l _ _ _ => token?_doubleQuote) ?_ ?_
    · exact fun line column away => scanDouble?_written away
    · simp only [List.length_append, List.length_cons]
      omega
  | literal feed fits =>
    have wider : Outdented (col + 2) rest := ⟨Nat.lt_succ_of_lt outside.margin, outside.starts⟩
    have lines := literal h (List.ne_nil_of_mem feed) (printable_of_isLiteral fits) wider
    dsimp only
    split_ifs with complete
    · rw [if_pos complete] at lines
      exact lines
    · rw [if_neg complete] at lines
      rw [List.append_assoc]
      exact lines

end Follows

namespace Lexes

lemma head?_le : ∀ i ∈ (col :: indents).head?, i ≤ col := by
  rintro i ⟨⟩
  exact Nat.le_refl col

lemma item (h : Follows col indents text out) :
    Lexes (col :: indents) (List.replicate col ' ' ++ '-' :: ' ' :: text) (.item :: out) := by
  intro tokens line key optional
  rw [lineCells_indented (by decide), List.append_cons tokens.reverse, ← List.reverse_cons]
  refine (run?_token (by decide) (dropLate?_optional optional) head?_le ?_ ?_).trans
    (h _ line (col + 1) true (Nat.lt_succ_self col))
  · rw [cellsFrom_cons (by decide), token?_dash rfl, sign?, openBlock_open rfl,
      dropKey?_optional (optional_filter optional)]
    rfl
  · simp

end Lexes

/-! ## Names -/

/-- The lexer after a name and the colon after it. -/
def Lexer.named (l : Lexer) (col : ℕ) (name : List Char) : Lexer :=
  let l := l.openBlock col .blockMapping
  { l with
    key := none
    keyAllowed := false
    tokens := .value :: .scalar .plain name :: .key :: l.tokens }

/-- A name that is a candidate. -/
def Lexer.candidate (indents : List ℕ) (tokens : List Token) (name : List Char)
    (line col : ℕ) : Lexer where
  indents := indents
  key := some ⟨line, col, decide (indents.head? = some col), tokens.length⟩
  keyAllowed := false
  tokens := .scalar .plain name :: tokens

lemma token?_name (word : IsWord (c :: name)) (ends : isBlank d ∨ isBreak d)
    (optional : ∀ k ∈ key, k.required = false) :
    token? { indents, key, tokens } ⟨c, line, col⟩
      (cellsFrom line (col + 1) (name ++ ':' :: d :: text)) =
      some (candidate indents tokens (c :: name) line col,
        cellsFrom line (col + (c :: name).length) (':' :: d :: text)) := by
  have first := List.all_eq_true.mp word.chars c List.mem_cons_self
  have unbroken := isBreak_of_word first
  have start : col = 0 → c ∉ ['-', '.'] := fun _ => not_mem_of_word first (by decide)
  have scanned (indent : ℕ) := @scanPlain?_name d (c :: name) text line col indent word.chars ends
  simp only [List.cons_append, cellsFrom_cons unbroken] at scanned
  have noted : Lexer.noteKey? { indents, key, tokens } ⟨c, line, col⟩ =
      some { candidate indents tokens (c :: name) line col with keyAllowed := true, tokens } := by
    rw [Lexer.noteKey?, if_pos rfl, dropKey?_optional optional]
    rfl
  rw [token?_plain rfl start (isBlank_of_word first) unbroken (isLeadSign_of_word first), plain?,
    noted]
  exact congrArg (Option.bind · _) (scanned _)

/-- The colon after a name says that it is a key. -/
lemma value?_candidate {m : Cell} : (candidate indents tokens name line col).value? m =
    some (named { indents, tokens } col name) := by
  -- the key goes in front of the name, which is the last token, and the start of a block in front
  -- of the key
  have one : tokens.length + 1 - tokens.length = 1 := Nat.add_sub_cancel_left ..
  have two : tokens.length + 1 + 1 - tokens.length = 2 := by omega
  rw [value?, candidate]
  dsimp only
  rw [announce, named, openBlock]
  by_cases right : indents.head?.all (· < col)
  all_goals simp [Lexer.insert, one, two, opens, flow, push, right]

/-- A name with a colon after it is a key of the block in its column, which may be a new one. -/
theorem run?_name (word : IsWord name) (short : name.length ≤ Candidate.widthLimit)
    (ends : isBlank d ∨ isBreak d)
    (optional : ∀ k ∈ key, k.required = false) (inside : ∀ i ∈ indents.head?, i ≤ col) :
    run? { indents, key, tokens } (cellsFrom line col (name ++ ':' :: d :: text)) =
      (named { indents, tokens } col name).run?
        (cellsFrom line (col + name.length + 1) (d :: text)) := by
  cases name with
  | nil => exact absurd rfl word.nonempty
  | cons c name =>
    have first := List.all_eq_true.mp word.chars c List.mem_cons_self
    have starts := Starts.of_word first
    have early : ¬col + Candidate.widthLimit < col + (c :: name).length :=
      Nat.not_lt.mpr (Nat.add_le_add_left short col)
    have late : (candidate indents tokens (c :: name) line col).dropLate?
        ⟨':', line, col + (c :: name).length⟩ =
        some (candidate indents tokens (c :: name) line col) :=
      dropLate?_early (by simp only [Candidate.isLate, Nat.lt_irrefl, early]; rfl)
    have ended : endsWord (cellsFrom line (col + (c :: name).length + 1) (d :: text)) := by
      rw [endsWord_cellsFrom, startsBlank]
      exact Bool.or_eq_true _ _ ▸ ends
    have announced : token? (candidate indents tokens (c :: name) line col)
        ⟨':', line, col + (c :: name).length⟩
        (cellsFrom line (col + (c :: name).length + 1) (d :: text)) =
        some (named { indents, tokens } col (c :: name),
          cellsFrom line (col + (c :: name).length + 1) (d :: text)) := by
      rw [token?_colon ended, value?_candidate]
      rfl
    rw [List.cons_append, run?_token starts (dropLate?_optional optional) inside
      (token?_name word ends (optional_filter optional)) (by simp),
      run?_token (by decide) late
        (fun i hi => Nat.le_trans (inside i hi) (Nat.le_add_right ..)) announced (by simp)]

lemma lineCells_name (word : IsWord name) :
    lineCells line (List.replicate col ' ' ++ (name ++ text)) =
      cellsFrom line col (name ++ text) := by
  cases name with
  | nil => exact absurd rfl word.nonempty
  | cons c name =>
    refine lineCells_indented ?_
    rintro rfl
    exact absurd (List.all_eq_true.mp word.chars ' ' List.mem_cons_self) (by decide)

lemma append_name : tokens.reverse ++ (.key :: .scalar .plain name :: .value :: out) =
    (.value :: .scalar .plain name :: .key :: tokens).reverse ++ out := by
  simp

namespace Lexes

/-- A name and its value on one line. -/
lemma named (word : IsWord name) (short : name.length ≤ Candidate.widthLimit)
    (h : Follows col indents text out) :
    Lexes (col :: indents) (List.replicate col ' ' ++ (name ++ ':' :: ' ' :: text))
      (.key :: .scalar .plain name :: .value :: out) := by
  intro tokens line key optional
  rw [append_name, lineCells_name word, run?_name word short (.inl rfl) optional head?_le,
    Lexer.named, openBlock_open rfl]
  exact h _ _ _ _ (Nat.lt_succ_of_le (Nat.le_add_right col name.length))

/-- A name whose value is on the lines below. -/
lemma header (word : IsWord name) (short : name.length ≤ Candidate.widthLimit)
    (h : Lexes (col :: indents) text out) :
    Lexes (col :: indents) (List.replicate col ' ' ++ (name ++ ':' :: '\n' :: text))
      (.key :: .scalar .plain name :: .value :: out) := by
  intro tokens line key optional
  rw [append_name, lineCells_name word, run?_name word short (.inr rfl) optional head?_le,
    Lexer.named, openBlock_open rfl]
  exact h.lineEnd nofun

/-- A name further to the right than all before it opens a block. -/
lemma opening (word : IsWord name) (short : name.length ≤ Candidate.widthLimit)
    (ends : isBlank d ∨ isBreak d) (right : ∀ i ∈ indents.head?, i < col)
    (h : Lexes (col :: indents) (List.replicate col ' ' ++ (name ++ ':' :: d :: text)) out) :
    Lexes indents (List.replicate col ' ' ++ (name ++ ':' :: d :: text))
      (.blockMapping :: out) := by
  intro tokens line key optional
  rw [List.append_cons tokens.reverse, ← List.reverse_cons]
  have free : ∀ k ∈ (none : Option Candidate), k.required = false := nofun
  have fits : opens { indents, tokens } col := by
    cases indents with
    | nil => rfl
    | cons i indents => simpa [opens, flow] using right
  -- in the new block, the lexer is where it is after the same name in a block that was there
  have inner := h (.blockMapping :: tokens) line none free
  rw [lineCells_name word, run?_name word short ends free head?_le, Lexer.named,
    openBlock_open rfl] at inner
  rw [lineCells_name word, run?_name word short ends optional fun i hi => Nat.le_of_lt (right i hi),
    Lexer.named, openBlock, if_pos fits]
  exact inner

end Lexes

theorem tokens?_of_lexes (h : Lexes [] text out) (printable : ∀ c ∈ text, isPrintable c) :
    tokens? text = some out := by
  rw [tokens?, cells?_printable printable]
  have pass : ∀ column < margin text, ∀ more,
      skip false true false (⟨' ', 0, column⟩ :: more) = skip false true false more :=
        fun _ _ _ => rfl
  refine run?_of_skip (apply_lineCells pass) (fun _ => rfl) ?_ (h [] 0 none nofun)
  rw [length_cellsFrom]
  exact length_lineCells_le

end Interlock.Yaml

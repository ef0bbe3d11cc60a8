import Interlock.Yaml.Scalar.Quoted
import Interlock.Proofs.Yaml.Scalar.Plain

/-!
# Quoted scalars written and scanned

A text between quotes is scanned as it was before it was written (`scanSingle?_written`,
`scanDouble?_written`). Between single quotes the writer puts an indentation before each character
that starts a line, and the scanner drops the blanks around a line end, so none of the text may
stand there; that is what the writer checks. Between double quotes there are no line ends, for the
writer escapes them.
-/

namespace Interlock.Yaml

open Scalar

variable {c p : Char} {cs text rest : List Char} {more : List Cell}
  {line column indent : ℕ} {g : Gap}

/-- A scalar is scanned as the text, and the rest comes after it. -/
def ScansTo (scanned : Option Quoted) (text rest : List Char) : Prop :=
  ∃ line column, scanned = some (text, cellsFrom line column rest)

lemma ScansTo.after {scanned : Option Quoted} (h : ScansTo scanned text rest) (before : List Char) :
    ScansTo (scanned.map (.after before)) (before ++ text) rest := by
  obtain ⟨line, column, rfl⟩ := h
  exact ⟨line, column, rfl⟩

/-! ## Single quotes -/

lemma isBlank_of_break (h : isBreak c) : isBlank c = false := by
  simp only [isBreak, Bool.or_eq_true, decide_eq_true_eq] at h
  rcases h with (((rfl | rfl) | rfl) | rfl) | rfl
  all_goals rfl

lemma ne_mark_of_break (h : isBreak c) : c ≠ '-' ∧ c ≠ '.' := by
  constructor
  all_goals
    rintro rfl
    exact absurd h (by decide)

/-- A character that is neither a quote nor the start of a mark. -/
lemma scanSingle?_cons {c : Cell} (mark : isDocumentMark (c :: more) = false)
    (quote : c.char ≠ '\'') :
    scanSingle? g (c :: more) = if c.blank then scanSingle? (g.addBlank c.char) more
      else if c.lineEnd then scanSingle? (g.addBreak c.char) more
      else (scanSingle? {} more).map (.after (g.text ++ [c.char])) := by
  cases more
  all_goals
    change (if _ then none else if c.blank then _ else if c.lineEnd then _ else
      if _ then _ else _) = _
    rw [mark, if_neg quote]
    rfl

lemma scanSingle?_space : scanSingle? g (⟨' ', line, column⟩ :: more) =
    scanSingle? (g.addBlank ' ') more := by
  rw [scanSingle?_cons (isDocumentMark_eq_false (.inr ⟨by simp, by simp⟩)) (by simp)]
  rfl

lemma scanSingle?_break (h : isBreak c) :
    scanSingle? g (⟨c, line, column⟩ :: more) = scanSingle? (g.addBreak c) more := by
  have quote : c ≠ '\'' := by
    rintro rfl
    exact absurd h (by decide)
  rw [scanSingle?_cons (isDocumentMark_eq_false (.inr (ne_mark_of_break h))) quote, Cell.blank,
    isBlank_of_break h, Cell.lineEnd, h]
  rfl

lemma scanSingle?_char (away : 0 < column) (blank : isBlank c = false)
    (unbroken : isBreak c = false) (quote : c ≠ '\'') :
    scanSingle? g (⟨c, line, column⟩ :: more) =
      (scanSingle? {} more).map (.after (g.text ++ [c])) := by
  rw [scanSingle?_cons (isDocumentMark_eq_false (.inl (Nat.ne_of_gt away))) quote, Cell.blank,
    blank, Cell.lineEnd, unbroken]
  rfl

/-- A quote that is written twice. -/
lemma scanSingle?_quote (away : 0 < column) :
    scanSingle? g (cellsFrom line column ('\'' :: '\'' :: rest)) =
      (scanSingle? {} (cellsFrom line (column + 2) rest)).map (.after (g.text ++ ['\''])) := by
  rw [cellsFrom_cons (by decide), cellsFrom_cons (by decide)]
  change (if isDocumentMark _ then none else _) = _
  rw [isDocumentMark_eq_false (.inl (Nat.ne_of_gt away))]
  rfl

/-- The quote at the end. -/
lemma scanSingle?_close (away : 0 < column) :
    ScansTo (scanSingle? g (cellsFrom line column ('\'' :: '\n' :: rest))) g.text
      ('\n' :: rest) := by
  refine ⟨line, column + 1, ?_⟩
  rw [cellsFrom_cons (by decide), cellsFrom_break (by decide)]
  change (if isDocumentMark _ then none else _) = _
  rw [isDocumentMark_eq_false (.inl (Nat.ne_of_gt away))]
  rfl

/-- The indentation keeps a character away from the start of its line. -/
lemma lead_away (inside : 0 < indent) (away : isBreak p = false → 0 < column) :
    0 < column + (lead indent (isBreak p)).length := by
  rw [lead]
  cases h : isBreak p with
  | false => exact away h
  | true =>
    rw [if_pos rfl, List.length_replicate]
    omega

/-- After a line end the blanks before the next character do not count. -/
lemma scanSingle?_lead (broken : g.broken = isBreak p) :
    scanSingle? g (cellsFrom line column (lead indent (isBreak p) ++ text)) =
      scanSingle? g (cellsFrom line (column + (lead indent (isBreak p)).length) text) := by
  rw [lead]
  cases h : isBreak p with
  | false => rfl
  | true =>
    rw [h] at broken
    have pass (n : ℕ) : scanSingle? g (cellsFrom line column (List.replicate n ' ' ++ text)) =
        scanSingle? g (cellsFrom line (column + n) text) := by
      induction n generalizing column with
      | zero => rfl
      | succ n ih =>
        rw [List.replicate_succ, List.cons_append, cellsFrom_cons (by decide), scanSingle?_space,
          Gap.addBlank, if_pos broken, ih, Nat.add_right_comm, Nat.add_assoc]
    rw [if_pos rfl, List.length_replicate]
    exact pass indent

/-- The characters go on between single quotes after the character `p` of the text. -/
structure GoesOnQuoted (p : Char) (cs : List Char) : Prop where
  printable : ∀ c ∈ cs, isPrintable c
  single : ∀ c ∈ cs, c ≠ '\n'
  before : hasPair (· = ' ') isBreak (p :: cs) = false
  after : hasPair isBreak (· = ' ') (p :: cs) = false

namespace GoesOnQuoted

lemma next (h : GoesOnQuoted p (c :: cs)) : GoesOnQuoted c cs where
  printable := (List.forall_mem_cons.mp h.printable).2
  single := (List.forall_mem_cons.mp h.single).2
  before := (Bool.or_eq_false_iff.mp h.before).2
  after := (Bool.or_eq_false_iff.mp h.after).2

lemma unbroken (h : GoesOnQuoted ' ' (c :: cs)) : isBreak c = false := by
  simpa using (Bool.or_eq_false_iff.mp h.before).1

lemma ne_space (h : GoesOnQuoted p (c :: cs)) (broken : isBreak p) : c ≠ ' ' := by
  have pair := (Bool.or_eq_false_iff.mp h.after).1
  rw [broken] at pair
  simpa using pair

end GoesOnQuoted

/-- The gap holds the white space up to the character `p` of a text. -/
structure Holds (g : Gap) (p : Char) : Prop where
  broken : g.broken = isBreak p
  blanks : g.blanks ≠ [] → p = ' '
  first : g.first ≠ some '\n'

namespace Holds

lemma none (unbroken : isBreak p = false) : Holds {} p := ⟨unbroken.symm, nofun, nofun⟩

/-- A space after a character that is no line end. -/
lemma addBlank (h : Holds g p) (unbroken : isBreak p = false) :
    Holds (g.addBlank ' ') ' ' ∧ (g.addBlank ' ').text = g.text ++ [' '] := by
  have open' : g.broken = false := h.broken.trans unbroken
  rw [Gap.addBlank, if_neg (by simp [open'])]
  exact ⟨⟨open', fun _ => rfl, h.first⟩, by simp [Gap.text, open']⟩

/-- A line end after a character that is no space. -/
lemma addBreak (h : Holds g p) (space : p ≠ ' ') (broken : isBreak c) (feed : c ≠ '\n') :
    Holds (g.addBreak c) c ∧ (g.addBreak c).text = g.text ++ [c] := by
  have unspaced : g.blanks = [] := by
    by_contra spaced
    exact space (h.blanks spaced)
  cases later : g.broken with
  | false =>
    have first : some c ≠ some '\n' := fun e => feed (Option.some.inj e)
    rw [Gap.addBreak, if_neg (by simp [later])]
    exact ⟨⟨broken.symm, nofun, first⟩, by simp [Gap.text, later, unspaced, first]⟩
  | true =>
    rw [Gap.addBreak, if_pos later]
    exact ⟨⟨later.trans broken.symm, fun spaced => absurd unspaced spaced, h.first⟩,
      by simp [Gap.text, later, h.first]⟩

end Holds

/-- What comes after the last character of a text between single quotes. -/
def closing (indent : ℕ) (cs : List Char) : List Char :=
  (if endsBroken cs then List.replicate indent ' ' else []) ++ ['\'']

lemma closing_cons : closing indent (p :: c :: cs) = closing indent (c :: cs) := by
  rw [closing, closing, endsBroken, endsBroken, List.getLast?_cons_cons]

/-- The rest of a text between single quotes, after a character of it. -/
lemma scanSingle?_rest (text : GoesOnQuoted p cs) (held : Holds g p) (inside : 0 < indent)
    (away : isBreak p = false → 0 < column) :
    ScansTo (scanSingle? g (cellsFrom line column
        (indentLines indent doubleQuote (isBreak p) cs ++
          (closing indent (p :: cs) ++ '\n' :: rest))))
      (g.text ++ cs) ('\n' :: rest) := by
  induction cs generalizing p g line column with
  | nil =>
    have last : closing indent [p] = lead indent (isBreak p) ++ ['\''] := rfl
    rw [indentLines, List.nil_append, last, List.append_assoc, scanSingle?_lead held.broken,
      List.append_nil]
    exact scanSingle?_close (lead_away inside away)
  | cons c cs ih =>
    rw [closing_cons, List.append_cons g.text]
    by_cases broken : isBreak c
    · have space : p ≠ ' ' := by
        rintro rfl
        exact absurd broken (Bool.eq_false_iff.mp text.unbroken)
      obtain ⟨held', whole⟩ := held.addBreak space broken (text.single c List.mem_cons_self)
      have later :=
        @ih c (line + 1) 0 _ text.next held' fun h => absurd broken (Bool.eq_false_iff.mp h)
      rw [broken] at later
      rw [indentLines_break broken, List.cons_append, cellsFrom_break broken,
        scanSingle?_break broken, ← whole]
      exact later
    · have unbroken : isBreak c = false := Bool.eq_false_iff.mpr broken
      have clear := lead_away inside away
      -- after a character that is no blank there is no gap
      have next {n : ℕ} (clear : 0 < n) : ScansTo (scanSingle? {} (cellsFrom line n
          (indentLines indent doubleQuote false cs ++ (closing indent (c :: cs) ++ '\n' :: rest))))
          cs ('\n' :: rest) := by
        have later := @ih c line n {} text.next (.none unbroken) fun _ => clear
        rw [unbroken] at later
        exact later
      rw [indentLines_char unbroken, List.append_assoc, List.append_assoc,
        scanSingle?_lead held.broken]
      by_cases space : c = ' '
      · subst space
        have first : isBreak p = false := Bool.eq_false_iff.mpr fun h => text.ne_space h rfl
        obtain ⟨held', whole⟩ := held.addBlank first
        rw [← whole, doubleQuote, if_neg (by decide), List.singleton_append,
          cellsFrom_cons (by decide), scanSingle?_space]
        exact ih text.next held' fun _ => Nat.succ_pos _
      · by_cases quote : c = '\''
        · subst quote
          rw [doubleQuote, if_pos rfl, List.cons_append, List.singleton_append,
            scanSingle?_quote clear]
          exact (next (Nat.lt_add_right 2 clear)).after _
        · have blank : isBlank c = false := by
            rw [isBlank_of_printable (text.printable c List.mem_cons_self), decide_eq_false space]
          rw [doubleQuote, if_neg quote, List.singleton_append, cellsFrom_cons unbroken,
            scanSingle?_char clear blank unbroken quote]
          exact (next (Nat.succ_pos _)).after _

/-- A text between single quotes is scanned as it was before it was written. -/
theorem scanSingle?_written (feed : '\n' ∉ cs) (h : isSingleQuoted cs) (inside : 0 < indent)
    (away : 0 < column) :
    ScansTo (scanSingle? {} (cellsFrom line column
      (indentLines indent doubleQuote false cs ++ (closing indent cs ++ '\n' :: rest)))) cs
        ('\n' :: rest) := by
  simp only [isSingleQuoted, needsEscapes, Bool.not_eq_true', Bool.or_eq_false_iff] at h
  obtain ⟨⟨printable, before⟩, after⟩ := h
  -- a quote before the text stands for any character that is no white space
  have text : GoesOnQuoted '\'' cs := by
    constructor
    · simpa using printable
    · exact fun c hc e => feed (e ▸ hc)
    · cases cs with
      | nil => rfl
      | cons c cs => exact before
    · cases cs with
      | nil => rfl
      | cons c cs => exact after
  have same : closing indent ('\'' :: cs) = closing indent cs := by
    cases cs with
    | nil => rfl
    | cons c cs => exact closing_cons
  have scanned := @scanSingle?_rest '\'' cs rest line column indent {} text (.none (by decide))
    inside fun _ => away
  rw [same] at scanned
  exact scanned

/-! ## Double quotes -/

section Double

variable {letter : Char}

/-- A character of the text that is not the start of a mark. -/
lemma scanDouble?_text {c : Cell} (mark : isDocumentMark (c :: more) = false) :
    scanDouble? .text g (c :: more) = if c.blank then scanDouble? .text (g.addBlank c.char) more
      else if c.lineEnd then scanDouble? .text (g.addBreak c.char) more
      else if c.char = '"' then some (g.text, more)
      else if c.char = '\\' then scanDouble? .backslash g more
      else (scanDouble? .text {} more).map (.after (g.text ++ [c.char])) := by
  change (if isDocumentMark (c :: more) then none else _) = _
  rw [mark]
  rfl

lemma scanDouble?_space :
    scanDouble? .text g (⟨' ', line, column⟩ :: more) =
      scanDouble? .text (g.addBlank ' ') more := by
  rw [scanDouble?_text (isDocumentMark_eq_false (.inr ⟨by simp, by simp⟩))]
  rfl

/-- A character that is written as it is. -/
lemma scanDouble?_char (away : 0 < column) (blank : isBlank c = false)
    (unbroken : isBreak c = false) (sign : c ∉ ['"', '\\']) :
    scanDouble? .text g (⟨c, line, column⟩ :: more) =
      (scanDouble? .text {} more).map (.after (g.text ++ [c])) := by
  obtain ⟨quote, backslash⟩ := not_or.mp (mt List.mem_pair.mpr sign)
  rw [scanDouble?_text (isDocumentMark_eq_false (.inl (Nat.ne_of_gt away))), Cell.blank, blank,
    Cell.lineEnd, unbroken, if_neg quote, if_neg backslash]
  rfl

lemma scanDouble?_backslash (away : 0 < column) :
    scanDouble? .text g (⟨'\\', line, column⟩ :: more) = scanDouble? .backslash g more :=
  scanDouble?_text (isDocumentMark_eq_false (.inl (Nat.ne_of_gt away)))

lemma scanDouble?_letter (unbroken : isBreak letter = false) (width : escapeWidth? letter = none)
    (read : escapeOf? letter = some c) :
    scanDouble? .backslash g (⟨letter, line, column⟩ :: more) =
      (scanDouble? .text {} more).map (.after (g.text ++ [c])) := by
  change (if isBreak letter then _ else _) = _
  rw [unbroken, if_neg (by decide), width, read]
  rfl

/-- The letter that announces hexadecimal digits. -/
lemma scanDouble?_announce {width : ℕ} (unbroken : isBreak letter = false)
    (known : escapeWidth? letter = some width) :
    scanDouble? .backslash g (⟨letter, line, column⟩ :: more) =
      scanDouble? (.digits width 0) g more := by
  change (if isBreak letter then _ else _) = _
  rw [unbroken, if_neg (by decide), known]

/-- The number of hexadecimal digits, with that of the digits before. -/
def hexTotal? (value : ℕ) (ds : List Char) : Option ℕ :=
  ds.foldlM (fun value d => (Text.hexValue? d).map (value * 16 + ·)) value

lemma scanDouble?_digits {ds : List Char} {value total : ℕ} (nonempty : ds ≠ [])
    (unbroken : ds.all (!isBreak ·))
    (read : hexTotal? value ds = .some total) (char : Text.charOf? total = some c) :
    scanDouble? (.digits ds.length value) g (cellsFrom line column (ds ++ rest)) =
      (scanDouble? .text {} (cellsFrom line (column + ds.length) rest)).map
        (.after (g.text ++ [c])) := by
  induction ds generalizing value column with
  | nil => exact absurd rfl nonempty
  | cons d ds ih =>
    obtain ⟨first, unbroken⟩ := Bool.and_eq_true_iff.mp unbroken
    obtain ⟨next, hd, read⟩ := Option.bind_eq_some_iff.mp read
    obtain ⟨k, hk, rfl⟩ := Option.map_eq_some_iff.mp hd
    rw [List.cons_append, cellsFrom_cons (by simpa using first)]
    change Option.bind (Text.hexValue? d) _ = _
    rw [hk]
    change (if ds.length + 1 ≤ 1 then _ else _) = _
    cases ds with
    | nil =>
      obtain rfl := Option.some.inj read
      rw [if_pos (by decide), char]
      rfl
    | cons e ds =>
      rw [if_neg (by simp)]
      change scanDouble? (.digits (e :: ds).length _) g _ = _
      rw [ih (List.cons_ne_nil e ds) unbroken read, Nat.add_assoc, Nat.add_comm 1]
      rfl

/-- The digits are those of the number of a character. -/
structure Digits (ds : List Char) (n : ℕ) : Prop where
  nonempty : ds ≠ []
  unbroken : ds.all (!isBreak ·)
  total : hexTotal? 0 ds = some n

lemma upper_of_mem {n : ℕ} {d : Char} (h : d ∈ (Nat.toDigits 16 n).map Char.toUpper) :
    ∃ k < 16, d = k.digitChar.toUpper := by
  induction n using Nat.strongRecOn with
  | ind n ih =>
    rcases Nat.lt_or_ge n 16 with small | large
    · rw [Nat.toDigits_of_lt_base small] at h
      exact ⟨n, small, List.mem_singleton.mp h⟩
    · rw [Nat.toDigits_of_base_le (by decide) large, List.map_append] at h
      rcases List.mem_append.mp h with before | last
      · exact ih (n / 16) (Nat.div_lt_self (by omega) (by decide)) before
      · exact ⟨n % 16, Nat.mod_lt n (by decide), List.mem_singleton.mp last⟩

/-- The characters of hexadecimal digits are digits, or capital letters. -/
lemma hexDigits_mem {width n : ℕ} {d : Char} (h : d ∈ hexDigits width n) :
    ∃ k < 16, d = k.digitChar.toUpper := by
  rcases List.mem_append.mp h with zero | digit
  · exact ⟨0, by decide, List.eq_of_mem_replicate zero⟩
  · exact upper_of_mem digit

lemma hexTotal?_toDigits {n : ℕ} : hexTotal? 0 ((Nat.toDigits 16 n).map Char.toUpper) = some n := by
  have value : ∀ k < 16, Text.hexValue? k.digitChar.toUpper = some k := by decide
  induction n using Nat.strongRecOn with
  | ind n ih =>
    rcases Nat.lt_or_ge n 16 with small | large
    · rw [Nat.toDigits_of_lt_base small, List.map_singleton, hexTotal?, List.foldlM_cons,
        value n small, Nat.zero_mul]
      exact congrArg some (Nat.zero_add n)
    · have before := ih (n / 16) (Nat.div_lt_self (by omega) (by decide))
      rw [hexTotal?] at before
      rw [Nat.toDigits_of_base_le (by decide) large, List.map_append, hexTotal?, List.foldlM_append,
        before, List.map_singleton]
      change Option.bind (Option.map _ _) _ = _
      rw [value _ (Nat.mod_lt n (by decide))]
      exact congrArg some (Nat.div_add_mod' n 16)

/-- A number is read from its hexadecimal digits, with zeros before them up to a width that they fit
in. -/
lemma digits_hexDigits {width n : ℕ} (wide : 0 < width) (fits : n < Nat.pow 16 width) :
    (hexDigits width n).length = width ∧ Digits (hexDigits width n) n := by
  have length : (hexDigits width n).length = width := by
    have short : (Nat.toDigits 16 n).length ≤ width :=
      (Nat.length_toDigits_le_iff (by decide) wide).mpr fits
    rw [hexDigits, List.length_append, List.length_replicate, List.length_map,
      Nat.sub_add_cancel short]
  have zeros (k : ℕ) (ds : List Char) :
      hexTotal? 0 (List.replicate k '0' ++ ds) = hexTotal? 0 ds := by
    induction k with
    | zero => rfl
    | succ k ih => exact ih
  refine ⟨length, List.ne_nil_of_length_pos (length.symm ▸ wide), ?_,
    (zeros _ _).trans hexTotal?_toDigits⟩
  refine List.all_eq_true.mpr fun d hd => ?_
  obtain ⟨k, small, rfl⟩ := hexDigits_mem hd
  have unbroken : ∀ k < 16, (!isBreak k.digitChar.toUpper) = true := by decide
  exact unbroken k small

/-- Of the characters that cannot be written, three have a number above those of one byte. -/
lemma mem_of_not_printable (h : isPrintable c = false) (large : ¬ c.toNat < 0x100) :
    c ∈ ['\ufeff', '\ufffe', '\uffff'] := by
  simp only [isPrintable, Bool.or_eq_false_iff, Bool.and_eq_false_imp, decide_eq_true_eq,
    decide_eq_false_iff_not, not_not] at h
  have above : 0xa0 ≤ c.toNat := by omega
  exact h.2 (Char.le_def.mpr (UInt32.le_iff_toNat_le.mpr above))

lemma toNat_lt_of_not_printable (h : isPrintable c = false) (large : ¬ c.toNat < 0x100) :
    c.toNat < Nat.pow 16 4 := by
  have other := mem_of_not_printable h large
  simp only [List.mem_cons, List.not_mem_nil, or_false] at other
  rcases other with rfl | rfl | rfl
  all_goals decide

lemma charOf?_toNat : Text.charOf? c.toNat = some c := by
  rw [Text.charOf?, if_pos]
  · rw [Char.ofNat_toNat]
  · exact c.valid

/-- Hexadecimal digits after the letter that announces them. -/
lemma scanDouble?_numbered {ds : List Char} (unbroken : isBreak letter = false)
    (known : escapeWidth? letter = some ds.length) (digits : Digits ds c.toNat)
    (away : 0 < column) :
    scanDouble? .text g (cellsFrom line column ('\\' :: letter :: (ds ++ rest))) =
      (scanDouble? .text {} (cellsFrom line (column + ('\\' :: letter :: ds).length) rest)).map
        (.after (g.text ++ [c])) := by
  have place : column + ('\\' :: letter :: ds).length = column + 1 + 1 + ds.length := by
    rw [List.length_cons, List.length_cons]
    omega
  rw [cellsFrom_cons (by decide), cellsFrom_cons unbroken, scanDouble?_backslash away,
    scanDouble?_announce unbroken known, place]
  exact scanDouble?_digits digits.nonempty digits.unbroken digits.total charOf?_toNat

/-- What holds of all members of a list holds of one that is looked up. -/
lemma of_lookup {l : List (Char × Char)} {P : Char → Char → Prop} (all : ∀ m ∈ l, P m.1 m.2)
    (h : l.lookup c = some letter) : P c letter := by
  obtain ⟨before, after, rfl, -⟩ := List.lookup_eq_some_iff.mp h
  exact all (c, letter) List.mem_append_cons_self

/-- Escaping a character is undone. -/
lemma scanDouble?_escape (away : 0 < column) (space : c ≠ ' ') :
    scanDouble? .text g (cellsFrom line column (escape c ++ rest)) =
      (scanDouble? .text {} (cellsFrom line (column + (escape c).length) rest)).map
        (.after (g.text ++ [c])) := by
  rw [escape]
  cases named : escapeLetter? c with
  | some letter =>
    obtain ⟨unbroken, width, read⟩ :
      isBreak letter = false ∧ escapeWidth? letter = none ∧ escapeOf? letter = some c :=
      of_lookup (P := fun c l => isBreak l = false ∧ escapeWidth? l = none ∧ escapeOf? l = some c)
        (by decide) named
    change scanDouble? .text g (cellsFrom line column ('\\' :: letter :: rest)) = _
    rw [cellsFrom_cons (by decide), cellsFrom_cons unbroken, scanDouble?_backslash away,
      scanDouble?_letter unbroken width read]
    rfl
  | none =>
    -- what ends a line, and what means something between the quotes, has a letter
    have unnamed : c ∉ ['"', '\\', '\n', '\r', '\x85', '\u2028', '\u2029'] := by
      intro hc
      have lettered : ['"', '\\', '\n', '\r', '\x85', '\u2028', '\u2029'].all fun d =>
          (escapeLetter? d).isSome := by
        decide
      have letter := List.all_eq_true.mp lettered c hc
      rw [named] at letter
      exact absurd letter (by decide)
    dsimp only
    split_ifs with printable small
    · have blank : isBlank c = false := by
        rw [isBlank_of_printable printable, decide_eq_false space]
      have unbroken : isBreak c = false := by
        simp only [List.mem_cons, not_or] at unnamed
        simp [isBreak, unnamed]
      have sign : c ∉ ['"', '\\'] := fun h => unnamed (List.mem_append_left _ h)
      rw [List.singleton_append, cellsFrom_cons unbroken, scanDouble?_char away blank unbroken sign]
      rfl
    · obtain ⟨length, digits⟩ := digits_hexDigits (Nat.succ_pos 1) small
      rw [List.cons_append, List.cons_append]
      exact scanDouble?_numbered (by decide) (by rw [length]; rfl) digits away
    · obtain ⟨length, digits⟩ := digits_hexDigits (Nat.succ_pos 3)
        (toNat_lt_of_not_printable (Bool.eq_false_iff.mpr printable) small)
      rw [List.cons_append, List.cons_append]
      exact scanDouble?_numbered (by decide) (by rw [length]; rfl) digits away

/-- The rest of a text between double quotes, after some spaces. -/
lemma scanDouble?_rest (blanks : List Char) (away : 0 < column) :
    ScansTo (scanDouble? .text { blanks }
      (cellsFrom line column (cs.flatMap escape ++ '"' :: rest)))
      (blanks ++ cs) rest := by
  induction cs generalizing blanks column with
  | nil =>
    rw [List.flatMap_nil, List.nil_append, List.append_nil, cellsFrom_cons (by decide),
      scanDouble?_text (isDocumentMark_eq_false (.inl (Nat.ne_of_gt away)))]
    exact ⟨line, column + 1, rfl⟩
  | cons c cs ih =>
    rw [List.flatMap_cons, List.append_assoc, List.append_cons blanks]
    by_cases space : c = ' '
    · subst space
      have plain : escape ' ' = [' '] := by decide
      rw [plain, List.singleton_append, cellsFrom_cons (by decide), scanDouble?_space]
      exact ih (blanks ++ [' ']) (Nat.succ_pos column)
    · rw [scanDouble?_escape away space]
      exact (ih [] (Nat.lt_add_right _ away)).after _

end Double

/-- A text between double quotes is scanned as it was before it was written. -/
theorem scanDouble?_written (away : 0 < column) :
    ScansTo (scanDouble? .text {} (cellsFrom line column (cs.flatMap escape ++ '"' :: rest))) cs
      rest :=
  scanDouble?_rest [] away

end Interlock.Yaml

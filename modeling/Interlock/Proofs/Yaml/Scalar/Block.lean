import Interlock.Yaml.Scalar.Block
import Interlock.Proofs.Yaml.Place

/-!
# Literal scalars written and scanned

A text that is written line by line is scanned as it was before (`scanBlock?_written`). What a line
end is in the text shows only later: before another line it belongs to the text, and at the end the
sign after the bar decides which line ends stay. So the characters are followed with what the
scanner knows after each of them (`LineState`), and the sign that the writer chose fits what it
knows after the last (`says_strip`, `says_pending`).
-/

namespace Interlock.Yaml

open Scalar

variable {c : Char} {cs text rest : List Char} {line column indent : ℕ}
  {chomp : Chomp} {g : LineGap}

/-! ## What the scanner knows -/

/-- Whether the scanner is in a line of text, and the line ends since the last one. In a line there
are none. -/
structure LineState where
  inside : Bool
  gap : LineGap
  clear : inside → gap.blank = []

namespace LineState

variable {s : LineState}

/-- Before a text. -/
def start : LineState := ⟨false, {}, nofun⟩

/-- After one more character of the text. -/
def next (s : LineState) (c : Char) : LineState :=
  if isBreak c then
    if s.inside then ⟨false, { s.gap with last := some c }, nofun⟩
    else ⟨false, { s.gap with blank := s.gap.blank ++ [c] }, nofun⟩
  else if s.inside then s
  else ⟨true, { indented := isBlank c }, fun _ => rfl⟩

/-- The line ends of which it is open whether they belong to the text. -/
def pending (s : LineState) : List Char := if s.inside then [] else s.gap.last.toList ++ s.gap.blank

/-- A line end waits with those before it. -/
lemma next_break (h : isBreak c) :
    (s.next c).inside = false ∧ (s.next c).pending = s.pending ++ [c] := by
  rw [next, if_pos h]
  split_ifs with inside
  · simp [pending, inside, s.clear inside]
  · simp [pending, inside]

/-- Any other character is in a line of text. -/
lemma next_char (h : isBreak c = false) : (s.next c).inside = true := by
  rw [next, if_neg (Bool.eq_false_iff.mp h)]
  split_ifs with inside
  · exact inside
  · rfl

/-- After the characters of a text. -/
def after (s : LineState) (cs : List Char) : LineState := cs.foldl next s

lemma after_concat : s.after (cs ++ [c]) = (s.after cs).next c := List.foldl_concat ..

end LineState

/-! ## Lines -/

/-- The spaces before a line of text. -/
lemma scanLines?_indentation {n : ℕ} (h : column + n ≤ indent) :
    scanLines? false chomp indent false g (cellsFrom line column (List.replicate n ' ' ++ text)) =
      scanLines? false chomp indent false g (cellsFrom line (column + n) text) := by
  induction n generalizing column with
  | zero => rfl
  | succ n ih =>
    have left : column < indent := by omega
    rw [List.replicate_succ, List.cons_append, cellsFrom_cons (by decide), scanLines?,
      decide_eq_true left, Nat.add_comm n, ← Nat.add_assoc]
    exact ih (by omega)

/-- A block ends where a text is outdented. -/
lemma scanLines?_outdented (outside : Outdented indent rest) :
    scanLines? false chomp indent false g (cellsFrom line 0 rest) =
      some (g.chomped chomp, lineCells line rest) := by
  have pass : ∀ column < margin rest, ∀ more,
      scanLines? false chomp indent false g (⟨' ', line, column⟩ :: more) =
      scanLines? false chomp indent false g more := by
    intro column h more
    rw [scanLines?, decide_eq_true (Nat.lt_trans h outside.margin)]
    rfl
  rw [apply_lineCells pass, lineCells]
  obtain ⟨left, starts⟩ := outside
  cases h : body rest with
  | nil => rfl
  | cons c more =>
    obtain ⟨blank, next⟩ := starts c (by rw [h]; rfl)
    obtain ⟨space, tab⟩ := Bool.or_eq_false_iff.mp blank
    rw [cellsFrom_cons next, scanLines?, space, tab, Cell.lineEnd, next]
    exact if_neg (Nat.ne_of_lt left)

/-- What the scanner makes of cells. -/
def LineState.scan? (indent : ℕ) (chomp : Chomp) (s : LineState) :
    List Cell → Option (List Char × List Cell) :=
  scanLines? false chomp indent s.inside s.gap

/-- The scanner gets from some cells to later ones. What it gives out on the way, and what it keeps
in the end, is what it kept before and the text. -/
def ReadsOn (indent : ℕ) (chomp : Chomp) (s : LineState) (cells : List Cell) (text : List Char)
    (t : LineState) (later : List Cell) : Prop :=
  ∃ out, out ++ t.pending = s.pending ++ text ∧
    s.scan? indent chomp cells = (t.scan? indent chomp later).map (Prod.map (out ++ ·) id)

namespace ReadsOn

variable {s t u : LineState} {cells cells' cells'' : List Cell} {text' : List Char}

/-- Cells that are passed over. -/
lemma pass (h : s.scan? indent chomp cells = s.scan? indent chomp cells') :
    ReadsOn indent chomp s cells [] s cells' := by
  refine ⟨[], by rw [List.nil_append, List.append_nil], ?_⟩
  rw [h]
  cases s.scan? indent chomp cells'
  all_goals rfl

lemma trans (h : ReadsOn indent chomp s cells text t cells')
    (h' : ReadsOn indent chomp t cells' text' u cells'') :
    ReadsOn indent chomp s cells (text ++ text') u cells'' := by
  obtain ⟨out, kept, scanned⟩ := h
  obtain ⟨out', kept', scanned'⟩ := h'
  refine ⟨out ++ out', ?_, ?_⟩
  · rw [List.append_assoc, kept', ← List.append_assoc, kept, List.append_assoc]
  · rw [scanned, scanned', Option.map_map]
    congr 1
    funext r
    exact Prod.ext (List.append_assoc out out' r.1).symm rfl

/-- A line end. -/
lemma lineEnd (h : isBreak c) :
    ReadsOn indent chomp s (⟨c, line, column⟩ :: cells) [c] (s.next c) cells := by
  have space : c ≠ ' ' := by
    rintro rfl
    exact absurd h (by decide)
  have tab : c ≠ '\t' := by
    rintro rfl
    exact absurd h (by decide)
  refine ⟨[], (LineState.next_break h).2, ?_⟩
  have same (r : Option (List Char × List Cell)) : r.map (Prod.map ([] ++ ·) id) = r := by
    cases r
    all_goals rfl
  rw [same, LineState.scan?, LineState.scan?, LineState.next, if_pos h]
  obtain ⟨_ | _, gap, clear⟩ := s
  · rw [scanLines?, decide_eq_false space, decide_eq_false tab, Cell.lineEnd, h]
    rfl
  · rw [scanLines?, Cell.lineEnd, h]
    rfl

/-- A character in a line of text. -/
lemma char (unbroken : isBreak c = false) (place : s.inside = false → column = indent) :
    ReadsOn indent chomp s (⟨c, line, column⟩ :: cells) [c] (s.next c) cells := by
  have inside : (s.next c).pending = [] := by
    rw [LineState.pending, if_pos (LineState.next_char unbroken)]
  refine ⟨s.pending ++ [c], by rw [inside, List.append_nil], ?_⟩
  rw [LineState.scan?, LineState.scan?, LineState.next, if_neg (Bool.eq_false_iff.mp unbroken),
    LineState.pending]
  obtain ⟨_ | _, gap, clear⟩ := s
  · obtain rfl := place rfl
    rw [scanLines?, decide_eq_false (Nat.lt_irrefl column), Bool.and_false, Bool.and_false,
      Cell.lineEnd, unbroken]
    rw [if_neg (by decide), if_neg (by decide), if_neg (by decide), if_pos rfl]
    exact Option.map_congr fun r _ =>
      Prod.ext (List.append_cons (gap.last.toList ++ gap.blank) c r.1) rfl
  · rw [scanLines?, Cell.lineEnd, unbroken]
    rfl

/-- The indentation of a line, if one starts here. -/
lemma indentation (place : s.inside = false → column = 0) :
    ReadsOn indent chomp s (cellsFrom line column (lead indent (!s.inside) ++ text)) [] s
      (cellsFrom line (column + (lead indent (!s.inside)).length) text) := by
  refine pass ?_
  obtain ⟨_ | _, gap, clear⟩ := s
  · obtain rfl := place rfl
    have skipped : scanLines? false chomp indent false gap
        (cellsFrom line 0 (List.replicate indent ' ' ++ text)) = _ :=
      scanLines?_indentation (Nat.le_of_eq (Nat.zero_add indent))
    rw [lead, Bool.not_false, if_pos rfl, List.length_replicate]
    exact skipped
  · rfl

end ReadsOn

/-- The scanner reads on through the characters of a text. -/
lemma readsOn_text (s : LineState) (place : s.inside = false → column = 0) :
    ∃ line' column', ((s.after cs).inside = false → column' = 0) ∧
      ReadsOn indent chomp s
        (cellsFrom line column (indentLines indent ([·]) (!s.inside) cs ++ rest)) cs
        (s.after cs) (cellsFrom line' column' rest) := by
  induction cs generalizing s line column with
  | nil => exact ⟨line, column, place, .pass rfl⟩
  | cons c cs ih =>
    by_cases broken : isBreak c
    · have outside := (LineState.next_break (s := s) broken).1
      obtain ⟨line', column', place', later⟩ := @ih (line + 1) 0 (s.next c) fun _ => rfl
      rw [outside] at later
      refine ⟨line', column', place', ?_⟩
      rw [indentLines_break broken, List.cons_append, cellsFrom_break broken]
      exact (ReadsOn.lineEnd broken).trans later
    · have unbroken : isBreak c = false := Bool.eq_false_iff.mpr broken
      have inside := LineState.next_char (s := s) unbroken
      obtain ⟨line', column', place', later⟩ :=
        @ih line (column + (lead indent (!s.inside)).length + 1) (s.next c)
        fun outside => absurd (inside.symm.trans outside) (by decide)
      rw [inside] at later
      refine ⟨line', column', place', ?_⟩
      have start : s.inside = false → column + (lead indent (!s.inside)).length = indent := by
        intro outside
        rw [outside, place outside, lead, Bool.not_false, if_pos rfl, List.length_replicate,
          Nat.zero_add]
      rw [indentLines_char unbroken, List.append_assoc, List.singleton_append, List.cons_append]
      refine (ReadsOn.indentation place).trans ?_
      rw [cellsFrom_cons unbroken]
      exact (ReadsOn.char unbroken start).trans later

/-! ## The sign after the bar -/

/-- The sign says what becomes of the line ends at the end. -/
inductive Says : List Char → Chomp → Prop
  | strip : Says ['-'] .strip
  | keep : Says ['+'] .keep
  | clip : Says [] .clip

/-- The digit is written where the indentation cannot be seen from the text. -/
inductive Hints : List Char → Option ℕ → Prop
  | seen : Hints [] none
  | said : Hints ['2'] (some 2)

lemma readHeader?_signed {hint sign : List Char} {width : Option ℕ} (hinted : Hints hint width)
    (said : Says sign chomp) :
    ∃ column', readHeader? (cellsFrom line column (hint ++ (sign ++ '\n' :: rest))) =
      some (chomp, width, cellsFrom line column' ('\n' :: rest)) := by
  cases hinted
  all_goals cases said
  all_goals exact ⟨_, rfl⟩

lemma chompSign_concat : chompSign (cs ++ [c]) =
    if !isBreak c then ['-'] else if cs.getLast?.any (!isBreak ·) then [] else ['+'] := by
  rw [chompSign, List.reverse_concat]
  rcases List.eq_nil_or_concat' cs with rfl | ⟨init, d, rfl⟩
  · rfl
  · rw [List.reverse_concat, List.getLast?_concat, Option.any_some]
    cases h : isBreak d
    all_goals simp [h]

/-- The sign of a text that ends in a line says that no line ends stay. -/
lemma says_strip (h : isBreak c = false) : Says (chompSign (cs ++ [c])) .strip := by
  rw [chompSign_concat, h]
  exact .strip

/-- The sign of a text that ends with a line end says that what the scanner keeps in the end
stays. -/
lemma says_pending (h : isBreak c) : ∃ chomp, Says (chompSign (cs ++ [c])) chomp ∧
    (LineState.start.after (cs ++ [c])).gap.chomped chomp =
      (LineState.start.after (cs ++ [c])).pending := by
  have outside := (LineState.next_break (s := LineState.start.after cs) h).1
  rw [chompSign_concat, h, LineState.after_concat, LineState.pending, outside]
  cases one : cs.getLast?.any (!isBreak ·) with
  | false => exact ⟨.keep, .keep, rfl⟩
  | true =>
    -- the only line end is that of the last line
    refine ⟨.clip, .clip, ?_⟩
    rcases List.eq_nil_or_concat' cs with rfl | ⟨init, d, rfl⟩
    · exact absurd one (by decide)
    · have unbroken : isBreak d = false := by simpa using one
      have inside := LineState.next_char (s := LineState.start.after init) unbroken
      rw [LineState.after_concat, LineState.next, if_pos h, if_pos inside]
      have clear := ((LineState.start.after init).next d).clear inside
      dsimp only [LineGap.chomped]
      rw [clear]
      exact (List.append_nil _).symm

/-- The first line of text shows how far the lines are indented. -/
lemma widest?_lines {n : ℕ} (space : c ≠ ' ') (tab : c ≠ '\t') (unbroken : isBreak c = false) :
    widest? 0 (cellsFrom line column (List.replicate n ' ' ++ c :: rest)) = some (column + n) := by
  induction n generalizing column with
  | zero =>
    rw [List.replicate_zero, List.nil_append, cellsFrom_cons unbroken, widest?, if_neg space,
      if_neg tab, Cell.lineEnd, unbroken]
    exact congrArg some (Nat.zero_max column)
  | succ n ih =>
    rw [List.replicate_succ, List.cons_append, cellsFrom_cons (by decide), widest?, if_pos rfl, ih,
      Nat.add_right_comm, Nat.add_assoc]

/-- The digit that says how far the lines are indented, where the first line does not show it. -/
def hint (cs : List Char) : List Char :=
  if cs.head?.any isSpace then Nat.toDigits 10 Scalar.step else []

lemma writeLiteral_eq : writeLiteral indent cs =
    '|' :: (hint cs ++ (chompSign cs ++ '\n' :: indentLines indent ([·]) true cs)) := by
  rw [writeLiteral, hint, List.cons_append, List.cons_append, List.append_assoc]

/-- The indentation is said, or the first line shows it. -/
lemma hints_hint (nonempty : cs ≠ []) (printable : ∀ c ∈ cs, isPrintable c) :
    ∃ width, Hints (hint cs) width ∧ (width = none → ∀ line rest,
      widest? 0 (cellsFrom line 0 (indentLines indent ([·]) true cs ++ rest)) = some indent) := by
  cases cs with
  | nil => exact absurd rfl nonempty
  | cons c cs =>
    rw [hint, List.head?_cons, Option.any_some]
    cases white : isSpace c with
    | true => exact ⟨some 2, .said, nofun⟩
    | false =>
      obtain ⟨other, unbroken⟩ := Bool.or_eq_false_iff.mp white
      have space : c ≠ ' ' := of_decide_eq_false other
      have tab : c ≠ '\t' := by
        rintro rfl
        exact absurd (printable '\t' List.mem_cons_self) (by decide)
      refine ⟨none, .seen, fun _ line rest => ?_⟩
      rw [indentLines_char unbroken, lead, if_pos rfl, List.append_assoc]
      exact (widest?_lines space tab unbroken).trans (congrArg some (Nat.zero_add indent))

lemma endsBroken_concat : endsBroken (cs ++ [c]) = isBreak c := by
  rw [endsBroken, List.getLast?_concat, Option.any_some]

/-- With the sign that the writer chooses, the lines of a text are scanned up to a text that is
outdented. -/
lemma scanLines?_written (nonempty : cs ≠ []) (outside : Outdented indent rest) :
    ∃ chomp line', Says (chompSign cs) chomp ∧
    scanLines? false chomp indent false {} (cellsFrom line 0
        (indentLines indent ([·]) true cs ++ ((if endsBroken cs then [] else ['\n']) ++ rest))) =
      some (cs, lineCells line' rest) := by
  have reads (chomp : Chomp) :=
    @readsOn_text cs ((if endsBroken cs then [] else ['\n']) ++ rest) line 0 indent chomp
    .start fun _ => rfl
  obtain rfl | ⟨init, c, rfl⟩ := List.eq_nil_or_concat' cs
  · exact absurd rfl nonempty
  by_cases broken : isBreak c
  · -- the last line is complete
    obtain ⟨chomp, said, fits⟩ := @says_pending c init broken
    obtain ⟨line', column', place, out, kept, scanned⟩ := reads chomp
    have outside' : (LineState.start.after (init ++ [c])).inside = false := by
      rw [LineState.after_concat]
      exact (LineState.next_break broken).1
    have complete : endsBroken (init ++ [c]) = true := endsBroken_concat.trans broken
    have kept : out ++ _ = init ++ [c] := kept
    refine ⟨chomp, line', said, scanned.trans ?_⟩
    rw [LineState.scan?, outside', place outside', complete, if_pos rfl, List.nil_append,
      scanLines?_outdented outside, fits]
    exact congrArg some (Prod.ext kept rfl)
  · -- the writer completes the last line
    have unbroken : isBreak c = false := Bool.eq_false_iff.mpr broken
    obtain ⟨line', column', -, out, kept, scanned⟩ := reads .strip
    have inside : (LineState.start.after (init ++ [c])).inside = true := by
      rw [LineState.after_concat]
      exact LineState.next_char unbroken
    have open' : endsBroken (init ++ [c]) = false := endsBroken_concat.trans unbroken
    have kept : out ++ _ = init ++ [c] := kept
    rw [LineState.pending, if_pos inside, List.append_nil] at kept
    have ended : (⟨'\n', line', column'⟩ : Cell).lineEnd := rfl
    refine ⟨.strip, line' + 1, says_strip unbroken, scanned.trans ?_⟩
    rw [LineState.scan?, inside, open', if_neg (by decide), List.singleton_append,
      cellsFrom_break (by decide), scanLines?, if_pos ended, scanLines?_outdented outside]
    exact congrArg some (Prod.ext ((List.append_nil out).trans kept) rfl)

/-- A text that is written line by line is scanned as it was before. The lines are indented by two
columns more than those of the parent. -/
theorem scanBlock?_written {parent : ℕ} (nonempty : cs ≠ []) (printable : ∀ c ∈ cs, isPrintable c)
    (outside : Outdented (parent + 2) rest) :
    ∃ line', scanBlock? false (some parent) (cellsFrom line column (hint cs ++ (chompSign cs ++
        '\n' :: (indentLines (parent + 2) ([·]) true cs ++
          ((if endsBroken cs then [] else ['\n']) ++ rest))))) =
      some (cs, lineCells line' rest) := by
  obtain ⟨chomp, line', said, scanned⟩ := @scanLines?_written cs rest (line + 1) _ nonempty outside
  obtain ⟨width, hinted, wide⟩ := hints_hint nonempty printable
  obtain ⟨column', header⟩ := @readHeader?_signed (indentLines (parent + 2) ([·]) true cs ++
    ((if endsBroken cs then [] else ['\n']) ++ rest)) line column chomp _ _ width hinted said
  refine ⟨line', ?_⟩
  have next (x : List Char) : skipLine? (cellsFrom line column' ('\n' :: x)) =
      some (cellsFrom (line + 1) 0 x) := rfl
  rw [scanBlock?, header]
  simp only [bind, Option.bind, next]
  generalize hint cs = digits at hinted
  cases hinted with
  | said => exact scanned
  | seen =>
    have deeper : max (max (parent + 1) 1) (parent + 2) = parent + 2 := by omega
    rw [wide rfl _ _, Option.map_some, Option.elim_some, deeper]
    exact scanned

end Interlock.Yaml

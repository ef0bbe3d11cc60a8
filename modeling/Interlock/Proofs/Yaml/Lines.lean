import Interlock.Yaml.Lines
import Interlock.Proofs.Yaml.Lexing
import Interlock.Proofs.Yaml.Numbers
import Interlock.Proofs.Yaml.Reading

/-!
# Values written line by line

A value that is written behind a name has tokens that spell a node (`tokenizes`), and a record that
is written as a text of its own is read as its node (`ofTokens?_writeRecord`). The lexer reads each
line with whatever follows it, so the fields of a record are lexed from the last to the first. What
follows a record in a field is outdented, and that ends its block.
-/

namespace Interlock.Yaml

open Scalar Document

variable {name : String} {text rest : List Char} {col : ℕ} {indents : List ℕ} {out : List Token}
  {v : Value} {fields : List (String × Value)}

/-- The node of a scalar that is written as it stands. -/
def wordNode (word : String) : Node := .scalar none .plain word.toList

/-- The node of a text, in the style that is chosen for it. -/
def textNode (s : String) : Node := .scalar none (style s.toList) s.toList

mutual

/-- The node that a value is read as. -/
def node : Value → Node
  | .null => wordNode "null"
  | .truth b => wordNode (toString b)
  | .number n => wordNode (toString n)
  | .text s | .variant s => textNode s
  | .texts ss => .sequence (ss.map textNode)
  | .record fields => .mapping (memberNodes fields)

/-- The members of the mapping that a record is read as. -/
def memberNodes : List (String × Value) → List (Node × Node)
  | [] => []
  | (name, v) :: fields => (wordNode name, node v) :: memberNodes fields

end

/-- A name may stand before a colon. -/
lemma width_name (h : IsName name) : name.toList.length ≤ Candidate.widthLimit :=
  Nat.le_trans h.short (by decide)

lemma isWord_truth (b : Bool) : IsWord (toString b).toList := by
  cases b
  all_goals decide

lemma isWord_number (n : ℕ) : IsWord (toString n).toList := by
  rw [Node.toList_number]
  refine ⟨Nat.toDigits_ne_nil, List.all_eq_true.mpr fun c hc => ?_⟩
  rw [isWordChar, Resolution.isDigit_toDigits c hc, Bool.true_or, Bool.true_or]

/-! ## Lines -/

lemma fieldLines_cons : fieldLines col ((name, v) :: fields) ++ rest =
    List.replicate col ' ' ++
      (name.toList ++ ':' :: (valueLines col v ++ (fieldLines col fields ++ rest))) := by
  rw [fieldLines]
  simp only [List.append_assoc, List.cons_append]

lemma wordLine_append {word : String} :
    wordLine word ++ rest = ' ' :: (word.toList ++ '\n' :: rest) := by
  rw [wordLine, List.cons_append, List.append_assoc, List.singleton_append]

/-- White space follows the colon. -/
lemma valueLines_cons : ∃ d text, valueLines col v = d :: text ∧ (isBlank d ∨ isBreak d) := by
  cases v with
  | texts ss =>
    cases ss with
    | nil => exact ⟨_, _, rfl, .inl rfl⟩
    | cons s ss => exact ⟨_, _, rfl, .inr rfl⟩
  | record fields =>
    cases fields with
    | nil => exact ⟨_, _, rfl, .inl rfl⟩
    | cons f fields => exact ⟨_, _, rfl, .inr rfl⟩
  | _ => exact ⟨_, _, rfl, .inl rfl⟩

/-- Fields start in their column. -/
lemma resumes_fieldLines (names : ∀ f ∈ fields, IsName f.1) (resumes : Resumes col rest) :
    Resumes col (fieldLines col fields ++ rest) := by
  cases fields with
  | nil => exact resumes
  | cons f fields =>
    obtain ⟨name, v⟩ := f
    obtain ⟨nonempty, words⟩ := (names _ List.mem_cons_self).word
    rw [fieldLines_cons]
    dsimp only at nonempty words
    generalize name.toList = letters at nonempty words
    cases letters with
    | nil => exact absurd rfl nonempty
    | cons c cs => exact .indented (.of_word (List.all_eq_true.mp words c List.mem_cons_self))

/-- Fields further to the right than all before them open a block. -/
lemma opens_fieldLines (nonempty : fields ≠ []) (names : ∀ f ∈ fields, IsName f.1)
    (right : ∀ i ∈ indents.head?, i < col)
    (h : Lexes (col :: indents) (fieldLines col fields ++ rest) out) :
    Lexes indents (fieldLines col fields ++ rest) (.blockMapping :: out) := by
  cases fields with
  | nil => exact absurd rfl nonempty
  | cons f fields =>
    obtain ⟨name, v⟩ := f
    have named := names _ List.mem_cons_self
    obtain ⟨d, text, lines, ends⟩ := @valueLines_cons col v
    rw [fieldLines_cons, lines] at h ⊢
    exact .opening named.word (width_name named) ends right h

/-- The items of a list are lexed one after the other. -/
lemma lexes_items {ss : List String} (h : Lexes (col :: indents) rest out)
    (outside : Outdented (col + 1) rest) :
    Outdented (col + 1) (ss.flatMap (itemLine col) ++ rest) ∧
      Lexes (col :: indents) (ss.flatMap (itemLine col) ++ rest)
        (Node.itemTokens (ss.map fun s => (style s.toList, s.toList)) ++ out) := by
  induction ss with
  | nil => exact ⟨outside, h⟩
  | cons s ss ih =>
    have more : (s :: ss).flatMap (itemLine col) ++ rest = List.replicate col ' ' ++
        '-' :: ' ' :: (write (col + 2) s.toList ++ (ss.flatMap (itemLine col) ++ rest)) := by
      simp [itemLine, Scalar.step]
    rw [more]
    exact ⟨.indented (Nat.lt_succ_self col) (by decide) (by decide), .item (.written ih.2 ih.1)⟩

/-! ## Tokens -/

/-- Behind a name, the value has tokens that spell its node. -/
structure Tokenizes (v : Value) : Prop where
  lexes {col : ℕ} {indents : List ℕ} {rest : List Char} {out : List Token} {name : String} :
    IsName name → Lexes (col :: indents) rest out → Resumes col rest →
    ∃ ts, Node.Spells ts (node v) ∧ Lexes (col :: indents)
      (List.replicate col ' ' ++ (name.toList ++ ':' :: (valueLines col v ++ rest)))
      (.key :: .scalar .plain name.toList :: .value :: (ts ++ out))

namespace Tokenizes

lemma ofWord {word : String} (written : ∀ col, valueLines col v = wordLine word)
    (read : node v = wordNode word) (letters : IsWord word.toList) : Tokenizes v := by
  refine ⟨fun named h resumes => ?_⟩
  rw [written, wordLine_append, read]
  exact ⟨_, .scalar, .named named.word (width_name named)
    (.plain h (isPlain_of_word letters) resumes.outdented)⟩

lemma ofText {s : String} (written : ∀ col, valueLines col v = ' ' :: write (col + 2) s.toList)
    (read : node v = textNode s) : Tokenizes v := by
  refine ⟨fun named h resumes => ?_⟩
  rw [written, List.cons_append, read]
  exact ⟨_, .scalar, .named named.word (width_name named)
    (.written h resumes.outdented)⟩

lemma ofTexts (ss : List String) : Tokenizes (.texts ss) := by
  refine ⟨fun named h resumes => ?_⟩
  have short := width_name named
  cases ss with
  | nil => exact ⟨_, .brackets, .named named.word short (.brackets h)⟩
  | cons s ss =>
    have items := Node.Spells.items (List.cons_ne_nil (style s.toList, s.toList)
      (ss.map fun s => (style s.toList, s.toList)))
    rw [← List.map_cons (f := fun s : String => (style s.toList, s.toList)), Node.itemNodes,
      List.map_map] at items
    exact ⟨_, items, .header named.word short (lexes_items h resumes.outdented).2⟩

/-- Fields have tokens that spell the members of the record. -/
lemma ofFields (names : ∀ f ∈ fields, IsName f.1) (values : ∀ f ∈ fields, Tokenizes f.2)
    (h : Lexes (col :: indents) rest out) (resumes : Resumes col rest) :
    ∃ ts, Node.SpellsMembers ts (memberNodes fields) ∧
      Lexes (col :: indents) (fieldLines col fields ++ rest) (ts ++ out) := by
  induction fields with
  | nil => exact ⟨[], .nil, h⟩
  | cons f fields ih =>
    obtain ⟨name, v⟩ := f
    obtain ⟨named, names⟩ := List.forall_mem_cons.mp names
    obtain ⟨value, values⟩ := List.forall_mem_cons.mp values
    obtain ⟨ts, members, lexes⟩ := ih names values
    obtain ⟨vs, spelled, first⟩ := value.lexes named lexes (resumes_fieldLines names resumes)
    refine ⟨_, .cons spelled members, ?_⟩
    rw [fieldLines_cons, List.cons_append, List.cons_append, List.cons_append, List.append_assoc]
    exact first

lemma ofRecord (nonempty : fields ≠ []) (names : ∀ f ∈ fields, IsName f.1)
    (values : ∀ f ∈ fields, Tokenizes f.2) : Tokenizes (.record fields) := by
  refine ⟨fun {col} _ _ _ _ named h resumes => ?_⟩
  have deeper : col < col + Scalar.step := Nat.lt_add_of_pos_right (by decide)
  -- behind the fields the block ends, and what follows is lexed as it is without them
  obtain ⟨ts, members, lexes⟩ :=
    ofFields names values (h.dedent resumes deeper) (resumes.mono (Nat.le_of_lt deeper))
  have block := opens_fieldLines nonempty names (by simpa using deeper) lexes
  refine ⟨_, .mapping members, ?_⟩
  rw [List.cons_append, List.append_assoc, List.singleton_append]
  cases fields with
  | nil => exact absurd rfl nonempty
  | cons f fields =>
    exact .header named.word (width_name named) block

end Tokenizes

theorem tokenizes (h : Writable v) : Tokenizes v := by
  induction h with
  | truth b => exact .ofWord (fun _ => rfl) rfl (isWord_truth b)
  | @number n _ => exact .ofWord (fun _ => rfl) rfl (isWord_number n)
  | text s => exact .ofText (fun _ => rfl) rfl
  | variant _ => exact .ofText (fun _ => rfl) rfl
  | texts ss => exact .ofTexts ss
  | record nonempty _ names _ ih => exact .ofRecord nonempty names ih

/-! ## Characters -/

lemma printable_word {word : List Char} (h : IsWord word) : ∀ c ∈ word, isPrintable c :=
  fun c hc => isPrintable_of_word (List.all_eq_true.mp h.chars c hc)

lemma printable_wordLine {word : String} (h : ∀ c ∈ word.toList, isPrintable c) :
    ∀ c ∈ wordLine word, isPrintable c :=
  List.forall_mem_cons.mpr ⟨by decide, List.forall_mem_append.mpr ⟨h, List.forall_mem_singleton.mpr
    (by decide)⟩⟩

lemma printable_itemLines (ss : List String) : ∀ c ∈ ss.flatMap (itemLine col), isPrintable c := by
  intro c hc
  obtain ⟨s, -, hs⟩ := List.mem_flatMap.mp hc
  have line : ∀ c ∈ itemLine col s, isPrintable c := List.forall_mem_append.mpr ⟨printable_spaces,
    List.forall_mem_cons.mpr ⟨by decide, List.forall_mem_cons.mpr ⟨by decide, isPrintable_write⟩⟩⟩
  exact line c hs

lemma printable_fieldLines (names : ∀ f ∈ fields, IsName f.1)
    (values : ∀ f ∈ fields, ∀ col, ∀ c ∈ valueLines col f.2, isPrintable c) :
    ∀ c ∈ fieldLines col fields, isPrintable c := by
  induction fields with
  | nil => exact nofun
  | cons f fields ih =>
    obtain ⟨name, v⟩ := f
    obtain ⟨named, names⟩ := List.forall_mem_cons.mp names
    obtain ⟨value, values⟩ := List.forall_mem_cons.mp values
    rw [fieldLines]
    refine List.forall_mem_append.mpr ⟨List.forall_mem_append.mpr ⟨printable_spaces, ?_⟩,
      ih names values⟩
    exact List.forall_mem_append.mpr ⟨printable_word named.word,
      List.forall_mem_cons.mpr ⟨by decide, value col⟩⟩

lemma printable_valueLines (h : Writable v) : ∀ col, ∀ c ∈ valueLines col v, isPrintable c := by
  induction h with
  | truth b => exact fun _ => printable_wordLine (printable_word (isWord_truth b))
  | @number n _ => exact fun _ => printable_wordLine (printable_word (isWord_number n))
  | text s => exact fun _ => List.forall_mem_cons.mpr ⟨by decide, isPrintable_write⟩
  | variant _ => exact fun _ => List.forall_mem_cons.mpr ⟨by decide, isPrintable_write⟩
  | texts ss =>
    intro col
    cases ss with
    | nil => exact printable_wordLine (List.all_eq_true.mp (by decide))
    | cons s ss => exact List.forall_mem_cons.mpr ⟨by decide, printable_itemLines (s :: ss)⟩
  | @record fields nonempty _ names _ ih =>
    intro col
    cases fields with
    | nil => exact absurd rfl nonempty
    | cons f fields => exact List.forall_mem_cons.mpr ⟨by decide, printable_fieldLines names ih⟩

/-! ## Whole texts -/

lemma toList_writeRecord (nonempty : fields ≠ []) :
    (writeRecord fields).toList = fieldLines 0 fields := by
  cases fields with
  | nil => exact absurd rfl nonempty
  | cons f fields => exact String.toList_ofList

/-- A record that is written as a text of its own is read as its node. -/
theorem ofTokens?_writeRecord (h : Writable (.record fields)) :
    (tokens? (writeRecord fields).toList).bind Node.ofTokens? = some (node (.record fields)) := by
  cases h with
  | record nonempty _ names values =>
    have ended : Lexes [0] [] [.blockEnd] := .nil
    obtain ⟨ts, members, lexes⟩ :=
      Tokenizes.ofFields names (fun f hf => tokenizes (values f hf)) ended .nil
    have outermost : ∀ i ∈ ([] : List ℕ).head?, i < 0 := nofun
    have block := opens_fieldLines nonempty names outermost lexes
    rw [List.append_nil] at block
    have printable : ∀ c ∈ fieldLines 0 fields, isPrintable c :=
      printable_fieldLines names fun f hf => printable_valueLines (values f hf)
    rw [toList_writeRecord nonempty, tokens?_of_lexes block printable]
    exact Node.ofTokens?_mapping members

end Interlock.Yaml

import Interlock.Json.Lexer
import Interlock.Json.Value
import Mathlib.Data.Nat.Digits.Defs
import Mathlib.Tactic.IntervalCases

/-!
# Tokens of written values

The lexer takes the text of a value apart into the tokens that the value was put together from
(`Value.tokens`). Whatever text follows is lexed as if it stood alone (`LexMode.run_chars`), for a
value is followed by a comma, a line break or nothing, and so its last token ends where the value
does.
-/

namespace Interlock.Json

/-! ## Tokens -/

/-- The digits of a number, latest first. Zero has one digit. -/
def digitsOf (n : ℕ) : List ℕ := if n = 0 then [0] else Nat.digits 10 n

/-- The numeral of a whole number. -/
def Numeral.ofWhole : ℤ → Numeral
  | .ofNat n => { whole := (digitsOf n).reverse }
  | .negSucc n => { negative := true, whole := (digitsOf (n + 1)).reverse }

namespace Value

mutual

/-- The tokens of a value. -/
def tokens : Value → List Token
  | null => [.scalar .null]
  | bool b => [.scalar (.bool b)]
  | whole n => [.scalar (.number (.ofWhole n))]
  | text s => [.scalar (.text s)]
  | array [] => [.openArray, .closeArray]
  | array (v :: rest) => .openArray :: tokens v ++ itemTokens rest ++ [.closeArray]
  | object [] => [.openObject, .closeObject]
  | object ((key, v) :: rest) =>
    .openObject :: .scalar (.text key) :: .colon :: tokens v ++ memberTokens rest ++ [.closeObject]

/-- The tokens of the items after the first. -/
def itemTokens : List Value → List Token
  | [] => []
  | v :: rest => .comma :: tokens v ++ itemTokens rest

/-- The tokens of the members after the first. -/
def memberTokens : List (String × Value) → List Token
  | [] => []
  | (key, v) :: rest => .comma :: .scalar (.text key) :: .colon :: tokens v ++ memberTokens rest

end

end Value

namespace LexMode

variable {c : Char} {d : Draft} {n : ℕ} {negative : Bool} {acc cs rest : List Char}

/-! ## Numerals -/

/-- A whole number whose digits have been read. -/
def wholeRead (negative : Bool) (n : ℕ) : OpenNumeral where
  part := if n = 0 then .zero else .whole
  negative := negative
  whole := digitsOf n

lemma wholeRead_pos (hn : 0 < n) :
    wholeRead negative n = { part := .whole, negative, whole := Nat.digits 10 n } := by
  rw [wholeRead, if_neg hn.ne', digitsOf, if_neg hn.ne']

lemma digit?_digitChar {k : ℕ} (hk : k < 10) : OpenNumeral.digit? k.digitChar = some k := by
  rw [OpenNumeral.digit?, if_pos (Nat.isDigit_digitChar.trans (decide_eq_true hk)),
    Nat.toNat_digitChar_of_lt_ten hk]
  exact congrArg some (Nat.add_sub_cancel_left ..)

/-- The first digit of a number. -/
lemma extend?_sign {k : ℕ} (hk : k < 10) :
    OpenNumeral.extend? { part := .sign, negative } k.digitChar = some (wholeRead negative k) := by
  unfold OpenNumeral.extend?
  rw [digit?_digitChar hk]
  cases k with
  | zero => rfl
  | succ k =>
    rw [wholeRead_pos k.succ_pos, Nat.digits_of_lt 10 _ k.succ_ne_zero hk]
    rfl

/-- A further digit of a number other than zero. -/
lemma extend?_wholeRead {k : ℕ} (hk : k < 10) (hn : 0 < n) :
    (wholeRead negative n).extend? k.digitChar = some (wholeRead negative (10 * n + k)) := by
  rw [wholeRead_pos hn, wholeRead_pos (by omega), Nat.add_comm,
    Nat.digits_add 10 (by decide) k n hk (.inr hn.ne')]
  unfold OpenNumeral.extend?
  rw [digit?_digitChar hk]

lemma run_digit {p q : OpenNumeral} (h : p.extend? c = some q) :
    run (numeral p) (c :: rest) = run (numeral q) rest := by
  rw [run, step, h]
  rfl

/-- The digits of a number are read one after the other. -/
lemma run_toDigits : run (numeral { part := .sign, negative }) (Nat.toDigits 10 n ++ rest) =
    run (numeral (wholeRead negative n)) rest := by
  induction n using Nat.strongRec generalizing rest with
  | ind n ih =>
    rcases Nat.lt_or_ge n 10 with small | large
    · rw [Nat.toDigits_of_lt_base small, List.singleton_append]
      exact run_digit (extend?_sign small)
    · have left : n % 10 < 10 := Nat.mod_lt n (by decide)
      rw [Nat.toDigits_of_base_le (by decide) large, List.append_assoc, List.singleton_append,
        ih _ (Nat.div_lt_self (by omega) (by decide)),
        run_digit (extend?_wholeRead left (Nat.div_pos large (by decide))), Nat.div_add_mod]

/-- What may come after a value: the end of the text, a comma or a line break. -/
def Delimited (rest : List Char) : Prop := ∀ c ∈ rest.head?, c = ',' ∨ c = '\n'

lemma Delimited.nil : Delimited [] := fun _ h => nomatch h

lemma extend?_delimiter (h : c = ',' ∨ c = '\n') : (wholeRead negative n).extend? c = none := by
  rw [wholeRead]
  rcases h with rfl | rfl
  · split_ifs
    · rfl
    · rfl
  · split_ifs
    · rfl
    · rfl

lemma close?_wholeRead : (wholeRead negative n).close? =
    some { negative, whole := (digitsOf n).reverse } := by
  rw [wholeRead]
  split_ifs
  · rfl
  · rfl

/-- A number ends at what follows it. -/
lemma run_wholeRead (h : Delimited rest) : run (numeral (wholeRead negative n)) rest =
    .scalar (.number { negative, whole := (digitsOf n).reverse }) :: run between rest := by
  cases rest with
  | nil => rw [run, finish, close?_wholeRead]; rfl
  | cons c rest =>
    have delimiter := h c rfl
    have other : ¬ c.isDigit := by rcases delimiter with rfl | rfl <;> decide
    rw [run, step, extend?_delimiter delimiter]
    dsimp only
    rw [close?_wholeRead]
    dsimp only
    rw [if_neg fun h => other h.2]
    rfl

/-- A digit begins a number. -/
lemma step_digit {k : ℕ} (hk : k < 10) :
    step between k.digitChar = step (numeral { part := .sign }) k.digitChar := by
  interval_cases k <;> rfl

/-- The digits of a number begin with a digit. -/
lemma exists_toDigits (n : ℕ) : ∃ k cs, k < 10 ∧ Nat.toDigits 10 n = k.digitChar :: cs := by
  induction n using Nat.strongRec with
  | ind n ih =>
    rcases Nat.lt_or_ge n 10 with small | large
    · exact ⟨n, [], small, Nat.toDigits_of_lt_base small⟩
    · obtain ⟨k, cs, hk, h⟩ := ih (n / 10) (Nat.div_lt_self (by omega) (by decide))
      refine ⟨k, cs ++ [(n % 10).digitChar], hk, ?_⟩
      rw [Nat.toDigits_of_base_le (by decide) large, h, List.cons_append]

lemma run_wholeChars {i : ℤ} (h : Delimited rest) :
    run between (Value.wholeChars i ++ rest) =
      .scalar (.number (.ofWhole i)) :: run between rest := by
  cases i with
  | ofNat n =>
    -- without a sign the lexer learns from the first digit that there is a number
    obtain ⟨k, cs, hk, hn⟩ := exists_toDigits n
    have digits : run (numeral { part := .sign }) (Nat.toDigits 10 n ++ rest) = _ :=
      run_toDigits.trans (run_wholeRead h)
    rw [hn, List.cons_append, run, ← step_digit hk] at digits
    rw [Value.wholeChars, hn, List.cons_append, run]
    exact digits
  | negSucc n => exact (run_toDigits (n := n + 1)).trans (run_wholeRead h)

/-! ## Strings -/

/-- The digits of an escape by number. -/
lemma codeUnit?_hexDigit {k : ℕ} (hk : k < 32) :
    codeUnit? [Value.hexDigit (k % 16), Value.hexDigit (k / 16), '0', '0'] = some k := by
  revert k
  decide

lemma utf8Size_hexDigit {k : ℕ} (hk : k < 16) : (Value.hexDigit k).utf8Size = 1 := by
  revert k
  decide

lemma pushUnit_control {part : TextPart} {k : ℕ} (hk : k < 32) :
    pushUnit { chars := acc, part } none k = { chars := Char.ofNat k :: acc } := by
  have leads : ¬ 0xd800 ≤ k := by omega
  have trails : ¬ 0xdc00 ≤ k := by omega
  simp [pushUnit, leads, trails]

/-- A control character that is escaped by number. -/
lemma run_numbered {k : ℕ} (hk : k < 32) :
    run (text { chars := acc })
      (['\\', 'u', '0', '0', Value.hexDigit (k / 16), Value.hexDigit (k % 16)] ++ rest) =
      run (text { chars := Char.ofNat k :: acc }) rest := by
  -- the digits are looked at when there are four bytes of them
  have third (t : OpenText) : stepDigits t none ['0', '0'] (Value.hexDigit (k / 16)) =
      ([], text { t with part := .digits none [Value.hexDigit (k / 16), '0', '0'] }) := by
    rw [stepDigits, if_pos]
    rw [List.foldl_cons, utf8Size_hexDigit (by omega)]
    decide
  have fourth (t : OpenText) :
      stepDigits t none [Value.hexDigit (k / 16), '0', '0'] (Value.hexDigit (k % 16)) =
        ([], text (pushUnit t none k)) := by
    rw [stepDigits, if_neg, codeUnit?_hexDigit hk]
    rw [List.foldl_cons, utf8Size_hexDigit (by omega), List.foldl_cons,
      utf8Size_hexDigit (by omega)]
    decide
  change run (text { chars := acc, part := .digits none ['0', '0'] })
    (Value.hexDigit (k / 16) :: Value.hexDigit (k % 16) :: rest) = _
  rw [run, step, stepText]
  dsimp only
  rw [third, run, step, stepText]
  dsimp only
  rw [fourth, pushUnit_control hk]
  rfl

/-- Escaping a character is undone. -/
lemma run_escape : run (text { chars := acc }) (Value.escape c ++ rest) =
    run (text { chars := c :: acc }) rest := by
  unfold Value.escape
  split_ifs with quote backslash feed carriage tab back form control
  · rw [quote]; rfl
  · rw [backslash]; rfl
  · rw [feed]; rfl
  · rw [carriage]; rfl
  · rw [tab]; rfl
  · rw [back]; rfl
  · rw [form]; rfl
  · rw [run_numbered control, Char.ofNat_toNat]
  · rw [List.singleton_append, run, step, stepText]
    dsimp only
    rw [stepPlain, if_neg quote, if_neg backslash, if_neg control]
    rfl

/-- Escaping a string is undone. -/
lemma run_flatMap_escape : run (text { chars := acc }) (cs.flatMap Value.escape ++ rest) =
    run (text { chars := cs.reverse ++ acc }) rest := by
  induction cs generalizing acc with
  | nil => rfl
  | cons c cs ih =>
    rw [List.flatMap_cons, List.append_assoc, run_escape, ih, List.reverse_cons, List.append_assoc,
      List.singleton_append]

lemma run_quoted {s : String} :
    run between (Value.quoted s ++ rest) = .scalar (.text s) :: run between rest := by
  have body : run (text {}) (s.toList.flatMap Value.escape ++ '"' :: rest) = _ := run_flatMap_escape
  have closed : step (text { chars := s.toList.reverse ++ [] }) '"' =
    ([.scalar (.text s)], between) := by
    change ([Token.scalar (.text (String.ofList (s.toList.reverse ++ []).reverse))], between) = _
    rw [List.append_nil, List.reverse_reverse, String.ofList_toList]
  rw [run, closed] at body
  rw [Value.quoted, List.append_assoc]
  exact body

/-! ## Values -/

/-- A word ends with its last letter. -/
lemma run_word : run (word [] d) rest = .scalar d :: run between rest := by
  cases rest with
  | nil => rfl
  | cons c rest => rfl

lemma run_newline {depth : ℕ} : run between (Value.newline depth ++ rest) = run between rest := by
  have blanks : ∀ k, run between (List.replicate k ' ' ++ rest) = run between rest := by
    intro k
    induction k with
    | zero => rfl
    | succ k ih => exact ih
  exact blanks _

lemma Delimited.newline {depth : ℕ} : Delimited (Value.newline depth ++ rest) := by
  rintro c ⟨⟩
  exact .inr rfl

lemma Delimited.items {depth : ℕ} {l : List Value} (h : Delimited rest) :
    Delimited (Value.itemChars depth l ++ rest) := by
  cases l with
  | nil => exact h
  | cons v l =>
    rintro c ⟨⟩
    exact .inl rfl

lemma Delimited.members {depth : ℕ} {l : List (String × Value)} (h : Delimited rest) :
    Delimited (Value.memberChars depth l ++ rest) := by
  cases l with
  | nil => exact h
  | cons v l =>
    rintro c ⟨⟩
    exact .inl rfl

mutual

/-- The text of a value consists of its tokens. -/
theorem run_chars {rest : List Char} (h : Delimited rest) (depth : ℕ) :
    ∀ v : Value, run between (v.chars depth ++ rest) = v.tokens ++ run between rest
  | .null => run_word
  | .bool true => run_word
  | .bool false => run_word
  | .whole n => run_wholeChars h
  | .text s => run_quoted
  | .array [] => rfl
  | .array (v :: l) => by
    -- the closing bracket has a line of its own, so the last item is delimited like the others
    have close : Delimited (Value.newline depth ++ ']' :: rest) := .newline
    rw [Value.chars, Value.tokens]
    simp only [List.append_assoc, List.cons_append, List.nil_append]
    change .openArray :: run between (Value.newline (depth + 1) ++ _) = _
    rw [run_newline, run_chars close.items, run_itemChars close, run_newline]
    rfl
  | .object [] => rfl
  | .object ((key, v) :: l) => by
    have close : Delimited (Value.newline depth ++ '}' :: rest) := .newline
    rw [Value.chars, Value.tokens]
    simp only [List.append_assoc, List.cons_append, List.nil_append]
    change .openObject :: run between (Value.newline (depth + 1) ++ _) = _
    rw [run_newline, run_quoted]
    change .openObject :: .scalar (.text key) :: .colon ::
      run between (v.chars (depth + 1) ++ _) = _
    rw [run_chars close.members, run_memberChars close, run_newline]
    rfl

/-- The items after the first, each with the comma before it. -/
lemma run_itemChars {rest : List Char} (h : Delimited rest) (depth : ℕ) :
    ∀ l : List Value, run between (Value.itemChars depth l ++ rest) =
      Value.itemTokens l ++ run between rest
  | [] => rfl
  | v :: l => by
    rw [Value.itemChars, Value.itemTokens]
    simp only [List.append_assoc, List.cons_append]
    change .comma :: run between (Value.newline depth ++ _) = _
    rw [run_newline, run_chars h.items, run_itemChars h]

/-- The members after the first, each with the comma before it. -/
lemma run_memberChars {rest : List Char} (h : Delimited rest) (depth : ℕ) :
    ∀ l : List (String × Value),
      run between (Value.memberChars depth l ++ rest) = Value.memberTokens l ++ run between rest
  | [] => rfl
  | (key, v) :: l => by
    rw [Value.memberChars, Value.memberTokens]
    simp only [List.append_assoc, List.cons_append]
    change .comma :: run between (Value.newline depth ++ _) = _
    rw [run_newline, run_quoted]
    change .comma :: .scalar (.text key) :: .colon :: run between (v.chars depth ++ _) = _
    rw [run_chars h.members, run_memberChars h]

end

end LexMode

/-- The tokens of a text that is written for a value are those of the value. -/
theorem tokens_render (v : Value) : tokens v.render.toList = v.tokens := by
  have whole : LexMode.run .between (v.chars 0 ++ []) = _ := LexMode.run_chars .nil 0 v
  rw [List.append_nil] at whole
  rw [Value.render, String.toList_ofList, tokens, whole]
  exact List.append_nil _

end Interlock.Json

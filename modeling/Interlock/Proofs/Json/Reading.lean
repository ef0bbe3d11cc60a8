import Interlock.Json.Reader
import Interlock.Proofs.Json.Lexing

/-!
# Drafts of written values

A value that has been written is read as a whole: the tokens of a value take the reader from where
it waits for one to where it has it (`Draft.read_tokens`), whatever is open around the value and
whatever follows. So the draft of a written text has no place where the text would stop being JSON
(`Document.ofText_render`).
-/

namespace Interlock.Json

namespace Value

mutual

/-- A value as it is read. -/
def draft : Value → Draft
  | null => .null
  | bool b => .bool b
  | whole n => .number (.ofWhole n)
  | text s => .text s
  | array items => .array (itemDrafts items) none
  | object members => .object (memberDrafts members) none

/-- Items as they are read. -/
def itemDrafts : List Value → List Draft
  | [] => []
  | v :: rest => draft v :: itemDrafts rest

/-- Members as they are read. -/
def memberDrafts : List (String × Value) → List (Draft × Draft)
  | [] => []
  | (key, v) :: rest => (.text key, draft v) :: memberDrafts rest

end

end Value

namespace Draft

/-- The first item of an array is read like any other value: no value begins with the bracket that
would end the array. -/
lemma read_firstItem (v : Value) (rest : List Token) (stack : List Frame) :
    read (v.tokens ++ rest) .firstItem stack =
      read (v.tokens ++ rest) .value (.item [] :: stack) := by
  rcases v with _ | _ | _ | _ | (_ | _) | (_ | _)
  all_goals rfl

mutual

/-- The tokens of a value are read as the value. -/
theorem read_tokens (rest : List Token) (stack : List Frame) :
    ∀ v : Value, read (v.tokens ++ rest) .value stack =
      read rest (v.draft.after stack).1 (v.draft.after stack).2
  | .null => rfl
  | .bool b => rfl
  | .whole n => rfl
  | .text s => rfl
  | .array [] => rfl
  | .array (v :: l) => by
    rw [Value.tokens]
    simp only [List.append_assoc, List.cons_append, List.nil_append]
    change read (v.tokens ++ _) .firstItem stack = _
    rw [read_firstItem, read_tokens]
    change read (Value.itemTokens l ++ _) (.nextItem [v.draft]) stack = _
    rw [read_itemTokens, read, List.reverse_append, List.reverse_reverse]
    rfl
  | .object [] => rfl
  | .object ((key, v) :: l) => by
    rw [Value.tokens]
    simp only [List.append_assoc, List.cons_append, List.nil_append]
    change read (v.tokens ++ _) .value (.member [] (.text key) :: stack) = _
    rw [read_tokens]
    change read (Value.memberTokens l ++ _) (.nextMember [(.text key, v.draft)]) stack = _
    rw [read_memberTokens, read, List.reverse_append, List.reverse_reverse]
    rfl

/-- The tokens of further items are read as these items. -/
lemma read_itemTokens (rest : List Token) (before : List Draft) (stack : List Frame) :
    ∀ l : List Value, read (Value.itemTokens l ++ rest) (.nextItem before) stack =
      read rest (.nextItem ((Value.itemDrafts l).reverse ++ before)) stack
  | [] => rfl
  | v :: l => by
    rw [Value.itemTokens, Value.itemDrafts, List.reverse_cons]
    simp only [List.append_assoc, List.cons_append, List.nil_append]
    change read (v.tokens ++ _) .value (.item before :: stack) = _
    rw [read_tokens]
    exact read_itemTokens rest (v.draft :: before) stack l

/-- The tokens of further members are read as these members. -/
lemma read_memberTokens (rest : List Token) (before : List (Draft × Draft)) (stack : List Frame) :
    ∀ l : List (String × Value), read (Value.memberTokens l ++ rest) (.nextMember before) stack =
      read rest (.nextMember ((Value.memberDrafts l).reverse ++ before)) stack
  | [] => rfl
  | (key, v) :: l => by
    rw [Value.memberTokens, Value.memberDrafts, List.reverse_cons]
    simp only [List.append_assoc, List.cons_append, List.nil_append]
    change read (v.tokens ++ _) .value (.member before (.text key) :: stack) = _
    rw [read_tokens]
    exact read_memberTokens rest ((.text key, v.draft) :: before) stack l

end

end Draft

/-- A written value is read as it is, and nothing follows it. -/
theorem Document.ofText_render (v : Value) : Document.ofText v.render = ⟨v.draft, none⟩ := by
  have whole := Draft.read_tokens [] [] v
  rw [List.append_nil] at whole
  rw [Document.ofText, tokens_render, whole]
  rfl

end Interlock.Json

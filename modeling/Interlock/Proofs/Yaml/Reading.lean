import Interlock.Yaml.Node
import Mathlib.Data.List.Basic

/-!
# Nodes of written tokens

The tokens of a mapping in a block are read as the mapping (`ofTokens?_mapping`), where each value
is a scalar, a list of scalars or a mapping again. What the reader needs to know about a value is in
`Spells`: whatever tokens follow it, but no further item, it is read up to there, with fuel for each
of its tokens.
-/

namespace Interlock.Yaml.Node

variable {hs : Handles} {as : Anchors} {fuel : ℕ} {bare : Bool} {ts rest : List Token} {n : Node}
  {style : Style}
  {text name : List Char} {ms : List (Node × Node)}

/-- The tokens are those of the node. -/
structure Spells (ts : List Token) (n : Node) : Prop where
  starts : ∀ rest, stopsAt [.key, .value, .blockEnd] (ts ++ rest) = false
  read : ∀ {hs fuel as rest}, ts.length ≤ fuel → rest.head? ≠ some .item →
    read? hs (fuel + 1) true as (ts ++ rest) = some ⟨n, as, rest⟩

/-- The tokens are those of the members of a mapping. -/
inductive SpellsMembers : List Token → List (Node × Node) → Prop
  | nil : SpellsMembers [] []
  | cons {name : List Char} {ts ts' : List Token} {n : Node} {ms : List (Node × Node)} :
    Spells ts n → SpellsMembers ts' ms →
      SpellsMembers (.key :: .scalar .plain name :: .value :: (ts ++ ts'))
        ((.scalar none .plain name, n) :: ms)

/-! ## Values -/

lemma read?_scalar : read? hs (fuel + 1) bare as (.scalar style text :: rest) =
    some ⟨.scalar none style text, as, rest⟩ := rfl

namespace Spells

lemma scalar : Spells [.scalar style text] (.scalar none style text) :=
  ⟨fun _ => rfl, fun _ _ => rfl⟩

lemma brackets : Spells [.flowSequence, .flowSequenceEnd] (.sequence []) where
  starts _ := rfl
  read := by
    rintro hs (_ | fuel) as rest enough -
    · exact absurd enough (by decide)
    · rfl

end Spells

/-- The tokens of a list of scalars in the column of its name. -/
def itemTokens (items : List (Style × List Char)) : List Token :=
  items.flatMap fun (style, text) => [.item, .scalar style text]

def itemNodes (items : List (Style × List Char)) : List Node :=
  items.map fun (style, text) => .scalar none style text

lemma length_itemTokens {items : List (Style × List Char)} :
    (itemTokens items).length = 2 * items.length := by
  induction items with
  | nil => rfl
  | cons item items ih => exact congrArg (· + 2) ih

lemma readItems?_bare {items : List (Style × List Char)} (enough : items.length ≤ fuel)
    (last : rest.head? ≠ some .item) :
    readItems? hs (fuel + 1) true as (itemTokens items ++ rest) =
      some ⟨itemNodes items, as, rest⟩ := by
  induction items generalizing fuel with
  | nil =>
    cases rest with
    | nil => rfl
    | cons t rest =>
      have other : t ≠ .item := fun h => last (congrArg some h)
      cases t
      case item => exact absurd rfl other
      all_goals rfl
  | cons item items ih =>
    obtain ⟨style, text⟩ := item
    cases fuel with
    | zero => exact absurd enough (by simp)
    | succ fuel =>
      have later := ih (Nat.le_of_succ_le_succ enough)
      change (readItems? hs (fuel + 1) true as (itemTokens items ++ rest)).map _ = _
      rw [later]
      rfl

/-- A list of scalars without a block of its own. -/
lemma Spells.items {items : List (Style × List Char)} (nonempty : items ≠ []) :
    Spells (itemTokens items) (.sequence (itemNodes items)) := by
  cases items with
  | nil => exact absurd rfl nonempty
  | cons item items =>
    refine ⟨fun _ => rfl, ?_⟩
    intro hs fuel as rest enough last
    rw [length_itemTokens, List.length_cons] at enough
    cases fuel with
    | zero => omega
    | succ fuel =>
      have read :=
        @readItems?_bare hs as fuel rest (item :: items) (by rw [List.length_cons]; omega) last
      change ((readItems? hs (fuel + 1) true as (itemTokens (item :: items) ++ rest)).map
        (Reading.change Node.sequence)).bind _ = _
      rw [read]
      rfl

/-! ## Mappings -/

lemma SpellsMembers.head_ne_item (h : SpellsMembers ts ms) :
    (ts ++ .blockEnd :: rest).head? ≠ some .item := by
  cases h
  all_goals exact nofun

lemma SpellsMembers.read (h : SpellsMembers ts ms) (enough : ts.length ≤ fuel) :
    readMembers? hs (fuel + 1) as (ts ++ .blockEnd :: rest) = some ⟨ms, as, rest⟩ := by
  induction h generalizing fuel with
  | nil => rfl
  | @cons name ts ts' n ms value more ih =>
    -- one step for the member, and the fuel that is left is enough for its value and for the other
    -- members
    cases fuel with
    | zero => exact absurd enough (Nat.not_succ_le_zero _)
    | succ fuel =>
      simp only [List.length_cons, List.length_append] at enough
      have stops := value.starts (ts' ++ .blockEnd :: rest)
      have read := @value.read hs fuel as (ts' ++ .blockEnd :: rest) (by omega) more.head_ne_item
      have later : readMembers? hs (fuel + 1) as (ts' ++ .blockEnd :: rest) = _ := ih (by omega)
      rw [List.cons_append, List.cons_append, List.cons_append, List.append_assoc]
      have key : stopsAt [.key, .value, .blockEnd]
          (.scalar .plain name :: .value :: (ts ++ (ts' ++ .blockEnd :: rest))) = false := rfl
      rw [readMembers?]
      simp only [key, read?_scalar, stops, read, later, Bool.false_eq_true, if_false,
        Option.bind_eq_bind, Option.bind_some]
      rfl

lemma read?_mapping (h : SpellsMembers ts ms) (enough : ts.length < fuel) :
    read? hs (fuel + 1) bare as (.blockMapping :: (ts ++ .blockEnd :: rest)) =
      some ⟨.mapping ms, as, rest⟩ := by
  cases fuel with
  | zero => exact absurd enough (Nat.not_lt_zero _)
  | succ fuel =>
    change ((readMembers? hs (fuel + 1) as (ts ++ .blockEnd :: rest)).map
      (Reading.change Node.mapping)).bind _ = _
    rw [h.read (Nat.le_of_lt_succ enough)]
    rfl

lemma Spells.mapping (h : SpellsMembers ts ms) :
    Spells (.blockMapping :: (ts ++ [.blockEnd])) (.mapping ms) where
  starts _ := rfl
  read := by
    intro hs fuel as rest enough _
    rw [List.cons_append, List.append_assoc]
    rw [List.length_cons, List.length_append] at enough
    exact read?_mapping h (Nat.lt_of_lt_of_le (Nat.lt_succ_of_le (Nat.le_add_right ..)) enough)

/-- A mapping is the only document of its tokens. -/
theorem ofTokens?_mapping (h : SpellsMembers ts ms) :
    ofTokens? (.blockMapping :: (ts ++ [.blockEnd])) = some (.mapping ms) := by
  have read : readRoot? Handles.standard false (.blockMapping :: (ts ++ [.blockEnd])) =
      some (.mapping ms, []) := by
    rw [readRoot?, read?_mapping h]
    · rfl
    · rw [List.length_cons, List.length_append]
      omega
  have handles : Handles.read? false [] (.blockMapping :: (ts ++ [.blockEnd])) =
      some (Handles.standard, .blockMapping :: (ts ++ [.blockEnd])) := rfl
  simp only [ofTokens?, handles, read, if_true, Option.bind_eq_bind, Option.bind_some]
  rfl

end Interlock.Yaml.Node

import Interlock.Yaml.Library
import Interlock.Proofs.Yaml.Lines

/-!
# The library for YAML is faithful

A node spells a value if it is the node that the value is read as. With that, the library for YAML
reads back what it writes (`library_faithful`).
-/

namespace Interlock.Yaml

open Scalar Document

/-- The node is what a value is read as. -/
def Spelled (n : Node) (v : Value) : Prop := n = node v

/-- A text that could be taken for null is not written plain. -/
lemma isNull_text (s : String) : (textNode s).isNull = false := by
  have styled := @styled_style s.toList
  rw [textNode]
  generalize style s.toList = style at styled ⊢
  cases styled with
  | plain clear _ =>
    simp only [Resolution.isAmbiguous, Bool.or_eq_false_iff] at clear
    obtain ⟨⟨⟨⟨⟨nonempty, other⟩, _⟩, _⟩, _⟩, _⟩ := clear
    exact Bool.or_eq_false_iff.mpr ⟨nonempty, other⟩
  | _ => rfl

lemma isNull?_node {v : Value} (h : v ≠ .null) : (node v).isNull? = some false := by
  cases v with
  | null => exact absurd rfl h
  | truth b =>
    cases b
    all_goals rfl
  | number n => exact congrArg some (Node.isNull_number n)
  | text s => exact congrArg some (isNull_text s)
  | variant s => exact congrArg some (isNull_text s)
  | texts ss => rfl
  | record fields => rfl

lemma text?_textNode (s : String) : (textNode s).text? = some s :=
  congrArg some (String.ofList_toList)

lemma forall₂_memberNodes {fields : List (String × Value)} :
    List.Forall₂ (fun m f => m.1.text? = some f.1 ∧ Spelled m.2 f.2)
      (memberNodes fields) fields := by
  induction fields with
  | nil => exact .nil
  | cons f fields ih =>
    obtain ⟨name, v⟩ := f
    exact .cons ⟨congrArg some (String.ofList_toList), rfl⟩ ih

/-- What the library for YAML writes it reads back. -/
theorem library_faithful : library.Faithful Spelled where
  reads writable := ⟨_, _, rfl, ofTokens?_writeRecord writable, rfl⟩
  present := by
    rintro n v rfl given
    exact isNull?_node given
  truth := by
    rintro n b rfl
    cases b
    all_goals rfl
  number := by
    rintro n k limit rfl fits
    exact Node.natural?_number fits
  text := by
    rintro n s rfl
    exact text?_textNode s
  variant := by
    rintro n name rfl
    exact text?_textNode name
  texts := by
    rintro n ss rfl
    refine ⟨ss.map textNode, rfl, ?_⟩
    change List.Forall₂ (fun (i : Node) s => Spelled i (.text s)) (ss.map textNode) ss
    rw [List.forall₂_map_left_iff]
    exact List.forall₂_same.mpr fun s _ => rfl
  record := by
    rintro n fields rfl
    exact ⟨memberNodes fields, rfl, forall₂_memberNodes⟩

end Interlock.Yaml

import Interlock.Program.Json
import Interlock.Proofs.Json.Decoding

/-!
# Program models written and read

The text of a program model is read as the model. Each part is written with its fields in order, and
a field without a value is left out, so that the reader leaves it empty. An empty list of call sites
is a value and is not left out.
-/

namespace Interlock

open Json Decode Record

lemma CallKind.reads (k : CallKind) : Reads CallKind.decode (.text k.name) k := by
  cases k
  all_goals rfl

lemma LockKind.reads (k : LockKind) : Reads LockKind.decode (.text k.name) k := by
  cases k
  all_goals rfl

/-- A call site is read as it is written. -/
lemma CallSpec.reads (c : CallSpec) : Reads CallSpec.decode c.toJson c := by
  have fills : record.Fills record.names {} (Value.member? "label" (c.label.map .text) ++
      [("targets", .texts c.targets), ("kind", .text c.kind.name)])
      { label := c.label, targets := some c.targets, kind := c.kind } :=
    .field? (fun label _ => .optional (.text label) nofun) (fun _ => rfl) rfl <|
    .field (.texts c.targets) (fun _ => rfl) <|
    .field c.kind.reads (fun _ => rfl) <|
    .nil _ _
  have read : record.decode {} c.toJson.draft = _ := fills.reads (by decide)
  rw [Reads, CallSpec.decode, read]
  rfl

/-- A method is read as it is written. -/
lemma MethodSpec.reads (m : MethodSpec) : Reads MethodSpec.decode m.toJson m := by
  have fills : record.Fills record.names {} (("name", .text m.name) ::
      Value.member? "declaring_class" (m.declaringClass.map .text) ++
      [("calls", .array (m.calls.map CallSpec.toJson))])
      { name := some m.name, declaringClass := m.declaringClass, calls := m.calls } :=
    .field (.text m.name) (fun _ => rfl) <|
    .field? (fun owner _ => .optional (.text owner) nofun) (fun _ => rfl) rfl <|
    .field (.list fun c _ => c.reads) (fun _ => rfl) <|
    .nil _ _
  have read : record.decode {} m.toJson.draft = _ := fills.reads (by decide)
  rw [Reads, MethodSpec.decode, read]
  rfl

/-- A lock is read as it is written. -/
lemma LockSpec.reads (l : LockSpec) : Reads LockSpec.decode l.toJson l := by
  have fills : record.Fills record.names {}
      [("name", .text l.name), ("kind", .text l.kind.name), ("points_to", .texts l.pointsTo),
        ("aliases", .texts l.aliases)]
      { name := some l.name, kind := some l.kind, pointsTo := l.pointsTo, aliases := l.aliases } :=
    .field (.text l.name) (fun _ => rfl) <|
    .field l.kind.reads (fun _ => rfl) <|
    .field (.texts l.pointsTo) (fun _ => rfl) <|
    .field (.texts l.aliases) (fun _ => rfl) <|
    .nil _ _
  have read : record.decode {} l.toJson.draft = _ := fills.reads (by decide)
  rw [Reads, LockSpec.decode, read]
  rfl

/-- A section is read as it is written. -/
lemma SectionSpec.reads (s : SectionSpec) (small : ∀ g ∈ s.group, g < 2 ^ 64) :
    Reads SectionSpec.decode s.toJson s := by
  have fills : record.Fills record.names {} ([("name", .text s.name), ("method", .text s.method)] ++
      Value.member? "invokes" (s.invokes.map .texts) ++ [("lockset", .texts s.lockset)] ++
      Value.member? "group" (s.group.map fun (g : ℕ) => .whole g))
      { name := some s.name, method := some s.method, invokes := s.invokes,
        lockset := some s.lockset,
        group := s.group } := by
    rw [List.append_assoc, List.append_assoc, ← List.append_nil (Value.member? "group" _)]
    exact
      .field (.text s.name) (fun _ => rfl) <|
      .field (.text s.method) (fun _ => rfl) <|
      .field? (fun l _ => .optional (.texts l) nofun) (fun _ => rfl) rfl <|
      .field (.texts s.lockset) (fun _ => rfl) <|
      .field? (fun g hg => .optional (.size (small g hg)) nofun) (fun _ => rfl) rfl <|
      .nil _ _
  have read : record.decode {} s.toJson.draft = _ := fills.reads (by decide)
  rw [Reads, SectionSpec.decode, read]
  rfl

namespace Model

/-- The count of groups and the groups of the sections are numbers of 64 bits. -/
structure Sized (m : Model) : Prop where
  groups : m.groups < 2 ^ 64
  sections : ∀ s ∈ m.criticalSections, ∀ g ∈ s.group, g < 2 ^ 64

/-- The text of a program model is read as the model. -/
theorem ofText_toText {m : Model} (sized : m.Sized) : ofText m.toText = .ok m := by
  have fills : record.Fills record.names {}
      [("methods", .array (m.methods.map MethodSpec.toJson)),
        ("locks", .array (m.locks.map LockSpec.toJson)),
        ("groups", .whole m.groups),
        ("critical_sections", .array (m.criticalSections.map SectionSpec.toJson))] m :=
    .field (.list fun l _ => l.reads) (fun _ => rfl) <|
    .field (.list fun l _ => l.reads) (fun _ => rfl) <|
    .field (.size sized.groups) (fun _ => rfl) <|
    .field (.list fun s hs => s.reads (sized.sections s hs)) (fun _ => rfl) <|
    .nil _ _
  exact document_render (fills.reads (by decide))

/-- A model with characters that are escaped by letter, by number and not at all, and with the
largest count of groups. One section lists no call sites, and another leaves the list out. -/
def escaped : Model where
  methods := [{ name := "a\"\\\n\x01.é😀", calls := [{ label := some "\t", targets := [] }] }]
  locks := [{ name := "", kind := .dynamic, pointsTo := ["new \x7f"] }]
  groups := 2 ^ 64 - 1
  criticalSections :=
    [{ name := "s", method := "m", invokes := some [], lockset := [], group := some 0 },
      { name := "s", method := "m", lockset := [""] }]

/-- The escaped model is read as it is written. -/
theorem ofText_toText_escaped : escaped.Sized ∧ ofText escaped.toText = .ok escaped := by
  have sized : escaped.Sized := by
    constructor
    · decide
    · intro s hs g hg
      rcases List.mem_pair.mp hs with rfl | rfl
      · cases hg
        decide
      · cases hg
  exact ⟨sized, ofText_toText sized⟩

end Model

end Interlock

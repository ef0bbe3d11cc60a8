import Interlock.Report.Json
import Interlock.Proofs.Json.Decoding

/-!
# Reports written and read

The text of a report is read as the report. The kind of a conflict and the outcome of a search stand
among the members of an object, and what comes with them is kept until the object has been read to
its end. So it is shown that the written members can be kept, that the tag is found among them, and
that no other member has the name of the tag; then the members that are left are those of a record.
-/

namespace Interlock

open Json Decode Record

/-! ## Values kept for later -/

namespace Json.Value

/-- The value can be kept for later where this much nesting is allowed. -/
def Keeps (depth : ℕ) (v : Value) : Prop := v.draft.keep depth = none

/-- The members can be kept, and none of them has one of the names. -/
def MembersKeep (depth : ℕ) (taken : List String) (ms : List (String × Value)) : Prop :=
  ∀ m ∈ ms, m.1 ∉ taken ∧ Keeps depth m.2

variable {depth : ℕ} {v : Value} {key : String} {taken : List String} {ms : List (String × Value)}

namespace Keeps

lemma null : Keeps depth .null := rfl

lemma text (s : String) : Keeps depth (.text s) := rfl

lemma whole {i : ℤ} (low : -Nat.pow 2 63 ≤ i) (high : i < Numeral.wordLimit) :
    Keeps depth (.whole i) := by
  rw [Keeps, draft, Draft.keep, Numeral.number?_ofWhole low high]
  rfl

lemma size {n : ℕ} (h : n < 2 ^ 64) : Keeps depth (.whole n) := by
  refine whole ?_ (Nat.cast_lt.mpr h)
  have natural := Int.natCast_nonneg n
  omega

/-- An object is one level deeper than its members. -/
lemma object (h : ∀ m ∈ ms, Keeps depth m.2) : Keeps (depth + 1) (.object ms) := by
  rw [Keeps, draft, Draft.keep]
  induction ms with
  | nil => rfl
  | cons m ms ih =>
    have first : m.2.draft.keep depth = none := h m List.mem_cons_self
    rw [memberDrafts, keepMembers, first]
    exact ih fun m hm => h m (List.mem_cons_of_mem _ hm)

end Keeps

lemma MembersKeep.cons (fresh : key ∉ taken) (kept : Keeps depth v)
    (rest : MembersKeep depth taken ms) :
    MembersKeep depth taken ((key, v) :: ms) :=
  List.forall_mem_cons.mpr ⟨⟨fresh, kept⟩, rest⟩

lemma MembersKeep.nil : MembersKeep depth taken [] := nofun

end Json.Value

/-! ## Conflicts -/

/-- The number of a lock is a number of 32 bits. -/
def LockNum.Sized (n : LockNum) : Prop := -2 ^ 31 ≤ n ∧ n < 2 ^ 31

instance : DecidablePred LockNum.Sized := fun n => inferInstanceAs (Decidable (_ ∧ n < 2 ^ 31))

namespace LockNum

variable {n : LockNum}

lemma Sized.reads (h : Sized n) : Reads Decode.int32 (.whole n) n :=
  .wholeIn "i32" ⟨by decide, by decide⟩ ⟨h.1, Int.le_sub_one_of_lt h.2⟩

lemma Sized.keeps {depth : ℕ} (h : Sized n) : Value.Keeps depth (.whole n) :=
  .whole (le_trans (by decide) h.1) (h.2.trans (by decide))

end LockNum

/-- Groups are numbers of 64 bits, and locks of 32 bits. -/
def ConflictKind.Sized : ConflictKind → Prop
  | .group g h => g < 2 ^ 64 ∧ h < 2 ^ 64
  | .lock held requested avoidance =>
    LockNum.Sized held ∧ LockNum.Sized requested ∧ ∀ n ∈ avoidance, LockNum.Sized n

instance : DecidablePred ConflictKind.Sized
  | .group g h => inferInstanceAs (Decidable (g < 2 ^ 64 ∧ h < 2 ^ 64))
  | .lock _ _ _ => inferInstanceAs (Decidable (_ ∧ _ ∧ _))

namespace NamedConflict

variable {depth : ℕ} {ms : List (String × Value)}

/-- Members other than the two names are kept, the latest first. -/
lemma decodeMembers_kept (h : Value.MembersKeep depth ["outer", "inner"] ms) (r : Open) :
    decodeMembers depth (Value.memberDrafts ms) none r =
      .ok { r with kept := (Value.memberDrafts ms).reverse ++ r.kept } := by
  induction ms generalizing r with
  | nil => rfl
  | cons m ms ih =>
    obtain ⟨⟨other, kept⟩, rest⟩ := List.forall_mem_cons.mp h
    have outer : m.1 ≠ "outer" := List.ne_of_not_mem_cons other
    have inner : m.1 ≠ "inner" := List.ne_of_not_mem_cons (List.not_mem_of_not_mem_cons other)
    have kept : m.2.draft.keep depth = none := kept
    rw [Value.memberDrafts, decodeMembers, Tagged.keyName]
    simp only [bind, Except.bind, Tagged.checkKept, kept]
    rw [List.reverse_cons, List.append_assoc]
    exact ih rest _

/-- The members that hang on the kind can be kept, and none of them is named like a section. -/
lemma kindMembers_keep {k : ConflictKind} (sized : k.Sized) :
    Value.MembersKeep depth ["outer", "inner"] (kindMembers k) := by
  cases k with
  | group g h =>
    exact
      .cons (by decide) (.text "group") <|
      .cons (by decide) (.size sized.1) <|
      .cons (by decide) (.size sized.2) .nil
  | lock held requested avoidance =>
    refine
      .cons (by decide) (.text "lock") <|
      .cons (by decide) sized.1.keeps <|
      .cons (by decide) sized.2.1.keeps ?_
    cases avoidance with
    | none => exact .nil
    | some n => exact .cons (by decide) (sized.2.2 n rfl).keeps .nil

/-- The kind of a conflict is read from its members as it is written. -/
lemma decodeKind_members {k : ConflictKind} (sized : k.Sized) :
    decodeKind (Value.memberDrafts (kindMembers k)) = .ok k := by
  cases k with
  | group g h =>
    have fills : groupRecord.Fills groupRecord.names {}
        [("outer_group", .whole g), ("inner_group", .whole h)]
        { outerGroup := some g, innerGroup := some h } :=
      .field (.size sized.1) (fun _ => rfl) <|
      .field (.size sized.2) (fun _ => rfl) <|
      .nil _ _
    have read : groupRecord.members _ none [] {} = _ := fills.reads (by decide)
    have split : splitTag (Value.memberDrafts (kindMembers (.group g h))) none =
        .ok (some .group, Value.memberDrafts
          [("outer_group", .whole g), ("inner_group", .whole h)]) := rfl
    rw [decodeKind, split]
    change (groupRecord.members _ none [] {}).bind _ = _
    rw [read]
    rfl
  | lock held requested avoidance =>
    have fills : lockRecord.Fills lockRecord.names {}
        ([("held", .whole held), ("requested", .whole requested)] ++
        Value.member? "avoidance_lock" (avoidance.map .whole))
        { held := some held, requested := some requested, avoidanceLock := avoidance } := by
      rw [← List.append_nil (Value.member? "avoidance_lock" _)]
      exact
        .field sized.1.reads (fun _ => rfl) <|
        .field sized.2.1.reads (fun _ => rfl) <|
        .field? (fun n hn => .optional (sized.2.2 n hn).reads nofun) (fun _ => rfl) rfl <|
        .nil _ _
    have read : lockRecord.members _ none [] {} = _ := fills.reads (by decide)
    have split : splitTag (Value.memberDrafts (kindMembers (.lock held requested avoidance))) none =
        .ok (some .lock, Value.memberDrafts
          ([("held", .whole held), ("requested", .whole requested)] ++
          Value.member? "avoidance_lock" (avoidance.map .whole))) := by
      cases avoidance
      all_goals rfl
    rw [decodeKind, split]
    change (lockRecord.members _ none [] {}).bind _ = _
    rw [read]
    rfl

/-- A conflict is read as it is written. -/
lemma reads {c : NamedConflict} (sized : c.kind.Sized) : Reads (decode depth) c.toJson c := by
  have kept := decodeMembers_kept (@kindMembers_keep depth _ sized)
    { outer := some c.outer, inner := some c.inner }
  have members : decodeMembers depth
      (Value.memberDrafts ([("outer", .text c.outer), ("inner", .text c.inner)] ++
      kindMembers c.kind)) none {} = _ := kept
  rw [Reads, toJson, Value.draft, decode, members, List.append_nil]
  change ((decodeKind (Value.memberDrafts (kindMembers c.kind)).reverse.reverse).bind _) = _
  rw [List.reverse_reverse, decodeKind_members sized]
  rfl

lemma keeps {c : NamedConflict} (sized : c.kind.Sized) : c.toJson.Keeps (depth + 1) := by
  refine .object (List.forall_mem_cons.mpr
    ⟨.text c.outer, List.forall_mem_cons.mpr ⟨.text c.inner, ?_⟩⟩)
  exact fun m hm => (kindMembers_keep sized m hm).2

end NamedConflict

/-! ## Outcomes -/

namespace Status

variable {C : Type} {depth : ℕ} {conflict : Decoder C} {write : C → Value}

/-- The conflict that comes with an outcome. -/
def conflict? : Status C → Option C
  | deadlockReported c => some c
  | didNotConverge _ c => c
  | acyclic | repaired _ => none

/-- The count that comes with an outcome is a number of 64 bits. -/
def Sized : Status C → Prop
  | repaired n | didNotConverge n _ => n < 2 ^ 64
  | acyclic | deadlockReported _ => True

/-- Members other than the name of the outcome are kept, in order. -/
lemma splitTag_kept {ms : List (String × Value)} (h : Value.MembersKeep depth ["status"] ms)
    (tag : Option Tag) :
    splitTag depth (Value.memberDrafts ms) none tag = .ok (tag, Value.memberDrafts ms) := by
  induction ms with
  | nil => rfl
  | cons m ms ih =>
    obtain ⟨⟨other, kept⟩, rest⟩ := List.forall_mem_cons.mp h
    have kept : m.2.draft.keep depth = none := kept
    rw [Value.memberDrafts, splitTag, Tagged.keyName]
    simp only [bind, Except.bind, if_neg (List.ne_of_not_mem_cons other), Tagged.checkKept, kept]
    rw [ih rest]
    rfl

/-- An outcome is read from its members, if what comes with it is read from those after the
first. -/
lemma decode_members {s : Status C} {ms : List (String × Value)} (tag : Tag)
    (named : decodeTag (.text s.label) = .ok tag) (kept : Value.MembersKeep depth ["status"] ms)
    (rest : decodeRest conflict tag (Value.object ms).draft = .ok s) :
    Reads (decode depth conflict) (.object (("status", .text s.label) :: ms)) s := by
  have split : splitTag depth (Value.memberDrafts (("status", .text s.label) :: ms)) none none =
      .ok (some tag, Value.memberDrafts ms) := by
    rw [Value.memberDrafts, splitTag]
    change (decodeTag (.text s.label)).bind (fun t => splitTag depth _ none (some t)) = _
    rw [named]
    exact splitTag_kept kept _
  rw [Reads, Value.draft, decode, split]
  exact rest

/-- The fields of an outcome are those that its members fill. -/
lemma decodeFields_object {record : Record (Open C)} {ms : List (String × Value)} {r : Open C}
    (fills : record.Fills record.names {} ms r) (once : record.names.Nodup) :
    decodeFields record (Value.object ms).draft = .ok r :=
  fills.reads once

/-- An outcome is read as it is written. -/
lemma reads {s : Status C} (sized : s.Sized) (object : ∀ c ∈ s.conflict?, write c ≠ .null)
    (keeps : ∀ c ∈ s.conflict?, (write c).Keeps depth)
    (h : ∀ c ∈ s.conflict?, Reads conflict (write c) c) :
    Reads (decode depth conflict) (s.toJson write) s := by
  cases s with
  | acyclic => exact decode_members (s := acyclic) .acyclic rfl .nil rfl
  | deadlockReported c =>
    have kept : Value.MembersKeep depth ["status"] [("conflict", write c)] :=
      .cons (by decide) (keeps c rfl) .nil
    have fills : (reportedRecord conflict).Fills (reportedRecord conflict).names {}
        [("conflict", write c)] { conflict := some c } :=
      .field (h c rfl) (fun _ => rfl) <|
      .nil _ _
    refine decode_members (s := deadlockReported c) .deadlockReported rfl kept ?_
    rw [decodeRest, decodeFields_object fills (List.nodup_singleton _)]
    rfl
  | repaired n =>
    have kept : Value.MembersKeep depth ["status"] [("repairs", .whole n)] :=
      .cons (by decide) (.size sized) .nil
    have fills : (repairedRecord (C := C)).Fills (repairedRecord (C := C)).names {}
      [("repairs", .whole n)] { repairs := some n } :=
      .field (.size sized) (fun _ => rfl) <|
      .nil _ _
    refine decode_members (s := repaired n) .repaired rfl kept ?_
    rw [decodeRest, decodeFields_object fills (List.nodup_singleton _)]
    rfl
  | didNotConverge n c =>
    -- without a conflict there is a null, which is read as none
    have last : Reads (Decode.optional conflict) ((c.map write).getD .null) c ∧
        ((c.map write).getD .null).Keeps depth := by
      cases c with
      | none => exact ⟨rfl, .null⟩
      | some c => exact ⟨.optional (h c rfl) (object c rfl), keeps c rfl⟩
    have kept : Value.MembersKeep depth ["status"]
        [("iterations", .whole n), ("last_conflict", (c.map write).getD .null)] :=
      .cons (by decide) (.size sized) (.cons (by decide) last.2 .nil)
    have fills : (divergedRecord conflict).Fills (divergedRecord conflict).names {}
        [("iterations", .whole n), ("last_conflict", (c.map write).getD .null)]
        { iterations := some n, lastConflict := c } :=
      .field (.size sized) (fun _ => rfl) <|
      .field last.1 (fun _ => rfl) <|
      .nil _ _
    have once : ["iterations", "last_conflict"].Nodup := by decide
    refine decode_members (s := didNotConverge n c) .didNotConverge rfl kept ?_
    rw [decodeRest, decodeFields_object fills once]
    rfl

end Status

/-! ## Reports -/

lemma Mode.reads (m : Mode) : Reads Mode.decode (.text m.name) m := by
  cases m
  all_goals rfl

lemma NamedArc.reads (e : NamedArc) : Reads NamedArc.decode e.toJson e := by
  have labels : record.Fills ["labels"] { first := some e.first, after := some e.after }
      (if e.labels.isEmpty then [] else [("labels", .texts e.labels)])
      { first := some e.first, after := some e.after, labels := e.labels } := by
    -- an empty list is left out, and a list that is left out is empty
    split_ifs with empty
    · rw [List.isEmpty_iff.mp empty]
      exact .leave "labels" (.nil _ _)
    · exact .field (.texts e.labels) (fun _ => rfl) (.nil _ _)
  have fills : record.Fills record.names {} ([("from", .text e.first), ("to", .text e.after)] ++
      if e.labels.isEmpty then [] else [("labels", .texts e.labels)]) _ :=
    .field (.text e.first) (fun _ => rfl) <|
    .field (.text e.after) (fun _ => rfl) labels
  have read : record.decode {} e.toJson.draft = _ := fills.reads (by decide)
  rw [Reads, NamedArc.decode, read]
  rfl

lemma HeldLock.reads {l : HeldLock} (sized : LockNum.Sized l.lock) :
    Reads HeldLock.decode l.toJson l := by
  have fills : record.Fills record.names {}
      [("lock", .whole l.lock), ("name", .text l.name), ("holders", .texts l.holders)]
      { lock := some l.lock, name := some l.name, holders := some l.holders } :=
    .field sized.reads (fun _ => rfl) <|
    .field (.text l.name) (fun _ => rfl) <|
    .field (.texts l.holders) (fun _ => rfl) <|
    .nil _ _
  have read : record.decode {} l.toJson.draft = _ := fills.reads (by decide)
  rw [Reads, HeldLock.decode, read]
  rfl

/-- The group of a section is a number of 64 bits, and its locks of 32 bits. -/
structure SectionLocks.Sized (l : SectionLocks) : Prop where
  group : ∀ g ∈ l.group, g < 2 ^ 64
  locks : ∀ n ∈ l.locks, LockNum.Sized n

lemma SectionLocks.reads {l : SectionLocks} (sized : l.Sized) :
    Reads SectionLocks.decode l.toJson l := by
  have fills : record.Fills record.names {} (("section", .text l.region) ::
      Value.member? "group" (l.group.map fun (g : ℕ) => .whole g) ++ [("locks", .wholes l.locks)])
      { region := some l.region, group := l.group, locks := some l.locks } :=
    .field (.text l.region) (fun _ => rfl) <|
    .field? (fun g hg => .optional (.size (sized.group g hg)) nofun) (fun _ => rfl) rfl <|
    .field (.list fun n hn => (sized.locks n hn).reads) (fun _ => rfl) <|
    .nil _ _
  have read : record.decode {} l.toJson.draft = _ := fills.reads (by decide)
  rw [Reads, SectionLocks.decode, read]
  rfl

namespace Report

/-- Counts and groups are numbers of 64 bits, and locks of 32 bits. -/
structure Sized (r : Report) : Prop where
  status : r.status.Sized
  conflict : ∀ c ∈ r.status.conflict?, c.kind.Sized
  iterations : r.iterations < 2 ^ 64
  repairs : ∀ c ∈ r.repairs, c.kind.Sized
  avoidanceLocks : ∀ l ∈ r.avoidanceLocks, LockNum.Sized l.lock
  reorderedSections : r.reorderedSections < 2 ^ 64
  locksets : ∀ l ∈ r.locksets, l.Sized

/-- The text of a report is read as the report. -/
theorem toText_decodes {r : Report} (sized : r.Sized) : ofText r.toText = .ok r := by
  let depth := Tagged.depthLimit - 2
  have status : Reads (Status.decode depth (NamedConflict.decode depth))
      (r.status.toJson NamedConflict.toJson)
      r.status :=
    Status.reads sized.status (fun _ _ => nofun) (fun c hc => c.keeps (sized.conflict c hc))
      fun c hc => c.reads (sized.conflict c hc)
  have fills : record.Fills record.names {}
      [("mode", .text r.mode.name), ("status", r.status.toJson NamedConflict.toJson),
        ("iterations", .whole r.iterations),
        ("repairs", .array (r.repairs.map NamedConflict.toJson)),
        ("edges", .array (r.edges.map NamedArc.toJson)),
        ("avoidance_locks", .array (r.avoidanceLocks.map HeldLock.toJson)),
        ("reordered_sections", .whole r.reorderedSections),
        ("locksets", .array (r.locksets.map SectionLocks.toJson))]
      { mode := some r.mode, status := some r.status, iterations := some r.iterations,
        repairs := some r.repairs,
        edges := some r.edges, avoidanceLocks := r.avoidanceLocks, reorderedSections :=
          r.reorderedSections,
        locksets := some r.locksets } :=
    .field r.mode.reads (fun _ => rfl) <|
    .field status (fun _ => rfl) <|
    .field (.size sized.iterations) (fun _ => rfl) <|
    .field (.list fun c hc => c.reads (sized.repairs c hc)) (fun _ => rfl) <|
    .field (.list fun e _ => e.reads) (fun _ => rfl) <|
    .field (.list fun l hl => l.reads (sized.avoidanceLocks l hl)) (fun _ => rfl) <|
    .field (.size sized.reorderedSections) (fun _ => rfl) <|
    .field (.list fun l hl => l.reads (sized.locksets l hl)) (fun _ => rfl) <|
    .nil _ _
  have read : record.decode {} r.toJson.draft = _ := fills.reads (by decide)
  refine document_render ?_
  rw [Reads, Report.decode, read]
  rfl

/-- A report of a search that gave up, with the largest count of passes and locks at both ends of
their range. One conflict is between groups and one on locks, names need escapes, and one arc and
one section leave something out. -/
def unsettled : Report where
  mode := .lockset
  status := .didNotConverge (2 ^ 64 - 1)
    (some
      { outer := "kind", inner := "a\"\\\x01", kind := .lock (-2 ^ 31) (2 ^ 31 - 1) (some (-1)) })
  iterations := 2 ^ 64 - 1
  repairs := [{ outer := "", inner := "é😀", kind := .group 0 (2 ^ 64 - 1) },
    { outer := "s", inner := "t", kind := .lock 1 2 none }]
  edges := [{ first := "1", after := "2", labels := [] },
    { first := "2", after := "1", labels := ["s", "\n"] }]
  avoidanceLocks := [{ lock := -1, name := "<DeadlockAvoidance#0: C>", holders := [] }]
  reorderedSections := 0
  locksets :=
    [{ region := "s", group := none, locks := [] },
      { region := "t", group := some 0, locks := [-1, 2] }]

/-- The unsettled report is read as it is written. -/
theorem toText_decodes_unsettled : unsettled.Sized ∧ ofText unsettled.toText = .ok unsettled := by
  have sized : unsettled.Sized := by
    constructor
    case status => exact (by decide : 2 ^ 64 - 1 < 2 ^ 64)
    case conflict =>
      rintro c ⟨⟩
      decide
    case iterations => decide
    case repairs => decide
    case avoidanceLocks => decide
    case reorderedSections => decide
    case locksets =>
      intro l hl
      rcases List.mem_pair.mp hl with rfl | rfl
      · exact ⟨by decide, by decide⟩
      · exact ⟨by decide, by decide⟩
  exact ⟨sized, toText_decodes sized⟩

end Report

end Interlock

import Interlock.Config.Yaml
import Interlock.Proofs.Document
import Interlock.Proofs.Yaml.Library

/-!
# Configuration files written and read

The file of a configuration is read as the configuration, or refused for the reason for which the
configuration is not valid (`Config.load_save`). The file says a preset and the patch from it to the
configuration. The patch is read as it was written, and leads from the preset to the configuration
again. Nothing but the faithfulness of the library is used of how the values are spelled.
-/

namespace Interlock

open Document

variable {lib : Library} {spells : lib.Node → Value → Prop} {preset : Preset}

/-! ## Patches -/

namespace Patch

variable {p : Patch}

/-- A patch is filled by the fields that are written for it. -/
lemma fills (faithful : lib.Faithful spells) (fits : ∀ n ∈ p.maxIterations, n < 2 ^ 64) :
    Fills spells (put? lib) Config.fieldNames {} p.fields p := by
  have truth (b : Bool) (n) (h : spells n (.truth b)) :
      lib.optional? lib.truth? n = some (some b) :=
    faithful.optional? h nofun (faithful.truth h)
  have mode (m : Mode) (n) (h : spells n (.variant m.name)) :
      lib.optional? (lib.oneOf? Mode.byName) n = some (some m) := by
    refine faithful.optional? h nofun (faithful.oneOf? h ?_)
    cases m
    all_goals rfl
  have strategy (s : Strategy) (n) (h : spells n (.variant s.name)) :
      lib.optional? (lib.oneOf? Strategy.byName) n = some (some s) := by
    refine faithful.optional? h nofun (faithful.oneOf? h ?_)
    cases s
    all_goals rfl
  have number (k) (hk : k ∈ p.maxIterations) (n) (h : spells n (.number k)) :
      lib.optional? (lib.number? (Nat.pow 2 64)) n = some (some k) :=
    faithful.optional? h nofun (faithful.number h (fits k hk))
  have prefixes (ss : List String) (n) (h : spells n (.texts ss)) :
      lib.optional? lib.texts? n = some (some ss) :=
    faithful.optional? h nofun (faithful.texts? h)
  rw [fields, ← List.append_nil (field? "excluded_method_prefixes" _)]
  refine .field? (fun m _ => mode m) (fun n => rfl) rfl ?_
  refine .field? (fun b _ => truth b) (fun n => rfl) rfl ?_
  refine .field? (fun b _ => truth b) (fun n => rfl) rfl ?_
  refine .field? (fun b _ => truth b) (fun n => rfl) rfl ?_
  refine .field? number (fun n => rfl) rfl ?_
  refine .field? (fun s _ => strategy s) (fun n => rfl) rfl ?_
  refine .field? (fun b _ => truth b) (fun n => rfl) rfl ?_
  exact .field? (fun ss _ => prefixes ss) (fun n => rfl) rfl (.nil _)

/-- Fields that are written for a patch are missing only if it sets none. -/
lemma fields_ne_nil (faithful : lib.Faithful spells) (fits : ∀ n ∈ p.maxIterations, n < 2 ^ 64)
    (given : p ≠ {}) : p.fields ≠ [] := by
  intro empty
  have filled := fills faithful fits
  rw [empty] at filled
  exact given filled.eq_of_nil

lemma isName_fieldNames : ∀ name ∈ Config.fieldNames, IsName name := by
  decide

lemma writable_fields (fits : ∀ n ∈ p.maxIterations, n < 2 ^ 64) :
    ∀ f ∈ p.fields, Writable f.2 := by
  have mode (m : Mode) : IsName m.name := by
    cases m
    all_goals decide
  have strategy (s : Strategy) : IsName s.name := by
    cases s
    all_goals decide
  refine List.forall_mem_append.mpr ⟨Writable.field? fun m _ => .variant (mode m), ?_⟩
  refine List.forall_mem_append.mpr ⟨Writable.field? fun b _ => .truth b, ?_⟩
  refine List.forall_mem_append.mpr ⟨Writable.field? fun b _ => .truth b, ?_⟩
  refine List.forall_mem_append.mpr ⟨Writable.field? fun b _ => .truth b, ?_⟩
  refine List.forall_mem_append.mpr ⟨Writable.field? fun n hn => .number (fits n hn), ?_⟩
  refine List.forall_mem_append.mpr ⟨Writable.field? fun s _ => .variant (strategy s), ?_⟩
  exact List.forall_mem_append.mpr
    ⟨Writable.field? fun b _ => .truth b, Writable.field? fun ss _ => .texts ss⟩

lemma writable (faithful : lib.Faithful spells) (fits : ∀ n ∈ p.maxIterations, n < 2 ^ 64)
    (given : p ≠ {}) : Writable (.record p.fields) :=
  have filled := fills faithful fits
  .record (fields_ne_nil faithful fits given) (filled.nodup (by decide))
    (filled.forall_name isName_fieldNames) (writable_fields fits)

end Patch

/-! ## Files -/

namespace ConfigFile

variable {f : ConfigFile}

/-- The file is one that can be written: it has a version, its numbers fit their types, and its
overrides set something. -/
structure Complete (f : ConfigFile) : Prop where
  version : ∃ v < 2 ^ 32, f.version = some v
  given : ∀ p ∈ f.overrides, p ≠ {}
  fits : ∀ p ∈ f.overrides, ∀ n ∈ p.maxIterations, n < 2 ^ 64

/-- The fields of a file in order. -/
def fieldNames : List String := ["version", "preset", "overrides"]

namespace Complete

lemma fills (complete : f.Complete) (faithful : lib.Faithful spells) :
    Fills spells (Open.put? lib) fieldNames {} f.fields
      { version := f.version, preset := some f.preset, overrides := f.overrides } := by
  obtain ⟨v, fits, version⟩ := complete.version
  rw [fields, version]
  have number (n) (h : spells n (.number v)) :
      lib.optional? (lib.number? (Nat.pow 2 32)) n = some (some v) :=
    faithful.optional? h nofun (faithful.number h fits)
  have overrides (p) (hp : p ∈ f.overrides) (n) (h : spells n (.record p.fields)) :
      lib.optional? (Patch.ofNode? lib) n = some (some p) :=
    have filled := Patch.fills faithful (complete.fits p hp)
    faithful.optional? h nofun (filled.record? (by decide) faithful h)
  refine .put (fun n h => congrArg (Option.map _) (number n h)) ?_
  refine .put (fun n h => congrArg (Option.map _) (faithful.text h)) ?_
  rw [← List.append_nil (field? "overrides" _)]
  exact .field? overrides (fun n => rfl) rfl (.nil _)

lemma writable (complete : f.Complete) (faithful : lib.Faithful spells) :
    Writable (.record f.fields) := by
  have filled := complete.fills faithful
  refine .record (List.cons_ne_nil _ _) (filled.nodup (by decide))
    (filled.forall_name (by decide)) ?_
  obtain ⟨v, fits, version⟩ := complete.version
  rw [fields, version]
  refine List.forall_mem_cons.mpr ⟨.number (Nat.lt_trans fits (by decide)), ?_⟩
  refine List.forall_mem_cons.mpr ⟨.text f.preset, Writable.field? fun p hp => ?_⟩
  exact Patch.writable faithful (complete.fits p hp) (complete.given p hp)

/-- A file is written, and its text is read as the file. -/
theorem ofText? (complete : f.Complete) (faithful : lib.Faithful spells) :
    ∃ text, lib.write? f.fields = some text ∧ ConfigFile.ofText? lib text = some f := by
  obtain ⟨text, n, written, read, spelled⟩ := faithful.reads (complete.writable faithful)
  have filled := (complete.fills faithful).record? (by decide) faithful spelled
  refine ⟨text, written, ?_⟩
  rw [ConfigFile.ofText?, read]
  change ofNode? lib n = some f
  rw [ofNode?, filled]
  rfl

end Complete

end ConfigFile

namespace Config

variable {c : Config}

/-! ## Configurations -/

lemma complete_file (h : c.maxIterations < 2 ^ 64) : (c.file preset).Complete where
  version := ⟨ConfigFile.currentVersion, by decide, rfl⟩
  given p hp := by
    simp only [file, Option.mem_def, Option.ite_none_left_eq_some, Option.some.injEq] at hp
    obtain ⟨given, rfl⟩ := hp
    exact given
  fits p hp n hn := by
    simp only [file, Option.mem_def, Option.ite_none_left_eq_some, Option.some.injEq] at hp
    obtain ⟨-, rfl⟩ := hp
    simp only [diff, changed, Option.mem_def, Option.ite_none_left_eq_some, Option.some.injEq] at hn
    exact hn.2 ▸ h

/-- The file of a configuration says the configuration. -/
lemma config_file : (c.file preset).config = .ok c := by
  have spelled : Preset.ofText preset.name = .ok preset := by
    cases preset
    all_goals rfl
  have same : (c.file preset).overrides.getD {} = c.diff (ofPreset preset) := by
    rw [file]
    split_ifs with empty
    · exact empty.symm
    · rfl
  rw [ConfigFile.config, same, file]
  dsimp only
  rw [if_neg (not_not_intro rfl), spelled]
  dsimp only
  rw [apply_diff]

/-- A text that is read as the file of a configuration is loaded as the configuration, if it is
valid. -/
lemma load_of_ofText? {text : String} (read : ConfigFile.ofText? lib text = some (c.file preset)) :
    load lib text = match c.validate with
      | .ok () => .ok c
      | .error e => .error (.refused e) := by
  rw [load, read]
  dsimp only
  rw [config_file]
  change (c.validate.mapError ConfigFileFault.refused >>= fun _ => Except.ok c) = _
  cases c.validate with
  | ok _ => rfl
  | error _ => rfl

/-- A configuration is read from its file as it was, if it is valid. If not, the file is refused for
the reason for which the configuration is. -/
theorem load_save (faithful : lib.Faithful spells) (c : Config) (preset : Preset)
    (h : c.maxIterations < 2 ^ 64) : ∃ text, c.save lib preset = .ok text ∧
    load lib text = match c.validate with
      | .ok () => .ok c
      | .error e => .error (.refused e) := by
  obtain ⟨text, written, read⟩ := (complete_file h : (c.file preset).Complete).ofText? faithful
  refine ⟨text, ?_, load_of_ofText? read⟩
  rw [save, written]

/-- A configuration that differs from the preset for repairs in all fields. Its prefixes are written
in all styles. -/
def contrary : Config where
  mode := .group
  allowSelfEdges := true
  printDebug := true
  maxIterations := 7
  reachability := .transitiveClosure
  excludedPrefixes := ["core::mem", "null", "it's: # odd", "a\tb", " two\nlines\n"]

/-- A file in YAML with prefixes in all styles, and a file of a configuration that is refused. -/
theorem load_save_contrary : Yaml.library.Faithful Yaml.Spelled ∧ contrary.maxIterations < 2 ^ 64 ∧
    (∃ text, contrary.save Yaml.library .repair = .ok text ∧
      load Yaml.library text = .ok contrary) ∧
    0 < 2 ^ 64 ∧ ∃ text, save Yaml.library { maxIterations := 0 } .detect = .ok text ∧
      load Yaml.library text = .error (.refused (.iterationRange 0)) :=
  have faithful := Yaml.library_faithful
  have small : contrary.maxIterations < 2 ^ 64 := by decide
  have zero : 0 < 2 ^ 64 := by decide
  ⟨faithful, small, load_save faithful contrary .repair small, zero,
    load_save faithful { maxIterations := 0 } .detect zero⟩

/-- The same of the files in YAML that users write. -/
theorem ofYaml_toYaml (h : c.maxIterations < 2 ^ 64) :
    ofYaml (c.toYaml preset) = match c.validate with
      | .ok () => .ok c
      | .error e => .error (.refused e) := by
  obtain ⟨text, written, read⟩ :=
    (complete_file h : (c.file preset).Complete).ofText? Yaml.library_faithful
  obtain rfl := Option.some.inj written
  exact load_of_ofText? read

end Config

end Interlock

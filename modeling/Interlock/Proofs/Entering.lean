import Interlock.Proofs.CallGraph.Chains
import Interlock.Proofs.Program.Build
import Interlock.Proofs.Transparency

/-!
# Entering is transitive

A section enters another if its call sites reach the other's method. Where the call sites of every
section are in the method that enters it (`Arena.CallsWithin`), the other's calls are among those
that the method makes, so what it reaches is reached as well (`CallGraph.Closed.reachable_trans`),
and entering is transitive. Sections that name no call sites have those of their method, so programs
whose sections all do are of this kind (`Model.caller_of_build`).
-/

namespace Interlock

variable {g : CallGraph} {a : Arena} {i j : SiteId} {m k : MethodId} {x y : SectionId}
  {oracle : Oracle}

/-- What is called from a method that is reached is reached. -/
lemma CallGraph.Closed.reachable_trans (h : g.Closed) (hm : m ∈ g.reachable i)
    (inside : g.caller? j = some m) (hk : k ∈ g.reachable j) : k ∈ g.reachable i := by
  obtain ⟨first, called, leads⟩ := (CallGraph.mem_reachable h).mp hm
  obtain ⟨target, ht, further⟩ := (CallGraph.mem_reachable h).mp hk
  have calls : target ∈ g.callees m :=
    CallGraph.mem_callees.mpr ⟨j, CallGraph.mem_sitesIn.mpr inside, ht⟩
  exact (CallGraph.mem_reachable h).mpr ⟨first, called, (leads.tail calls).trans further⟩

namespace Arena

/-- A section enters what is entered by one that it enters. -/
def EntersTransitively (a : Arena) : Prop :=
  ∀ ⦃x y z⦄, a.enters x y = .ok true → a.enters y z = .ok true → a.enters x z = .ok true

/-- The call sites of every section are in the method that enters it. -/
def CallsWithin (a : Arena) (g : CallGraph) : Prop :=
  ∀ ⦃i : SectionId⦄ ⦃s⦄, a.sections[i]? = some s → ∀ site ∈ s.invokes,
  g.caller? site = some s.method

lemma enters_eq_ok {b : Bool} : a.enters x y = .ok b ↔
    ∃ s t, a.sections[x]? = some s ∧ a.sections[y]? = some t ∧ s.enters t = b := by
  constructor
  · intro h
    obtain ⟨t, ht, h⟩ := bind_eq_ok.mp h
    obtain ⟨s, hs, h⟩ := bind_eq_ok.mp h
    cases h
    exact ⟨s, t, section?_eq_ok.mp hs, section?_eq_ok.mp ht, rfl⟩
  · rintro ⟨s, t, hs, ht, rfl⟩
    rw [enters, section?_eq_ok.mpr hs, section?_eq_ok.mpr ht]
    rfl

/-- Once its targets are known, a section enters the sections whose methods its call sites reach. -/
lemma TargetsUnknown.enters_iff (unknown : a.TargetsUnknown) :
    (a.ensureAllTargets oracle).enters x y = .ok true ↔
      ∃ s t, a.sections[x]? = some s ∧ a.sections[y]? = some t ∧ ∃ site ∈ s.invokes,
      t.method ∈ oracle site := by
  rw [unknown.ensureAllTargets, enters_eq_ok]
  simp only [List.getElem?_map, Option.map_eq_some_iff]
  constructor
  · rintro ⟨_, _, ⟨s, hs, rfl⟩, ⟨t, ht, rfl⟩, enters⟩
    have entered := SortedSet.mem_ofList.mp (SortedSet.contains_eq_true.mp enters)
    exact ⟨s, t, hs, ht, List.mem_flatMap.mp entered⟩
  · rintro ⟨s, t, hs, ht, entered⟩
    have mem := SortedSet.mem_ofList.mpr (List.mem_flatMap.mpr entered)
    exact ⟨_, _, ⟨s, hs, rfl⟩, ⟨t, ht, rfl⟩, SortedSet.contains_eq_true.mpr mem⟩

lemma CallsWithin.entersTransitively (within : a.CallsWithin g) (closed : g.Closed)
    (unknown : a.TargetsUnknown) : (a.ensureAllTargets g.reachable).EntersTransitively := by
  intro x y z xy yz
  rw [unknown.enters_iff] at xy yz ⊢
  obtain ⟨s, t, hs, ht, i, hi, reached⟩ := xy
  obtain ⟨t', u, ht', hu, j, hj, further⟩ := yz
  obtain rfl : t = t' := Option.some.inj (ht.symm.trans ht')
  exact ⟨s, u, hs, hu, i, hi, closed.reachable_trans reached (within ht j hj) further⟩

end Arena

/-- In a built program, the call sites of a section that names none are in its method. -/
lemma Model.caller_of_build {m : Model} {p : Program} {s : SectionSpec} {r : Section}
    {n : SectionId} (built : m.build = .ok p) (hs : m.criticalSections[n]? = some s)
    (hr : p.arena.sections[n]? = some r)
    (unnamed : s.invokes = none) : ∀ site ∈ r.invokes, p.calls.caller? site = some r.method := by
  have describes := ((settles_build m).of_ok built).2
  obtain ⟨s', hs', enters⟩ := getElem?_of_forall₂ describes.sections hr
  obtain rfl : s = s' := Option.some.inj (hs.symm.trans hs')
  intro site mem
  have made := (enters.invokes.own unnamed site).mp mem
  exact CallGraph.mem_sitesIn.mp ((mem_sitesIn_of_makes describes.sites).mpr made)

lemma Model.callsWithin_of_build {m : Model} {p : Program} (built : m.build = .ok p)
    (unnamed : ∀ s ∈ m.criticalSections, s.invokes = none) : p.arena.CallsWithin p.calls := by
  intro n r hr
  have describes := ((settles_build m).of_ok built).2
  obtain ⟨s, hs, _⟩ := getElem?_of_forall₂ describes.sections hr
  exact caller_of_build built hs hr (unnamed s (List.mem_of_getElem? hs))

/-- Whatever the operations that led to a call graph were: where no targets are known yet and the
call sites of every section are in its method, entering is transitive once targets are known. This
is so for a program that is built from a model whose sections name no call sites, whichever methods
are excluded. -/
theorem enters_trans :
    (∀ (ops : List CallGraph.Operation) (a : Arena), a.TargetsUnknown → a.CallsWithin (.after ops) →
      (a.ensureAllTargets (CallGraph.after ops).reachable).EntersTransitively) ∧
    ∀ (m : Model) (p : Program), m.build = .ok p → (∀ s ∈ m.criticalSections, s.invokes = none) →
      p.arena.CallsWithin p.calls ∧ ∀ names,
        (p.arena.ensureAllTargets
          { p.calls with excluded := names }.reachable).EntersTransitively := by
  constructor
  · intro ops a unknown within
    exact within.entersTransitively (CallGraph.closed_after ops) unknown
  · intro m p built unnamed
    have within := Model.callsWithin_of_build built unnamed
    have closed := Model.closed_of_build built
    have unknown := (Model.fresh_of_build built).2
    refine ⟨within, fun names => ?_⟩
    -- exclusions change neither where the call sites are nor where their edges lead
    have within' : p.arena.CallsWithin { p.calls with excluded := names } := within
    exact within'.entersTransitively closed unknown

/-- The sections of two methods that call each other enter themselves, since each enters the
other. -/
theorem enters_trans_callingEachOther :
    ∃ p, callingEachOther.build = .ok p ∧ p.arena.enters 0 0 = .ok false ∧
      p.calls = .after [.addMethod "App.a", .addMethod "Lib.b", .addCall 0 1, .addCall 1 0] ∧
      p.arena.TargetsUnknown ∧ p.arena.CallsWithin p.calls ∧
      (p.arena.ensureAllTargets p.calls.reachable).enters 0 1 = .ok true ∧
      (p.arena.ensureAllTargets p.calls.reachable).enters 1 0 = .ok true ∧
      (p.arena.ensureAllTargets p.calls.reachable).enters 0 0 = .ok true := by
  obtain ⟨p, built, apart, calls, there, back⟩ : ∃ p, callingEachOther.build = .ok p ∧
      p.arena.enters 0 0 = .ok false ∧
      p.calls = .after [.addMethod "App.a", .addMethod "Lib.b", .addCall 0 1, .addCall 1 0] ∧
      (p.arena.ensureAllTargets p.calls.reachable).enters 0 1 = .ok true ∧
      (p.arena.ensureAllTargets p.calls.reachable).enters 1 0 = .ok true :=
        ⟨_, rfl, rfl, rfl, rfl, rfl⟩
  have unnamed : ∀ s ∈ callingEachOther.criticalSections,
      s.invokes = none := by simp [callingEachOther]
  have unknown := (Model.fresh_of_build built).2
  have within := (enters_trans.2 _ p built unnamed).1
  refine ⟨p, built, apart, calls, unknown, within, there, back, ?_⟩
  rw [calls] at within there back ⊢
  exact enters_trans.1 _ _ unknown within there back

end Interlock

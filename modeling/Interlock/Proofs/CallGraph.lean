import Interlock.CallGraph
import Interlock.Proofs.Walk

/-!
# What calls reach

A call site is added to a method that exists, and an edge to one that does
(`CallGraph.addSite_of_lt`, `CallGraph.exists_addEdge`). A call site reaches the targets of its
visible edges and whatever these call visibly, and nothing else (`CallGraph.mem_reachable`).
Exclusions hide edges, so with fewer of them more is reached (`CallGraph.reachable_mono`).
-/

namespace Interlock.CallGraph

variable {g : CallGraph} {e : CallEdge} {i : SiteId} {target method caller : MethodId}
  {kind : CallKind} {fewer more : List String}

/-! ## Call sites and edges that are added -/

lemma addSite_of_lt (there : caller < g.methods.length) :
    g.addSite caller = .ok ({ g with sites := g.sites ++ [{ caller }] }, g.sites.length) := by
  rw [addSite, checkMethod, if_pos there]
  rfl

lemma addSite_of_not_lt (out : ¬ caller < g.methods.length) :
    g.addSite caller = .error (.model (.unknownMethodId caller)) := by
  rw [addSite, checkMethod, if_neg out]
  rfl

lemma addEdge_of_not_lt (out : ¬ target < g.methods.length) :
    g.addEdge i target kind = .error (.model (.unknownMethodId target)) := by
  rw [addEdge, checkMethod, if_neg out]
  rfl

lemma exists_addEdge (there : target < g.methods.length) (inside : i < g.sites.length) :
    ∃ g', g.addEdge i target kind = .ok g' := by
  rw [addEdge, checkMethod, if_pos there]
  exact ⟨_, if_pos inside⟩

/-! ## Visible calls -/

/-- Edges lead to methods that there are. -/
def Closed (g : CallGraph) : Prop := ∀ site ∈ g.sites, ∀ e ∈ site.edges, e.target < g.methods.length

lemma mem_visibleTargets : target ∈ g.visibleTargets i ↔
    ∃ site, g.sites[i]? = some site ∧ ∃ e ∈ site.edges,
    g.isVisible e = true ∧ e.target = target := by
  unfold visibleTargets
  cases g.sites[i]? with
  | none => simp
  | some site => simp [List.mem_map, List.mem_filter, and_assoc]

lemma mem_callees : target ∈ g.callees caller ↔
    ∃ i ∈ g.sitesIn caller, target ∈ g.visibleTargets i :=
  List.mem_flatMap

lemma mem_sitesIn : i ∈ g.sitesIn method ↔ g.caller? i = some method := by
  rw [sitesIn, List.mem_filter, List.mem_range, beq_iff_eq, and_iff_right_iff_imp]
  intro h
  obtain ⟨site, hs, _⟩ := Option.map_eq_some_iff.mp h
  exact (List.getElem?_eq_some_iff.mp hs).1

lemma Closed.lt_of_visible (h : g.Closed) (ht : target ∈ g.visibleTargets i) :
    target < g.methods.length := by
  obtain ⟨site, hs, e, he, _, rfl⟩ := mem_visibleTargets.mp ht
  exact h site (List.mem_of_getElem? hs) e he

/-- What the methods of a graph call are methods of it. -/
lemma Closed.callees_inside (h : g.Closed) : ∀ caller ∈ Finset.range g.methods.length,
    ∀ target ∈ g.callees caller, target ∈ Finset.range g.methods.length := by
  intro caller _ target called
  obtain ⟨site, _, ht⟩ := mem_callees.mp called
  exact Finset.mem_range.mpr (h.lt_of_visible ht)

/-- What is called at a call site are methods of the graph. -/
lemma Closed.targets_inside (h : g.Closed) :
    ∀ target ∈ g.visibleTargets i, target ∈ Finset.range g.methods.length :=
  fun _ ht => Finset.mem_range.mpr (h.lt_of_visible ht)

/-- A call may run into the targets that are visible at its site and into what these call
visibly. -/
theorem mem_reachable (h : g.Closed) : method ∈ g.reachable i ↔
    ∃ target ∈ g.visibleTargets i, Walk.Reaches g.callees target method :=
  Walk.mem_nodes h.callees_inside h.targets_inside (Finset.card_range _).le

/-! ## Fewer exclusions -/

lemma isVisible_mono (sub : fewer ⊆ more) (h : { g with excluded := more }.isVisible e = true) :
    { g with excluded := fewer }.isVisible e = true := by
  unfold isVisible visibleCall at h ⊢
  rw [Bool.and_eq_true, Bool.not_eq_true', List.any_eq_false] at h ⊢
  exact ⟨h.1, fun start hs => h.2 start (sub hs)⟩

lemma visibleTargets_mono (sub : fewer ⊆ more) :
    { g with excluded := more }.visibleTargets i ⊆
      { g with excluded := fewer }.visibleTargets i := by
  intro target ht
  obtain ⟨site, hs, e, he, visible, rfl⟩ := mem_visibleTargets.mp ht
  exact mem_visibleTargets.mpr ⟨site, hs, e, he, isVisible_mono sub visible, rfl⟩

lemma callees_mono (sub : fewer ⊆ more) :
    { g with excluded := more }.callees caller ⊆ { g with excluded := fewer }.callees caller := by
  intro target called
  obtain ⟨i, there, ht⟩ := mem_callees.mp called
  exact mem_callees.mpr ⟨i, there, visibleTargets_mono sub ht⟩

/-- With fewer exclusions a call reaches what it reached, and maybe more. -/
theorem reachable_mono (h : g.Closed) (sub : fewer ⊆ more) :
    { g with excluded := more }.reachable i ⊆ { g with excluded := fewer }.reachable i := by
  have closed : ∀ names, { g with excluded := names }.Closed := fun _ => h
  intro method hm
  obtain ⟨target, ht, path⟩ := (mem_reachable (closed more)).mp hm
  refine (mem_reachable (closed fewer)).mpr ⟨target, visibleTargets_mono sub ht, ?_⟩
  exact path.lift id fun _ _ called => callees_mono sub called

end Interlock.CallGraph

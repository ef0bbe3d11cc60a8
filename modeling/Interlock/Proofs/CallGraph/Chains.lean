import Interlock.Proofs.CallGraph
import Interlock.Proofs.Walk.Distance
import Interlock.Proofs.Walk.Queue
import Mathlib.Data.List.Induction

/-!
# Chains of calls

A call site reaches a method by a chain of visible calls (`CallGraph.Chain`): the method is called
at the site, or at a call site inside a method that is reached. In a graph that the operations
build, whatever they were and whichever of them failed, every edge leads to a method that there is
(`closed_after`).

The walk from a call site of such a graph meets the methods that chains lead to, each once, those
with shorter chains first, and it may be taken one method at a time (`reachable_walked`).
-/

namespace Interlock.CallGraph

/-- The edge is run under the caller's locks, by its kind, and its target's name has none of the
excluded starts. -/
def Visible (g : CallGraph) (e : CallEdge) : Prop :=
  (e.kind = .direct ∨ e.kind = .virtual) ∧
    ∃ name, g.methods[e.target]? = some name ∧ ∀ start ∈ g.excluded, ¬ start.toList <+: name.toList

/-- The call site has a visible edge to the method. -/
def CallsVisibly (g : CallGraph) (i : SiteId) (m : MethodId) : Prop :=
  ∃ site, g.sites[i]? = some site ∧ ∃ e ∈ site.edges, g.Visible e ∧ e.target = m

/-- A chain of so many visible calls leads from the call site to the method. -/
inductive Chain (g : CallGraph) (i : SiteId) : Nat → MethodId → Prop
  | call {m} : g.CallsVisibly i m → Chain g i 1 m
  | further {n m k j} : Chain g i n m → g.caller? j = some m → g.CallsVisibly j k →
    Chain g i (n + 1) k

variable {g : CallGraph} {i : SiteId} {m target caller : MethodId} {n : Nat} {name : String}
  {kind : CallKind}

/-! ## Graphs that the operations build -/

/-- An operation on a call graph. -/
inductive Operation where
  | addMethod (name : String)
  | addSite (caller : MethodId)
  | addEdge (i : SiteId) (target : MethodId) (kind : CallKind)
  | addCall (caller target : MethodId)
  | exclude (starts : List String)

/-- The graph after an operation. One that fails leaves the graph as it is, but for a call site that
was added before its target was not found. -/
def perform (g : CallGraph) : Operation → CallGraph
  | .addMethod name => (g.addMethod name).1
  | .addSite caller => ((g.addSite caller).map Prod.fst).toOption.getD g
  | .addEdge i target kind => (g.addEdge i target kind).toOption.getD g
  | .addCall caller target => (g.addCall caller target).1
  | .exclude starts => { g with excluded := starts }

/-- The graph after operations from the empty one on. -/
def after (ops : List Operation) : CallGraph := ops.foldl perform .empty

/-- A call site that is added is the last one, in a method that there is. -/
lemma addSite_eq_ok {r : CallGraph × SiteId} (h : g.addSite caller = .ok r) :
    caller < g.methods.length ∧
      r = ({ g with sites := g.sites ++ [{ caller }] }, g.sites.length) := by
  unfold addSite checkMethod at h
  split at h
  · rename_i there
    cases h
    exact ⟨there, rfl⟩
  · cases h

/-- An edge is added to a call site that there is, and leads to a method that there is. -/
lemma addEdge_eq_ok {g' : CallGraph} (h : g.addEdge i target kind = .ok g') :
    target < g.methods.length ∧ i < g.sites.length ∧
      g' = { g with sites := g.sites.modify i fun site =>
        if site.edges.contains { target, kind } then site
        else { site with edges := site.edges ++ [{ target, kind }] } } := by
  unfold addEdge checkMethod at h
  split at h
  · rename_i there
    dsimp only [bind, Except.bind] at h
    split at h
    · rename_i inside
      cases h
      exact ⟨there, inside, rfl⟩
    · cases h
  · cases h

/-- A call site whose target does not exist stays, without an edge. -/
lemma addCall_of_not_lt (there : caller < g.methods.length) (out : ¬ target < g.methods.length) :
    g.addCall caller target =
      ({ g with sites := g.sites ++ [{ caller }] }, .error (.model (.unknownMethodId target))) := by
  have missed : addEdge { g with sites := g.sites ++ [{ caller }] } g.sites.length target .direct =
      .error (.model (.unknownMethodId target)) := addEdge_of_not_lt out
  rw [addCall, addSite_of_lt there]
  dsimp only
  rw [missed]

/-- A call that fails leaves the graph as it was, unless its caller exists and its target does
not. -/
lemma addCall_eq_error {g' : CallGraph} {f : Fault} (h : g.addCall caller target = (g', .error f))
    (known : caller < g.methods.length → target < g.methods.length) : g' = g := by
  by_cases there : caller < g.methods.length
  · have inside : g.sites.length < (g.sites ++ [({ caller } : CallSite)]).length := by simp
    obtain ⟨_, joined⟩ :
      ∃ g', addEdge { g with sites := g.sites ++ [{ caller }] } g.sites.length target
        .direct = .ok g' := exists_addEdge (known there) inside
    rw [addCall, addSite_of_lt there] at h
    dsimp only at h
    rw [joined] at h
    cases h
  · rw [addCall, addSite_of_not_lt there] at h
    cases h
    rfl

namespace Closed

lemma addMethod (h : g.Closed) : (g.addMethod name).1.Closed := by
  unfold CallGraph.addMethod
  split
  · exact h
  · intro site hs e he
    have less := h site hs e he
    rw [List.length_append]
    exact Nat.lt_add_right _ less

lemma addSite {r : CallGraph × SiteId} (h : g.Closed) (hr : g.addSite caller = .ok r) :
    r.1.Closed := by
  obtain ⟨_, rfl⟩ := addSite_eq_ok hr
  intro site hs e he
  rcases List.mem_append.mp hs with hs | hs
  · exact h site hs e he
  · rw [List.mem_singleton.mp hs] at he
    cases he

lemma addEdge {g' : CallGraph} (h : g.Closed) (hg : g.addEdge i target kind = .ok g') :
    g'.Closed := by
  obtain ⟨there, _, rfl⟩ := addEdge_eq_ok hg
  intro site hs e he
  obtain ⟨j, hj⟩ := List.mem_iff_getElem?.mp hs
  rw [List.getElem?_modify] at hj
  obtain ⟨old, ho, rfl⟩ := Option.map_eq_some_iff.mp hj
  have kept := h old (List.mem_of_getElem? ho)
  split at he
  · split at he
    · exact kept e he
    · rcases List.mem_append.mp he with he | he
      · exact kept e he
      · rw [List.mem_singleton.mp he]
        exact there
  · exact kept e he

lemma addCall (h : g.Closed) : (g.addCall caller target).1.Closed := by
  unfold CallGraph.addCall
  split
  · exact h
  · rename_i g' id added
    have closed : g'.Closed := h.addSite added
    split
    · exact closed
    · rename_i joined
      exact closed.addEdge joined

/-- Every operation keeps a graph closed, whether it fails or not. -/
lemma perform (h : g.Closed) (op : Operation) : (g.perform op).Closed := by
  cases op with
  | addMethod name => exact h.addMethod
  | addSite caller =>
    rw [CallGraph.perform]
    cases hr : g.addSite caller with
    | error f => exact h
    | ok r => exact h.addSite hr
  | addEdge i target kind =>
    rw [CallGraph.perform]
    cases hg : g.addEdge i target kind with
    | error f => exact h
    | ok g' => exact h.addEdge hg
  | addCall caller target => exact h.addCall
  | exclude starts => exact h

end Closed

/-- The edges of a graph that the operations build lead to methods that there are. -/
theorem closed_after (ops : List Operation) : (after ops).Closed := by
  induction ops using List.reverseRecOn with
  | nil => exact nofun
  | append_singleton ops op ih =>
    rw [after, List.foldl_append]
    exact ih.perform op

/-! ## Visible calls -/

lemma underCallerLocks_iff : kind.underCallerLocks = true ↔ kind = .direct ∨ kind = .virtual := by
  cases kind <;> simp [CallKind.underCallerLocks]

/-- The test of an edge is passed by the visible ones. -/
lemma isVisible_iff {e : CallEdge} (there : e.target < g.methods.length) :
    g.isVisible e = true ↔ g.Visible e := by
  have named : g.methods[e.target]? = some g.methods[e.target] := List.getElem?_eq_getElem there
  have passed : g.isVisible e = true ↔ (e.kind = .direct ∨ e.kind = .virtual) ∧
      ∀ start ∈ g.excluded, ¬ start.toList <+: g.methods[e.target].toList := by
    rw [isVisible, methodName?, named, Option.getD_some, visibleCall, Bool.and_eq_true,
      underCallerLocks_iff, Bool.not_eq_true', List.any_eq_false]
    simp only [startsWith, List.isPrefixOf_iff_prefix]
  rw [passed, Visible, named]
  simp only [Option.some_inj, exists_eq_left']

/-- The visible targets of a call site are the methods that it calls visibly. -/
lemma Closed.mem_visibleTargets (h : g.Closed) : m ∈ g.visibleTargets i ↔ g.CallsVisibly i m := by
  rw [CallGraph.mem_visibleTargets]
  apply exists_congr
  intro site
  apply and_congr_right
  intro hs
  apply exists_congr
  intro e
  apply and_congr_right
  intro he
  rw [isVisible_iff (h site (List.mem_of_getElem? hs) e he)]

/-! ## Chains -/

/-- The calls of a chain after the first are steps from a method to one that it calls. -/
lemma Closed.chain_iff (h : g.Closed) :
    g.Chain i n m ↔ ∃ d, n = d + 1 ∧ Walk.Steps g.callees (g.visibleTargets i) d m := by
  constructor
  · intro chain
    induction chain with
    | call calls => exact ⟨0, rfl, .start (h.mem_visibleTargets.mpr calls)⟩
    | further _ inside calls ih =>
      obtain ⟨d, rfl, steps⟩ := ih
      refine ⟨d + 1, rfl, .step steps (mem_callees.mpr ⟨_, mem_sitesIn.mpr inside, ?_⟩)⟩
      exact h.mem_visibleTargets.mpr calls
  · rintro ⟨d, rfl, steps⟩
    induction steps with
    | start first => exact .call (h.mem_visibleTargets.mp first)
    | step _ called ih =>
      obtain ⟨j, inside, calls⟩ := mem_callees.mp called
      exact .further ih (mem_sitesIn.mp inside) (h.mem_visibleTargets.mp calls)

/-- What the walk from a call site meets. -/
structure Walked (g : CallGraph) (i : SiteId) : Prop where
  /-- The edges that it takes are the visible ones. -/
  visible : ∀ site ∈ g.sites, ∀ e ∈ site.edges, g.isVisible e = true ↔ g.Visible e
  /-- A method is met exactly if a chain leads to it. -/
  reached : ∀ m, m ∈ g.reachable i ↔ ∃ n, g.Chain i n m
  once : (g.reachable i).Nodup
  /-- A method that is met before another has a chain that is no longer than any to the other. -/
  nearest : (g.reachable i).Pairwise fun m k => ∀ n, g.Chain i n k → ∃ j ≤ n, g.Chain i j m
  /-- Methods may be pulled one at a time from a queue of those that are still to come, until there
  are none. -/
  pulled : Walk.Queue.Yields g.callees (Walk.Queue.ofList (g.visibleTargets i)) (g.reachable i)

lemma Closed.walked (h : g.Closed) : g.Walked i := by
  constructor
  case visible => exact fun site hs e he => isVisible_iff (h site hs e he)
  case reached =>
    intro m
    rw [mem_reachable h, ← Walk.exists_steps]
    constructor
    · rintro ⟨d, steps⟩
      exact ⟨d + 1, h.chain_iff.mpr ⟨d, rfl, steps⟩⟩
    · rintro ⟨n, chain⟩
      obtain ⟨d, _, steps⟩ := h.chain_iff.mp chain
      exact ⟨d, steps⟩
  case once => exact Walk.nodup_nodes
  case nearest =>
    refine Walk.nodes_nearest.imp fun {m k} nearer n chain => ?_
    obtain ⟨d, rfl, steps⟩ := h.chain_iff.mp chain
    obtain ⟨j, le, steps⟩ := nearer d steps
    exact ⟨j + 1, Nat.succ_le_succ le, h.chain_iff.mpr ⟨j, rfl, steps⟩⟩
  case pulled => exact Walk.yields_nodes h.callees_inside h.targets_inside (Finset.card_range _).le

/-- Whatever the operations that led to a call graph were, the walk from each call site is exact. -/
theorem reachable_walked (ops : List Operation) (i : SiteId) : (after ops).Walked i :=
  (closed_after ops).walked

end Interlock.CallGraph

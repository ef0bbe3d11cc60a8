import Interlock.Program.Model
import Interlock.Proofs.CallGraph
import Interlock.Proofs.Program.Settles
import Mathlib.Data.List.Nodup

/-!
# Methods and calls of a model

`Model.addMethods` goes through if the names of the methods are different (`settles_addMethods`),
and `Model.addCalls` for all of them if every call target is a method and the labels are different
(`settles_calls`). The call sites are then those of the methods in order of declaration
(`Model.callSites`), each with an edge to every method that it names (`Model.Makes`), and a label
stands for the one call site that has it (`Model.Calls.Holds`).
-/

namespace Interlock

open List (Forall₂)

variable {g g' : CallGraph} {names : List String} {name : String} {j : MethodId} {site : SiteId}

/-! ## Methods by name -/

namespace CallGraph

lemma methodId?_eq_none : g.methodId? name = none ↔ name ∉ g.methods := by
  rw [methodId?, List.findIdx?_eq_none_iff]
  constructor
  · intro h mem
    simpa using h name mem
  · intro h other mem
    rw [beq_eq_false_iff_ne]
    rintro rfl
    exact h mem

/-- Where names are different, a method is found by its name. -/
lemma methodId?_eq_some (nodup : g.methods.Nodup) :
    g.methodId? name = some j ↔ g.methods[j]? = some name := by
  rw [methodId?, List.findIdx?_eq_some_iff_getElem, List.getElem?_eq_some_iff]
  apply exists_congr
  intro less
  rw [beq_iff_eq]
  refine ⟨And.left, fun h => ⟨h, ?_⟩⟩
  intro i before
  rw [beq_iff_eq, ← h, nodup.getElem_inj_iff]
  exact Nat.ne_of_lt before

end CallGraph

namespace Model

lemma settles_resolveMethod (nodup : g.methods.Nodup) :
    Settles (resolveMethod g name) (name ∈ g.methods) (fun id => g.methods[id]? = some name) := by
  unfold resolveMethod
  cases h : g.methodId? name with
  | none => exact .error _ (CallGraph.methodId?_eq_none.mp h) rfl
  | some id =>
    have there := (CallGraph.methodId?_eq_some nodup).mp h
    exact .ok id (List.mem_of_getElem? there) rfl there

/-- Methods are declared if their names are different from each other and from those that there
are. -/
lemma settles_addMethods {methods : List MethodSpec} (nodup : g.methods.Nodup) :
    Settles (addMethods g methods) (g.methods ++ methods.map (·.name)).Nodup
      (fun g' => g' = { g with methods := g.methods ++ methods.map (·.name) }) := by
  induction methods generalizing g with
  | nil =>
    refine .ok g ?_ rfl ?_
    · rw [List.map_nil, List.append_nil]
      exact nodup
    · rw [List.map_nil, List.append_nil]
  | cons m rest ih =>
    unfold addMethods
    cases h : g.methodId? m.name with
    | some id =>
      have old := List.mem_of_getElem? ((CallGraph.methodId?_eq_some nodup).mp h)
      refine .error _ (fun all => ?_) rfl
      exact (List.nodup_append.mp all).2.2 m.name old m.name List.mem_cons_self rfl
    | none =>
      have new := CallGraph.methodId?_eq_none.mp h
      have added : (g.addMethod m.name).1 = { g with methods := g.methods ++ [m.name] } := by
        rw [CallGraph.addMethod, h]
      rw [added]
      have nodup' : (g.methods ++ [m.name]).Nodup := List.concat_eq_append ▸ nodup.concat new
      refine (ih nodup').imp ?_ ?_
      · rw [List.append_assoc, List.map_cons, List.singleton_append]
      · intro g' _ hg
        rw [hg, List.append_assoc, List.map_cons, List.singleton_append]

/-! ## Edges -/

variable {sites : List CallSite} {s : CallSite} {kind : CallKind} {target : MethodId}

/-- The last call site of a graph gets an edge to a method that exists. -/
lemma addEdge_last (kind : CallKind) (there : target < g.methods.length)
    (last : g.sites = sites ++ [s]) :
    ∃ edges, g.addEdge sites.length target kind =
      .ok { g with sites := sites ++ [{ s with edges }] } ∧
      ∀ e, e ∈ edges ↔ e ∈ s.edges ∨ e = { target, kind } := by
  have inside : sites.length < g.sites.length := by
    simp [last]
  unfold CallGraph.addEdge CallGraph.checkMethod
  rw [if_pos there]
  dsimp only [bind, Except.bind]
  rw [if_pos inside, last, modify_concat]
  split
  · rename_i old
    refine ⟨s.edges, rfl, fun e => ?_⟩
    rw [iff_self_or]
    rintro rfl
    exact List.contains_iff_mem.mp old
  · refine ⟨_, rfl, fun e => ?_⟩
    rw [List.mem_append, List.mem_singleton]

/-- A call site at the end of a graph gets edges to the methods that it names, if there are such. -/
lemma settles_addTargets {targets : List String} (nodup : g.methods.Nodup)
    (last : g.sites = sites ++ [s]) :
    Settles (addTargets sites.length kind g targets) (∀ t ∈ targets, t ∈ g.methods)
      (fun g' => ∃ edges, g' = { g with sites := sites ++ [{ s with edges }] } ∧
        ∀ e, e ∈ edges ↔ e ∈ s.edges ∨
          (e.kind = kind ∧ ∃ target ∈ targets, g.methods[e.target]? = some target)) := by
  induction targets generalizing g s with
  | nil =>
    refine .ok g nofun rfl ⟨s.edges, ?_, ?_⟩
    · rw [← last]
    · simp
  | cons name rest ih =>
    unfold addTargets
    refine (settles_resolveMethod nodup).bind ?_ fun all => all name List.mem_cons_self
    intro id declared found
    obtain ⟨edges, added, mem⟩ := addEdge_last kind (List.getElem?_eq_some_iff.mp found).1 last
    rw [added]
    refine (ih (g := { g with sites := sites ++ [{ s with edges }] }) (s := { s with edges }) nodup
      rfl).imp ?_ ?_
    · rw [List.forall_mem_cons]
      exact ⟨fun others => ⟨declared, others⟩, And.right⟩
    · rintro g' - ⟨edges', rfl, mem'⟩
      refine ⟨edges', rfl, fun e => ?_⟩
      -- a method is found at one place only, so the edge to it is known by its name
      have first : e = { target := id, kind } ↔ e.kind = kind ∧
        g.methods[e.target]? = some name := by
        constructor
        · rintro rfl
          exact ⟨rfl, found⟩
        · rintro ⟨hk, there⟩
          have same := (CallGraph.methodId?_eq_some nodup).mpr there
          rw [(CallGraph.methodId?_eq_some nodup).mpr found] at same
          cases e
          cases hk
          cases same
          rfl
      rw [mem', mem, first]
      simp only [List.mem_cons, exists_eq_or_imp, and_or_left, or_assoc]

/-! ## Call sites -/

/-- The call sites of methods in order of declaration, each with the number of the method that it is
in. -/
def callSites (methods : List MethodSpec) : List (MethodId × CallSpec) :=
  methods.zipIdx.flatMap fun (method, id) => method.calls.map (id, ·)

lemma callSites_concat {methods : List MethodSpec} {m : MethodSpec} :
    callSites (methods ++ [m]) = callSites methods ++ m.calls.map (methods.length, ·) := by
  simp [callSites, List.zipIdx_append]

/-- The labels of call sites. -/
def labels (calls : List (MethodId × CallSpec)) : List String := calls.filterMap (·.2.label)

/-- The call site has the label. -/
def HasLabel (calls : List (MethodId × CallSpec)) (site : SiteId) (label : String) : Prop :=
  ∃ j call, calls[site]? = some (j, call) ∧ call.label = some label

variable {calls : List (MethodId × CallSpec)} {call : CallSpec} {c c' : Calls} {label : String}

lemma mem_labels : label ∈ labels calls ↔ ∃ site, HasLabel calls site label := by
  rw [labels, List.mem_filterMap]
  constructor
  · rintro ⟨⟨j, call⟩, mem, e⟩
    obtain ⟨site, there⟩ := List.mem_iff_getElem?.mp mem
    exact ⟨site, j, call, there, e⟩
  · rintro ⟨site, j, call, there, e⟩
    exact ⟨(j, call), List.mem_of_getElem? there, e⟩

/-- One more call site has its label and leaves the others theirs. -/
lemma hasLabel_concat : HasLabel (calls ++ [(j, call)]) site label ↔
    HasLabel calls site label ∨ (site = calls.length ∧ call.label = some label) := by
  unfold HasLabel
  simp only [getElem?_concat_eq_some]
  constructor
  · rintro ⟨i, k, there | ⟨last, same⟩, e⟩
    · exact .inl ⟨i, k, there, e⟩
    · cases same
      exact .inr ⟨last, e⟩
  · rintro (⟨i, k, there, e⟩ | ⟨last, e⟩)
    · exact ⟨i, k, .inl there, e⟩
    · exact ⟨j, call, .inr ⟨last, rfl⟩, e⟩

/-- The call sites name methods that there are, and have labels of their own. -/
structure CallsResolve (names : List String) (calls : List (MethodId × CallSpec)) : Prop where
  targets : ∀ call ∈ calls, ∀ target ∈ call.2.targets, target ∈ names
  labels : (labels calls).Nodup

/-- A call site of a graph is in its method, and has edges to the methods that it names. -/
structure Makes (names : List String) (call : MethodId × CallSpec) (site : CallSite) : Prop where
  caller : site.caller = call.1
  edges : ∀ e, e ∈ site.edges ↔
    e.kind = call.2.kind ∧ ∃ target ∈ call.2.targets, names[e.target]? = some target

/-- What is known of a graph once call sites were added to it. -/
structure Calls.Holds (c : Calls) (names : List String)
    (calls : List (MethodId × CallSpec)) : Prop where
  methods : c.graph.methods = names
  sites : Forall₂ (Makes names) calls c.graph.sites
  /-- A label stands for the call site that has it. -/
  labelled : ∀ label site, c.labelled.lookup label = some site ↔ HasLabel calls site label

lemma Calls.Holds.isSome_lookup (h : c.Holds names calls) :
    (c.labelled.lookup label).isSome = true ↔ label ∈ labels calls := by
  rw [Option.isSome_iff_exists, mem_labels]
  exact exists_congr fun site => h.labelled label site

lemma CallsResolve.of_append {more : List (MethodId × CallSpec)}
    (h : CallsResolve names (calls ++ more)) :
    CallsResolve names calls := by
  constructor
  · exact fun call mem => h.targets call (List.mem_append_left more mem)
  · have both := h.labels
    rw [Model.labels, List.filterMap_append] at both
    exact (List.nodup_append.mp both).1

/-- A call site is added if its targets are methods and its label is new. -/
lemma callsResolve_concat :
    CallsResolve names (calls ++ [(j, call)]) ↔ CallsResolve names calls ∧
      (∀ target ∈ call.targets, target ∈ names) ∧
      ∀ label, call.label = some label → label ∉ labels calls := by
  have split : labels (calls ++ [(j, call)]) = labels calls ++ call.label.toList := by
    rw [labels, List.filterMap_append, labels]
    cases e : call.label with
    | none => simp [e]
    | some label => simp [e]
  constructor
  · intro h
    refine ⟨h.of_append, ?_, ?_⟩
    · exact h.targets (j, call) (List.mem_append_right _ (List.mem_singleton_self _))
    · intro label e old
      have both := h.labels
      rw [split, e] at both
      exact (List.nodup_append.mp both).2.2 label old label (List.mem_singleton_self _) rfl
  · rintro ⟨h, targets, new⟩
    constructor
    · intro other mem
      rcases List.mem_append.mp mem with mem | mem
      · exact h.targets other mem
      · rw [List.mem_singleton.mp mem]
        exact targets
    · rw [split]
      cases e : call.label with
      | none =>
        rw [Option.toList_none, List.append_nil]
        exact h.labels
      | some label => exact List.concat_eq_append ▸ h.labels.concat (new label e)

/-- A call site that has no label leaves the labels as they are. -/
lemma Calls.Holds.unlabelled {graph : CallGraph} (h : c.Holds names calls)
    (methods : graph.methods = names)
    (sites : Forall₂ (Makes names) (calls ++ [(j, call)]) graph.sites)
    (unlabelled : call.label = none) :
    Calls.Holds { c with graph } names (calls ++ [(j, call)]) := by
  refine ⟨methods, sites, fun label site => ?_⟩
  rw [h.labelled, hasLabel_concat, unlabelled, or_iff_left]
  rintro ⟨_, labelled⟩
  cases labelled

/-- A label that is new stands for the call site that was added. -/
lemma Calls.Holds.withLabel {graph : CallGraph} (h : c.Holds names calls)
    (methods : graph.methods = names)
    (sites : Forall₂ (Makes names) (calls ++ [(j, call)]) graph.sites)
    (labelled : call.label = some label) (new : label ∉ labels calls) :
    Calls.Holds { graph, labelled := (label, calls.length) :: c.labelled } names
      (calls ++ [(j, call)]) := by
  refine ⟨methods, sites, fun other site => ?_⟩
  rw [hasLabel_concat, labelled, List.lookup_cons]
  by_cases e : other = label
  · subst e
    have unknown : ¬ HasLabel calls site other := fun old => new (mem_labels.mpr ⟨site, old⟩)
    simp [unknown, eq_comm]
  · rw [beq_eq_false_iff_ne.mpr e]
    dsimp only
    rw [h.labelled, or_iff_left]
    exact fun added => e (Option.some.inj added.2).symm

/-- A call site is added if it names methods that there are and its label is new. -/
lemma settles_addCall (nodup : names.Nodup) (there : j < names.length)
    (resolve : CallsResolve names calls) (h : c.Holds names calls) :
    Settles (addCall j c call) (CallsResolve names (calls ++ [(j, call)]))
      (fun c' => c'.Holds names (calls ++ [(j, call)])) := by
  have methods := h.methods
  have length : c.graph.sites.length = calls.length := h.sites.length_eq.symm
  have added : c.graph.addSite j =
      .ok ({ c.graph with sites := c.graph.sites ++ [{ caller := j }] }, c.graph.sites.length) :=
    CallGraph.addSite_of_lt (methods ▸ there)
  unfold addCall
  rw [added]
  dsimp only [bind, Except.bind]
  refine (settles_addTargets (s := { caller := j }) (g := { c.graph with sites := _ }) ?_ rfl).bind
    ?_ ?_
  · rw [methods]
    exact nodup
  · rintro _ targets ⟨edges, rfl, mem⟩
    rw [methods] at targets
    simp only [List.not_mem_nil, false_or, methods] at mem
    have sites : Forall₂ (Makes names) (calls ++ [(j, call)])
        (c.graph.sites ++ [{ caller := j, edges }]) :=
      List.rel_append h.sites (.cons ⟨rfl, mem⟩ .nil)
    rw [callsResolve_concat]
    cases label : call.label with
    | none => exact .ok _ ⟨resolve, targets, nofun⟩ rfl (h.unlabelled methods sites label)
    | some l =>
      dsimp only
      split
      · rename_i old
        exact .error _ (fun all => all.2.2 l rfl (h.isSome_lookup.mp old)) rfl
      · rename_i new
        have new : l ∉ labels calls := fun old => new (h.isSome_lookup.mpr old)
        refine .ok _ ⟨resolve, targets, ?_⟩ rfl ?_
        · intro l' e
          cases e
          exact new
        · rw [length]
          exact h.withLabel methods sites label new
  · intro all
    rw [methods]
    exact (callsResolve_concat.mp all).2.1

/-- The call sites of a method are added one by one. -/
lemma settles_addCalls {m : MethodSpec} (nodup : names.Nodup) (there : names[j]? = some m.name)
    (resolve : CallsResolve names calls) (h : c.Holds names calls) :
    Settles (addCalls c m) (CallsResolve names (calls ++ m.calls.map (j, ·)))
      (fun c' => c'.Holds names (calls ++ m.calls.map (j, ·))) := by
  have caller : resolveMethod c.graph m.name = .ok j := by
    rw [resolveMethod, (CallGraph.methodId?_eq_some (h.methods ▸ nodup)).mpr (h.methods ▸ there)]
  have inside : j < names.length := (List.getElem?_eq_some_iff.mp there).1
  have joined : ∀ {before : List CallSpec} {call}, calls ++ (before ++ [call]).map (j, ·) =
      (calls ++ before.map (j, ·)) ++ [(j, call)] := by
    intro before call
    rw [List.map_append, List.append_assoc, List.map_singleton]
  unfold addCalls
  rw [caller]
  dsimp only [bind, Except.bind]
  apply Settles.foldlM (C := fun before => CallsResolve names (calls ++ before.map (j, ·)))
    (I := fun before (c : Calls) => c.Holds names (calls ++ before.map (j, ·)))
  · simpa using resolve
  · simpa using h
  · intro before call c _ resolve h
    rw [joined]
    exact settles_addCall nodup inside resolve h
  · intro before call resolve
    rw [joined] at resolve
    exact resolve.of_append

/-- All call sites are added if every one names methods that there are and the labels are
different. -/
lemma settles_calls {methods : List MethodSpec} {graph : CallGraph}
    (nodup : (methods.map (·.name)).Nodup) (declared : graph.methods = methods.map (·.name))
    (empty : graph.sites = []) :
    Settles (methods.foldlM addCalls { graph })
      (CallsResolve (methods.map (·.name)) (callSites methods))
      (fun c => c.Holds (methods.map (·.name)) (callSites methods)) := by
  apply Settles.foldlM (C := fun before => CallsResolve (methods.map (·.name)) (callSites before))
    (I := fun before (c : Calls) => c.Holds (methods.map (·.name)) (callSites before))
  · exact ⟨nofun, List.nodup_nil⟩
  · refine ⟨declared, ?_, ?_⟩
    · rw [empty]
      exact .nil
    · intro label site
      constructor
      · nofun
      · rintro ⟨_, _, h, _⟩
        cases h
  · intro before m c part resolve h
    rw [callSites_concat]
    apply settles_addCalls nodup _ resolve h
    obtain ⟨after, rfl⟩ := part
    simp
  · intro before m resolve
    rw [callSites_concat] at resolve
    exact resolve.of_append

end Model

end Interlock

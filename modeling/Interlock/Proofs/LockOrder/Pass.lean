import Interlock.Proofs.Arena
import Interlock.Proofs.LockOrder.Arcs

/-!
# One pass of the search on locks

A pass runs through four nested loops and looks up the arcs that lead back once for each requested
lock. `pass_eq` brings it to one fold of `take` over a list of requests, each judged by the order at
hand: the arcs that a loop adds meanwhile end at the requested lock, so the list taken before it is
still right.

A request is refused (`Refused`) where an open arc leads straight back. `takeAll_ok` says which arcs
a fold leaves, `takeAll_error` at which request it stops, and `takeAll_settled` that in the order it
leaves any two opposed arcs have labels that exclude each other. For a pass these are `pass_ok`,
`pass_error` and `pass_settled`.
-/

namespace Interlock

/-- What a pass asks: may the outer section, which holds one lock, request another that the inner
section takes? -/
structure Request where
  outer : SectionId
  inner : SectionId
  requested : LockNum
  held : LockNum
deriving DecidableEq

/-- The conflict in which a request ends. -/
def Request.conflict (r : Request) : LockConflict :=
  { outer := r.outer, inner := r.inner, held := r.held, requested := r.requested }

namespace Arena

/-- The requests of one section that enters another, in the order of a pass. -/
def requestsOf (a : Arena) (pair : SectionId × SectionId) : List Request :=
  (a.held pair.2).flatMap fun requested => (a.held pair.1).map (Request.mk pair.1 pair.2 requested)

/-- The requests of a pass, in order. -/
def requests (a : Arena) : List Request := a.enteredPairs.flatMap a.requestsOf

/-- A grouped section takes one lock before another: it holds the first and enters a grouped section
that holds the second. -/
def Orders (a : Arena) (t : SectionId) (x y : LockNum) : Prop :=
  t ∈ a.groupedSections ∧ x ∈ a.held t ∧
    ∃ u ∈ a.groupedSections, a.mayEnter t u = true ∧ y ∈ a.held u

/-- The pairs of a pass are the grouped sections of which one enters the other. -/
lemma mem_enteredPairs {a : Arena} {t u : SectionId} :
    (t, u) ∈ a.enteredPairs ↔
      t ∈ a.groupedSections ∧ u ∈ a.groupedSections ∧ a.mayEnter t u = true := by
  simp only [enteredPairs, List.mem_flatMap, List.mem_map, List.mem_filter, Prod.mk.injEq]
  constructor
  · rintro ⟨t, ht, u, ⟨hu, he⟩, rfl, rfl⟩
    exact ⟨ht, hu, he⟩
  · rintro ⟨ht, hu, he⟩
    exact ⟨t, ht, u, ⟨hu, he⟩, rfl, rfl⟩

/-- A request is made for each entered pair, held lock and requested lock. -/
lemma mem_requests {a : Arena} {r : Request} :
    r ∈ a.requests ↔
      (r.outer, r.inner) ∈ a.enteredPairs ∧ r.held ∈ a.held r.outer ∧
        r.requested ∈ a.held r.inner := by
  simp only [requests, requestsOf, List.mem_flatMap, List.mem_map]
  constructor
  · rintro ⟨⟨t, u⟩, hp, y, hy, x, hx, rfl⟩
    exact ⟨hp, hx, hy⟩
  · rintro ⟨hp, hx, hy⟩
    exact ⟨_, hp, _, hy, _, hx, rfl⟩

/-- Some request makes a section take one lock before another exactly where it does so. -/
lemma orders_iff {a : Arena} {t : SectionId} {x y : LockNum} :
    a.Orders t x y ↔ ∃ r ∈ a.requests, r.outer = t ∧ r.held = x ∧ r.requested = y := by
  constructor
  · rintro ⟨ht, hx, u, hu, he, hy⟩
    exact ⟨⟨t, u, y, x⟩, mem_requests.mpr ⟨mem_enteredPairs.mpr ⟨ht, hu, he⟩, hx, hy⟩,
      rfl, rfl, rfl⟩
  · rintro ⟨r, hr, rfl, rfl, rfl⟩
    obtain ⟨hp, hx, hy⟩ := mem_requests.mp hr
    obtain ⟨ht, hu, he⟩ := mem_enteredPairs.mp hp
    exact ⟨ht, hx, _, hu, he, hy⟩

end Arena

namespace LockOrder

variable {arena : Arena} {o o' : LockOrder} {r : Request} {rs : List Request}

/-- A request is refused where an open arc leads from its requested lock straight back to the held
one. -/
def Refused (arena : Arena) (o : LockOrder) (r : Request) : Prop :=
  (r.held ≠ r.requested ∨ r.held.isStatic = true) ∧
    ∃ s, o.Labelled r.requested r.held s ∧ ¬ arena.Excludes r.outer s

/-- The order after a request that is not refused. -/
def noting (o : LockOrder) (r : Request) : LockOrder :=
  if r.held ≠ r.requested then o.addArc r.held r.requested r.outer else o

/-- Judges one request by the order at hand. -/
def take (arena : Arena) (o : LockOrder) (r : Request) :
    Except (LockOrder × LockConflict) LockOrder :=
  takeArc r.outer r.inner r.requested (o.openSuccessors arena.held r.outer r.requested) o r.held

/-- The arcs after a request: those from before, and the one it asks for. -/
lemma labelled_noting {x y : LockNum} {s : SectionId} :
    (o.noting r).Labelled x y s ↔
      o.Labelled x y s ∨ (x ≠ y ∧ r.outer = s ∧ r.held = x ∧ r.requested = y) := by
  unfold noting
  split
  · rename_i hne
    rw [labelled_addArc]
    constructor
    · rintro (⟨rfl, rfl, rfl⟩ | h)
      · exact .inr ⟨hne, rfl, rfl, rfl⟩
      · exact .inl h
    · rintro (h | ⟨_, rfl, rfl, rfl⟩)
      · exact .inr h
      · exact .inl ⟨rfl, rfl, rfl⟩
  · rename_i heq
    constructor
    · exact .inl
    · rintro (h | ⟨hne, rfl, rfl, rfl⟩)
      · exact h
      · exact absurd hne heq

/-- A list of locks that holds the ends of the open arcs judges like the order at hand. -/
lemma takeArc_eq {after : List LockNum}
    (h : ∀ y, y ∈ after ↔ y ∈ o.openSuccessors arena.held r.outer r.requested) :
    takeArc r.outer r.inner r.requested after o r.held = take arena o r := by
  have e : after.contains r.held =
      (o.openSuccessors arena.held r.outer r.requested).contains r.held := by
    rw [Bool.eq_iff_iff, List.contains_iff_mem, List.contains_iff_mem]
    exact h r.held
  simp only [take, takeArc, e]

/-- A refused request ends the pass with its conflict. -/
lemma take_of_refused (h : Refused arena o r) : take arena o r = .error (o, r.conflict) := by
  obtain ⟨hne, hs⟩ := h
  have hmem := mem_openSuccessors.mpr hs
  have hne' : (decide (r.held ≠ r.requested) || r.held.isStatic) = true := by
    simpa using hne
  simp only [take, takeArc, List.contains_iff_mem.mpr hmem, hne', Bool.and_self, if_true]
  rfl

/-- A request that is not refused is noted. -/
lemma take_of_not_refused (h : ¬ Refused arena o r) : take arena o r = .ok (o.noting r) := by
  have hcond : ((decide (r.held ≠ r.requested) || r.held.isStatic) &&
      (o.openSuccessors arena.held r.outer r.requested).contains r.held) = false := by
    rw [Bool.eq_false_iff]
    intro hc
    rw [Bool.and_eq_true, List.contains_iff_mem, mem_openSuccessors] at hc
    exact h ⟨by simpa using hc.1, hc.2⟩
  simp only [take, takeArc, noting, hcond, Bool.false_eq_true, if_false]
  split <;> rfl

/-- A request that passes was not refused, and is noted. -/
lemma take_ok (h : take arena o r = .ok o') : ¬ Refused arena o r ∧ o' = o.noting r := by
  by_cases hr : Refused arena o r
  · rw [take_of_refused hr] at h
    cases h
  · rw [take_of_not_refused hr] at h
    cases h
    exact ⟨hr, rfl⟩

/-- A request that ends the pass was refused, and the order is the one at hand. -/
lemma take_error {e : LockOrder × LockConflict} (h : take arena o r = .error e) :
    Refused arena o r ∧ e = (o, r.conflict) := by
  by_cases hr : Refused arena o r
  · rw [take_of_refused hr] at h
    cases h
    exact ⟨hr, rfl⟩
  · rw [take_of_not_refused hr] at h
    cases h

/-- The held locks of a section, one after the other, are judged by the order at hand: the arcs
added on the way end at the requested lock, and the list of open arcs holds those that start
there. -/
lemma foldlM_takeArc {outer inner : SectionId} {requested : LockNum} {after l : List LockNum}
    (h : ∀ y, y ∈ after ↔ y ∈ o.openSuccessors arena.held outer requested) :
    l.foldlM (takeArc outer inner requested after) o =
      (l.map (Request.mk outer inner requested)).foldlM (take arena) o := by
  induction l generalizing o with
  | nil => rfl
  | cons x rest ih =>
    have head := takeArc_eq (r := ⟨outer, inner, requested, x⟩) h
    rw [List.map_cons, List.foldlM_cons, List.foldlM_cons, head]
    cases hx : take arena o ⟨outer, inner, requested, x⟩ with
    | error e => rfl
    | ok o' =>
      obtain ⟨_, rfl⟩ := take_ok hx
      apply ih
      -- the list of open arcs is as good for the next held lock
      intro y
      rw [h y, mem_openSuccessors, mem_openSuccessors]
      apply exists_congr
      intro s
      have same : (o.noting ⟨outer, inner, requested, x⟩).Labelled requested y s ↔
          o.Labelled requested y s := by
        rw [labelled_noting]
        constructor
        · rintro (hl | ⟨hne, _, _, heq⟩)
          · exact hl
          · exact absurd heq hne
        · exact .inl
      rw [same]

/-- A fold over the lists of a list's elements is one fold. -/
lemma foldlM_flatMap {α β γ ε : Type} {f : β → γ → Except ε β} {g : α → List γ}
    {l : List α} {b : β} :
    (l.flatMap g).foldlM f b = l.foldlM (fun b a => (g a).foldlM f b) b := by
  induction l generalizing b with
  | nil => rfl
  | cons a rest ih =>
    rw [List.flatMap_cons, List.foldlM_append, List.foldlM_cons]
    apply bind_congr
    intro b'
    exact ih

/-- The requests of one pair of sections. -/
lemma takePair_eq {pair : SectionId × SectionId} :
    takePair arena.held o pair = (arena.requestsOf pair).foldlM (take arena) o := by
  rw [Arena.requestsOf, foldlM_flatMap]
  unfold takePair
  congr 1
  funext o requested
  exact foldlM_takeArc fun y => Iff.rfl

/-- The table of locksets that a pass sets up has the lock numbers of each section. -/
lemma getD_held {id : SectionId} :
    (arena.sectionIds.map arena.held).getD id [] = arena.held id := by
  simp only [Arena.sectionIds, List.getD_eq_getElem?_getD, List.getElem?_map]
  by_cases hid : id < arena.sections.length
  · simp [hid]
  · simp [hid, Arena.held]

/-- A pass is one fold over its requests. -/
theorem pass_eq {permanent : LockOrder} :
    pass arena permanent = arena.requests.foldlM (take arena) (passStart arena permanent) := by
  rw [Arena.requests, foldlM_flatMap]
  unfold pass
  simp only [getD_held]
  congr 1
  funext o pair
  exact takePair_eq

/-- Opposed arcs have labels that exclude each other. -/
def Settled (arena : Arena) (o : LockOrder) : Prop :=
  ∀ x y s t, o.Labelled x y s → o.Labelled y x t → arena.Excludes s t

/-- A request that is not refused leaves opposed arcs settled: an arc that leads back was there
before it, and was judged by it. -/
lemma Settled.noting (hs : Settled arena o) (hr : ¬ Refused arena o r) :
    Settled arena (o.noting r) := by
  have judged : ∀ s, r.held ≠ r.requested → o.Labelled r.requested r.held s →
      arena.Excludes r.outer s := by
    intro s hne hl
    by_contra hx
    exact hr ⟨.inl hne, s, hl, hx⟩
  intro x y s t hxy hyx
  rw [labelled_noting] at hxy hyx
  -- of two opposed arcs the new one is neither, the second or the first; it is not both
  rcases hxy with hxy | ⟨hne, rfl, rfl, rfl⟩
  · rcases hyx with hyx | ⟨hne, rfl, rfl, rfl⟩
    · exact hs x y s t hxy hyx
    · exact (judged s hne hxy).symm
  · rcases hyx with hyx | ⟨_, _, heq, _⟩
    · exact judged t hne hyx
    · exact absurd heq hne

/-- Requests that are all noted add their arcs and nothing else. -/
lemma takeAll_ok (h : rs.foldlM (take arena) o = .ok o') {x y : LockNum} {s : SectionId} :
    o'.Labelled x y s ↔
      o.Labelled x y s ∨ (x ≠ y ∧ ∃ r ∈ rs, r.outer = s ∧ r.held = x ∧ r.requested = y) := by
  induction rs generalizing o with
  | nil =>
    cases h
    simp
  | cons r rest ih =>
    rw [List.foldlM_cons] at h
    obtain ⟨o1, hr, h⟩ := bind_eq_ok.mp h
    obtain ⟨_, rfl⟩ := take_ok hr
    rw [ih h, labelled_noting]
    simp only [List.mem_cons, exists_eq_or_imp]
    tauto

/-- Requests that are all noted leave opposed arcs settled. -/
lemma takeAll_settled (hs : Settled arena o) (h : rs.foldlM (take arena) o = .ok o') :
    Settled arena o' := by
  induction rs generalizing o with
  | nil =>
    cases h
    exact hs
  | cons r rest ih =>
    rw [List.foldlM_cons] at h
    obtain ⟨o1, hr, h⟩ := bind_eq_ok.mp h
    obtain ⟨hn, rfl⟩ := take_ok hr
    exact ih (hs.noting hn) h

/-- A request that is noted was judged by every arc back that was there at the start. -/
lemma takeAll_judged (h : rs.foldlM (take arena) o = .ok o') (hr : r ∈ rs)
    (hne : r.held ≠ r.requested) {s : SectionId} (hl : o.Labelled r.requested r.held s) :
    arena.Excludes r.outer s := by
  induction rs generalizing o with
  | nil => cases hr
  | cons q rest ih =>
    rw [List.foldlM_cons] at h
    obtain ⟨o1, hq, h⟩ := bind_eq_ok.mp h
    obtain ⟨accepted, rfl⟩ := take_ok hq
    rcases List.mem_cons.mp hr with rfl | hr
    · by_contra hx
      exact accepted ⟨.inl hne, s, hl, hx⟩
    · exact ih h hr (labelled_noting.mpr (.inl hl))

/-- Of two opposed requests that are noted the later was judged by the arc of the earlier. -/
lemma takeAll_excludes (h : rs.foldlM (take arena) o = .ok o') {q : Request} (hr : r ∈ rs)
    (hq : q ∈ rs) (hne : r.held ≠ r.requested) (there : q.held = r.requested)
    (back : q.requested = r.held) : arena.Excludes r.outer q.outer := by
  induction rs generalizing o with
  | nil => cases hr
  | cons first rest ih =>
    rw [List.foldlM_cons] at h
    obtain ⟨o1, hfirst, h⟩ := bind_eq_ok.mp h
    obtain ⟨_, rfl⟩ := take_ok hfirst
    rcases List.mem_cons.mp hr with rfl | hr'
    · rcases List.mem_cons.mp hq with rfl | hq'
      · exact absurd there hne
      · refine (takeAll_judged h hq' ?_ ?_).symm
        · rw [there, back]
          exact hne.symm
        · rw [there, back]
          exact labelled_noting.mpr (.inr ⟨hne, rfl, rfl, rfl⟩)
    · rcases List.mem_cons.mp hq with rfl | hq'
      · refine takeAll_judged h hr' hne ?_
        rw [← there, ← back]
        refine labelled_noting.mpr (.inr ⟨?_, rfl, rfl, rfl⟩)
        rw [there, back]
        exact hne.symm
      · exact ih h hr' hq'

/-- Requests that are not all noted stop at the first that is refused. -/
lemma takeAll_error {e : LockOrder × LockConflict} (h : rs.foldlM (take arena) o = .error e) :
    ∃ before r after, rs = before ++ r :: after ∧ before.foldlM (take arena) o = .ok e.1 ∧
      Refused arena e.1 r ∧ e.2 = r.conflict := by
  obtain ⟨before, r, after, o1, rfl, hb, he⟩ := foldlM_eq_error h
  obtain ⟨href, rfl⟩ := take_error he
  exact ⟨before, r, after, rfl, hb, href, rfl⟩

/-- The start of a pass has the permanent arcs. -/
@[simp] lemma labelled_passStart {permanent : LockOrder} {x y : LockNum} {s : SectionId} :
    (passStart arena permanent).Labelled x y s ↔ permanent.Labelled x y s :=
  labelled_addNodes

/-- A pass without a conflict leaves the permanent arcs and those of all grouped sections. -/
theorem pass_ok {permanent : LockOrder} (h : pass arena permanent = .ok o) {x y : LockNum}
    {s : SectionId} :
    o.Labelled x y s ↔ permanent.Labelled x y s ∨ (x ≠ y ∧ arena.Orders s x y) := by
  rw [pass_eq] at h
  rw [takeAll_ok h, labelled_passStart, Arena.orders_iff]

/-- After a pass without a conflict sections that take two locks in opposed orders exclude each
other, whatever arcs are permanent. -/
theorem pass_ok_excludes {permanent : LockOrder} (h : pass arena permanent = .ok o) {x y : LockNum}
    {s t : SectionId} (hne : x ≠ y) (hs : arena.Orders s x y) (ht : arena.Orders t y x) :
    arena.Excludes s t := by
  rw [pass_eq] at h
  obtain ⟨r, hr, rfl, rfl, rfl⟩ := Arena.orders_iff.mp hs
  obtain ⟨q, hq, rfl, there, back⟩ := Arena.orders_iff.mp ht
  exact takeAll_excludes h hr hq hne there back

/-- A pass without a conflict keeps opposed arcs settled. -/
theorem pass_settled {permanent : LockOrder} (hs : Settled arena permanent)
    (h : pass arena permanent = .ok o) : Settled arena o := by
  rw [pass_eq] at h
  apply takeAll_settled _ h
  intro x y s t hxy hyx
  exact hs x y s t (labelled_passStart.mp hxy) (labelled_passStart.mp hyx)

/-- What a pass that met a conflict leaves behind. -/
structure Stopped (arena : Arena) (permanent o : LockOrder) (c : LockConflict) : Prop where
  /-- The outer section enters the inner one, and both are grouped. -/
  entered : (c.outer, c.inner) ∈ arena.enteredPairs
  held : c.held ∈ arena.held c.outer
  requested : c.requested ∈ arena.held c.inner
  /-- An open arc leads straight back. -/
  back : ∃ s, o.Labelled c.requested c.held s ∧ ¬ arena.Excludes c.outer s
  /-- The arcs are permanent or those of grouped sections. -/
  sound : ∀ {x y s}, o.Labelled x y s → permanent.Labelled x y s ∨ (x ≠ y ∧ arena.Orders s x y)
  fresh : c.avoidanceLock = none

/-- A pass that met a conflict stopped at a refused request. -/
theorem pass_error {permanent : LockOrder} {c : LockConflict}
    (h : pass arena permanent = .error (o, c)) : Stopped arena permanent o c := by
  rw [pass_eq] at h
  obtain ⟨before, r, after, hrs, hb, href, hc⟩ := takeAll_error h
  have hmem : r ∈ arena.requests := by
    rw [hrs]
    simp
  obtain ⟨hp, hx, hy⟩ := Arena.mem_requests.mp hmem
  cases hc
  refine ⟨hp, hx, hy, href.2, ?_, rfl⟩
  intro x y s hl
  rcases (takeAll_ok hb).mp hl with hl | ⟨hne, q, hq, hout⟩
  · exact .inl (labelled_passStart.mp hl)
  · refine .inr ⟨hne, Arena.orders_iff.mpr ⟨q, ?_, hout⟩⟩
    rw [hrs]
    exact List.mem_append_left _ hq

/-- The outer section of a conflict takes the held lock before the requested one. -/
lemma Stopped.orders {permanent : LockOrder} {c : LockConflict}
    (h : Stopped arena permanent o c) : arena.Orders c.outer c.held c.requested := by
  obtain ⟨ht, hu, he⟩ := Arena.mem_enteredPairs.mp h.entered
  exact ⟨ht, h.held, _, hu, he, h.requested⟩

end LockOrder

end Interlock

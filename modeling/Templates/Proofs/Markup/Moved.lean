import Mathlib.Data.List.Nodup
import Templates.Proofs.Markup.Subtree

/-!
Nodes that move in front of another one, one after the other.

What a move changes is said once, for any number of nodes: they get the node above that one, and
leave their places below all others.
-/

namespace Templates.Markup.Document

/-- What is below a node is told by the links on the ways up to it. -/
theorem under_congr {d after : Document} {id : NodeId}
    (same : ∀ x, d.Under x id → after.parent? x = d.parent? x) (top : NodeId) :
    after.Under top id ↔ d.Under top id := by
  constructor
  · -- The links on the rest of the way agree as well, since whatever is above there is above here.
    intro under
    induction under using Relation.ReflTransGen.head_induction_on with
    | refl => exact .refl
    | @head id next up _ ih =>
      have step : d.Up id next := (same id .refl).symm.trans up
      exact .head step (ih fun x above => same x (.head step above))
  · intro under
    induction under using Relation.ReflTransGen.head_induction_on with
    | refl => exact .refl
    | @head id next up _ ih =>
      have step : after.Up id next := (same id .refl).trans up
      exact .head step (ih fun x above => same x (.head up above))

/-- A node is above another one exactly if the node right above that one is below it. -/
theorem transGen_up_iff {d : Document} {id parent : NodeId} (up : d.parent? id = some parent)
    (top : NodeId) : Relation.TransGen d.Up id top ↔ d.Under top parent := by
  constructor
  · intro above
    obtain ⟨next, step, under⟩ := Relation.TransGen.head'_iff.mp above
    obtain rfl := Option.some.inj (up.symm.trans step)
    exact under
  · exact fun under => .head' up under

/-- A number comes last in a list without the one that it would go in front of. -/
theorem putBefore_of_notMem {reference child : NodeId} {list : List NodeId}
    (absent : reference ∉ list) : putBefore reference child list = list ++ [child] := by
  induction list with
  | nil => rfl
  | cons id list ih =>
    obtain ⟨other, absent⟩ := List.ne_and_not_mem_of_not_mem_cons absent
    rw [putBefore, if_neg (Ne.symm other), ih absent, List.cons_append]

/-- A number in front of another one adds nothing but itself. -/
theorem filter_putBefore (reference child : NodeId) (list : List NodeId) :
    (putBefore reference child list).filter (· ≠ child) = list.filter (· ≠ child) := by
  induction list with
  | nil => simp [putBefore]
  | cons id list ih =>
    rw [putBefore]
    split
    · -- Here it goes in, and it is left out again.
      simp
    · rw [List.filter_cons, List.filter_cons, ih]

/-- What is in neither of two lists is left out of one after the other. -/
theorem filter_notMem_append (list first second : List NodeId) :
    (list.filter (· ∉ first)).filter (· ∉ second) = list.filter (· ∉ first ++ second) := by
  rw [List.filter_filter]
  refine List.filter_congr fun x _ => ?_
  simp [Bool.and_comm]

/-- A list without what is in another one that shares nothing with it. -/
theorem filter_notMem_of_disjoint {list other : List NodeId} (apart : ∀ x ∈ list, x ∉ other) :
    list.filter (· ∉ other) = list :=
  List.filter_eq_self.mpr fun x listed => by simpa using apart x listed

/-- Of nodes that stand around others and in front of more, those two kinds are left. -/
theorem filter_mem_around (front left back right : List NodeId) :
    (front.filter (· ∉ left ++ right) ++ left ++ back.filter (· ∉ left ++ right) ++ right).filter
      (· ∈ left ++ right) = left ++ right := by
  have gone (list : List NodeId) :
      (list.filter (· ∉ left ++ right)).filter (· ∈ left ++ right) = [] := by
    refine List.filter_eq_nil_iff.mpr fun x listed => ?_
    simpa using (List.mem_filter.mp listed).2
  have kept {list : List NodeId} (within : list ⊆ left ++ right) :
      list.filter (· ∈ left ++ right) = list :=
    List.filter_eq_self.mpr fun x listed => by simpa using within listed
  rw [List.filter_append, List.filter_append, List.filter_append, gone, gone,
    kept (List.subset_append_left _ _), kept (List.subset_append_right _ _)]
  simp

/-- Of nodes that stand around others and in front of more, the last ones leave the rest. -/
theorem filter_notMem_around (front back : List NodeId) {left right : List NodeId}
    (apart : ∀ x ∈ left, x ∉ right) :
    (front.filter (· ∉ left ++ right) ++ left ++ back.filter (· ∉ left ++ right) ++ right).filter
      (· ∉ right) = front.filter (· ∉ left ++ right) ++ left ++ back.filter (· ∉ left ++ right) := by
  have kept (list : List NodeId) : (list.filter (· ∉ left ++ right)).filter (· ∉ right) =
      list.filter (· ∉ left ++ right) := by
    refine filter_notMem_of_disjoint fun x listed again => ?_
    have outside : x ∉ left ++ right := by simpa using (List.mem_filter.mp listed).2
    exact outside (List.mem_append_right _ again)
  rw [List.filter_append, List.filter_append, List.filter_append, kept, kept,
    filter_notMem_of_disjoint apart]
  simp

section Step

variable {d : Document} {reference parent child : NodeId}

/-- A node that moves in front of another one gets the node above that one. -/
theorem parent?_insertBefore (up : d.parent? reference = some parent) (there : child < d.size)
    (x : NodeId) :
    (d.insertBefore reference child).parent? x = if x = child then some parent else d.parent? x := by
  have size := (Relinked.detach child d).size
  -- The node above is read before the other one is unlinked, so it is there even if both are one.
  rw [insertBefore, up]
  dsimp only
  rw [parent?_mapChildren, parent?_setParent _ (size ▸ there), parent?_detach]
  split <;> rfl

/-- A node that moves in front of another one leaves its old place and gets one there. -/
theorem WellLinked.children_insertBefore (linked : d.WellLinked)
    (up : d.parent? reference = some parent) (child x : NodeId) :
    (d.insertBefore reference child).children x =
      if x = parent then putBefore reference child ((d.children x).filter (· ≠ child))
      else (d.children x).filter (· ≠ child) := by
  have size := (Relinked.detach child d).size
  have there := (linked.lt_size ((linked.agree parent reference).mp up)).2
  have within : parent < ((d.detach child).setParent (some parent) child).size := by
    rw [size_setParent, size]
    exact there
  rw [Document.insertBefore, up]
  dsimp only
  rw [children_mapChildren _ within, children_setParent, linked.children_detach]

end Step

/-- Nodes have moved below another one. -/
structure Moved (d after : Document) (parent : NodeId) (ids : List NodeId) : Prop where
  /-- The links are those of trees. -/
  linked : after.WellLinked
  /-- There are the same nodes as before, and each is what it was. -/
  relinked : Relinked d after
  /-- All others keep the node above them. -/
  parents : ∀ x, after.parent? x = if x ∈ ids then some parent else d.parent? x
  /-- Below the other nodes those that have moved are missing, and nothing else changes. -/
  others : ∀ x, x ≠ parent → after.children x = (d.children x).filter (· ∉ ids)
  /-- Beside those that have moved the same nodes stand in the same order. -/
  siblings : (after.children parent).filter (· ∉ ids) = (d.children parent).filter (· ∉ ids)

namespace Moved

variable {d middle after : Document} {reference parent child : NodeId} {ids more : List NodeId}

/-- Nodes move one after the other. -/
theorem trans (first : d.Moved middle parent ids) (second : middle.Moved after parent more) :
    d.Moved after parent (ids ++ more) where
  linked := second.linked
  relinked := first.relinked.trans second.relinked
  parents x := by
    rw [second.parents, first.parents]
    by_cases late : x ∈ more <;> by_cases early : x ∈ ids <;> simp [late, early]
  others x other := by
    rw [second.others x other, first.others x other, filter_notMem_append]
  siblings := by
    -- What is in neither list is left out in either order.
    rw [← filter_notMem_append (d.children parent), ← first.siblings, List.filter_comm,
      ← second.siblings, List.filter_comm, filter_notMem_append]

/-- What is at the node above, or above it, stays there if nothing of it has moved. -/
theorem under_iff (moved : d.Moved after parent ids) {id : NodeId}
    (apart : ∀ x ∈ ids, ¬ d.Under x id) (top : NodeId) : after.Under top id ↔ d.Under top id := by
  refine under_congr (fun x above => ?_) top
  rw [moved.parents, if_neg fun listed => apart x listed above]

/-- After some nodes have moved there, others still can. -/
theorem still_fit (moved : d.Moved after parent ids) (apart : ∀ x ∈ ids, ¬ d.Under x parent)
    (thereMore : ∀ x ∈ more, x < d.size) (apartMore : ∀ x ∈ more, ¬ d.Under x parent) :
    (∀ x ∈ more, x < after.size) ∧ ∀ x ∈ more, ¬ after.Under x parent := by
  refine ⟨fun x listed => ?_, fun x listed => ?_⟩
  · rw [moved.relinked.size]
    exact thereMore x listed
  · -- The way up from the new place has not changed.
    rw [moved.under_iff apart]
    exact apartMore x listed

/-- What is below a node goes with it. -/
theorem under_moved_iff (moved : d.Moved after parent [child]) (x : NodeId) :
    after.Under child x ↔ d.Under child x := by
  constructor
  · -- A node that was not below it before is where it was.
    intro under
    by_contra free
    exact free ((moved.under_iff (by simpa using free) child).mp under)
  · -- Up to the node itself the way has not changed.
    intro under
    induction under using Relation.ReflTransGen.head_induction_on with
    | refl => exact .refl
    | @head x next step _ ih =>
      by_cases same : x = child
      · rw [same]
        exact .refl
      · refine .head (?_ : Up _ x next) ih
        rw [Up, moved.parents, if_neg (by simpa using same)]
        exact step

/-- What is neither of the nodes that have moved nor below them is in the tree if it was before. -/
theorem isAttached_eq (linked : d.WellLinked) (moved : d.Moved after parent ids) {id : NodeId}
    (apart : ∀ x ∈ ids, ¬ d.Under x id) : after.isAttached id = d.isAttached id := by
  rw [Bool.eq_iff_iff, moved.linked.isAttached_iff, linked.isAttached_iff, moved.under_iff apart]

/-- A node moves in front of another one, unless what is above that one is below it. -/
theorem insertBefore (linked : d.WellLinked) (up : d.parent? reference = some parent)
    (there : child < d.size) (apart : ¬ d.Under child parent) :
    d.Moved (d.insertBefore reference child) parent [child] where
  linked := by
    refine linked.insertBefore there fun other same => ?_
    obtain rfl := Option.some.inj (up.symm.trans same)
    exact apart
  relinked := .insertBefore reference child d
  parents x := by
    rw [parent?_insertBefore up there]
    simp
  others x other := by
    rw [linked.children_insertBefore up, if_neg other]
    simp
  siblings := by
    rw [linked.children_insertBefore up, if_pos rfl]
    simpa [List.filter_filter] using
      filter_putBefore reference child ((d.children parent).filter (· ≠ child))

/-- Nodes move in front of another one, in order, unless what is above that one is below them. -/
theorem foldl (linked : d.WellLinked) (up : d.parent? reference = some parent)
    (there : ∀ x ∈ ids, x < d.size) (apart : ∀ x ∈ ids, ¬ d.Under x parent) :
    d.Moved (ids.foldl (fun d x => d.insertBefore reference x) d) parent ids := by
  induction ids generalizing d with
  | nil =>
    refine ⟨linked, .refl d, fun x => ?_, fun x _ => ?_, rfl⟩ <;> simp
  | cons child ids ih =>
    obtain ⟨childThere, there⟩ := List.forall_mem_cons.mp there
    obtain ⟨childApart, apart⟩ := List.forall_mem_cons.mp apart
    have step := insertBefore linked up childThere childApart
    obtain ⟨there', apart'⟩ := step.still_fit (by simpa using childApart) there apart
    -- The reference stays below that node, even if it is the one that has moved.
    have up' : (d.insertBefore reference child).parent? reference = some parent := by
      rw [step.parents, up]
      split <;> rfl
    exact step.trans (ih step.linked up' there' apart')

end Moved

/-- Nodes have moved below the node above another one, which has lost its place then. -/
structure GaveWay (d after : Document) (id parent : NodeId) (ids : List NodeId) : Prop where
  /-- The links are those of trees. -/
  linked : after.WellLinked
  /-- There are the same nodes as before, and each is what it was. -/
  relinked : Relinked d after
  /-- Nothing is above the node any more, and all others keep the node above them. -/
  parents : ∀ x, after.parent? x =
    if x = id then none else if x ∈ ids then some parent else d.parent? x
  /-- Below the other nodes those that have moved are missing, and nothing else changes. -/
  others : ∀ x, x ≠ parent → after.children x = (d.children x).filter (· ∉ ids)

namespace WellLinked

variable {d : Document} {id reference parent : NodeId} {ids front back : List NodeId}

/-- A child stands between those in front of it and those behind it, and nowhere else. -/
theorem notMem_of_split (linked : d.WellLinked)
    (split : d.children parent = front ++ reference :: back) :
    reference ∉ front ∧ reference ∉ back := by
  have once := linked.once parent
  rw [split, List.nodup_middle, List.nodup_cons, List.mem_append, not_or] at once
  exact once.1

/-- A node goes right in front of another one, wherever it has been. -/
theorem children_insertBefore_split (linked : d.WellLinked)
    (up : d.parent? reference = some parent) {child : NodeId} (other : child ≠ reference)
    (split : d.children parent = front ++ reference :: back) :
    (d.insertBefore reference child).children parent =
      front.filter (· ≠ child) ++ child :: reference :: back.filter (· ≠ child) := by
  -- The first place at which the reference is found is its only one.
  have first : reference ∉ front.filter (· ≠ child) := fun listed =>
    (linked.notMem_of_split split).1 (List.mem_of_mem_filter listed)
  have kept : (reference :: back).filter (· ≠ child) = reference :: back.filter (· ≠ child) :=
    List.filter_cons_of_pos (by simpa using Ne.symm other)
  rw [linked.children_insertBefore up, if_pos rfl, split, List.filter_append, kept,
    putBefore_append first]

/-- In front of itself a node goes behind all of its siblings. -/
theorem children_insertBefore_itself (linked : d.WellLinked)
    (up : d.parent? reference = some parent)
    (split : d.children parent = front ++ reference :: back) :
    (d.insertBefore reference reference).children parent = front ++ back ++ [reference] := by
  obtain ⟨notFront, notBack⟩ := linked.notMem_of_split split
  have absent : reference ∉ front ++ back := by simp [notFront, notBack]
  -- Once it has left its place, there is nothing to go in front of.
  have gone : (d.children parent).filter (· ≠ reference) = front ++ back := by
    rw [split, List.filter_append, List.filter_cons_of_neg (by simp), ← List.filter_append,
      filter_ne_of_notMem absent]
  rw [linked.children_insertBefore up, if_pos rfl, gone, putBefore_of_notMem absent]

/-- Nodes go right in front of another one, in order. -/
theorem children_foldl_insertBefore (linked : d.WellLinked)
    (up : d.parent? reference = some parent) (there : ∀ x ∈ ids, x < d.size)
    (apart : ∀ x ∈ ids, ¬ d.Under x parent) (distinct : ids.Nodup) (absent : reference ∉ ids)
    (split : d.children parent = front ++ reference :: back) :
    (ids.foldl (fun d x => d.insertBefore reference x) d).children parent =
      front.filter (· ∉ ids) ++ ids ++ reference :: back.filter (· ∉ ids) := by
  induction ids generalizing d front back with
  | nil => simpa using split
  | cons child ids ih =>
    obtain ⟨childThere, there⟩ := List.forall_mem_cons.mp there
    obtain ⟨childApart, apart⟩ := List.forall_mem_cons.mp apart
    obtain ⟨fresh, distinct⟩ := List.nodup_cons.mp distinct
    obtain ⟨other, absent⟩ := List.ne_and_not_mem_of_not_mem_cons absent
    have step := Moved.insertBefore linked up childThere childApart
    have up' : (d.insertBefore reference child).parent? reference = some parent := by
      rw [parent?_insertBefore up childThere, if_neg other, up]
    -- The first one goes in front, and all the others go between it and the reference.
    have split' : (d.insertBefore reference child).children parent =
        (front.filter (· ≠ child) ++ [child]) ++ reference :: back.filter (· ≠ child) := by
      rw [linked.children_insertBefore_split up (Ne.symm other) split, List.append_cons]
    obtain ⟨there', apart'⟩ := step.still_fit (by simpa using childApart) there apart
    have last := ih step.linked up' there' apart' distinct absent split'
    have both (list : List NodeId) : (list.filter (· ≠ child)).filter (· ∉ ids) =
        list.filter (· ∉ child :: ids) := by
      simpa using filter_notMem_append list [child] ids
    rw [List.foldl_cons, last, List.filter_append, both, both, List.filter_singleton]
    simp [fresh]

/-- After nodes have moved in front of another one, that one leaves its place. -/
theorem gaveWay (linked : d.WellLinked) (up : d.parent? id = some parent)
    (there : ∀ x ∈ ids, x < d.size) (apart : ∀ x ∈ ids, ¬ d.Under x parent) :
    d.GaveWay (d.replaceWith id ids) id parent ids := by
  have moved := Moved.foldl linked up there apart
  refine ⟨moved.linked.detach id, .replaceWith id ids d, fun x => ?_, fun x other => ?_⟩
  · rw [replaceWith, parent?_detach, moved.parents]
  · -- The node is a child of no other node than that above it.
    have absent : id ∉ (d.children x).filter (· ∉ ids) := fun listed =>
      other (linked.unique ((linked.agree parent id).mp up) (List.mem_of_mem_filter listed))
    rw [replaceWith, moved.linked.children_detach, moved.others x other,
      filter_ne_of_notMem absent]

/-- Nodes take the place of another one, which is none of them. -/
theorem children_replaceWith_split (linked : d.WellLinked) (up : d.parent? id = some parent)
    (there : ∀ x ∈ ids, x < d.size) (apart : ∀ x ∈ ids, ¬ d.Under x parent) (distinct : ids.Nodup)
    (absent : id ∉ ids) (split : d.children parent = front ++ id :: back) :
    (d.replaceWith id ids).children parent =
      front.filter (· ∉ ids) ++ ids ++ back.filter (· ∉ ids) := by
  have moved := Moved.foldl linked up there apart
  have whole := linked.children_foldl_insertBefore up there apart distinct absent split
  obtain ⟨notFront, notBack⟩ := linked.notMem_of_split split
  -- The node is left out, and it occurs once.
  rw [replaceWith, moved.linked.children_detach, whole, List.filter_append, List.filter_append,
    List.filter_cons_of_neg (by simp), filter_ne_of_notMem absent, filter_ne_of_notMem,
    filter_ne_of_notMem]
  · exact fun listed => notBack (List.mem_of_mem_filter listed)
  · exact fun listed => notFront (List.mem_of_mem_filter listed)

/-- Where the node is one of those that take its place, it moves to the last place among its
siblings in between, so that those behind it in the list come last when it has left. -/
theorem children_replaceWith_itself (linked : d.WellLinked) (up : d.parent? id = some parent)
    {left right : List NodeId} (there : ∀ x ∈ left ++ id :: right, x < d.size)
    (apart : ∀ x ∈ left ++ id :: right, ¬ d.Under x parent)
    (distinct : (left ++ id :: right).Nodup) (split : d.children parent = front ++ id :: back) :
    (d.replaceWith id (left ++ id :: right)).children parent =
      front.filter (· ∉ left ++ right) ++ left ++ back.filter (· ∉ left ++ right) ++ right := by
  simp only [List.forall_mem_append, List.forall_mem_cons] at there apart
  obtain ⟨thereLeft, own, thereRight⟩ := there
  obtain ⟨apartLeft, apartOwn, apartRight⟩ := apart
  simp only [List.nodup_append, List.nodup_cons, List.mem_cons] at distinct
  obtain ⟨distinctLeft, ⟨absentRight, distinctRight⟩, different⟩ := distinct
  have absentLeft : id ∉ left := fun listed => different id listed id (.inl rfl) rfl
  -- Those in front of the node go where it is.
  have moved := Moved.foldl linked up thereLeft apartLeft
  have whole := linked.children_foldl_insertBefore up thereLeft apartLeft distinctLeft absentLeft
    split
  have replaced : d.replaceWith id (left ++ id :: right) =
      ((left.foldl (fun d x => d.insertBefore id x) d).insertBefore id id).replaceWith id right := by
    rw [replaceWith, List.foldl_append, List.foldl_cons, replaceWith]
  generalize left.foldl (fun d x => d.insertBefore id x) d = first at moved whole replaced
  -- The node goes to the last place.
  have up' : first.parent? id = some parent := by
    rw [moved.parents, if_neg absentLeft, up]
  have step : first.Moved (first.insertBefore id id) parent [id] := by
    refine .insertBefore moved.linked up' (moved.relinked.size ▸ own) ?_
    rwa [moved.under_iff apartLeft]
  have last := moved.linked.children_insertBefore_itself up' whole
  -- Those behind it go in front of it there.
  have both := moved.trans step
  have up'' : (first.insertBefore id id).parent? id = some parent := by
    rw [both.parents, if_pos (by simp)]
  have apartBoth : ∀ x ∈ left ++ [id], ¬ d.Under x parent := by
    simpa [or_imp, forall_and] using ⟨apartLeft, apartOwn⟩
  obtain ⟨there', apart'⟩ := both.still_fit apartBoth thereRight apartRight
  rw [replaced, both.linked.children_replaceWith_split up'' there' apart' distinctRight absentRight
    last]
  have keptLeft : left.filter (· ∉ right) = left :=
    filter_notMem_of_disjoint fun x listed again => different x listed x (.inr again) rfl
  rw [List.filter_append, List.filter_append, filter_notMem_append, filter_notMem_append, keptLeft]
  simp

end WellLinked

end Templates.Markup.Document

import Templates.Proofs.Markup.Copy
import Templates.Proofs.Markup.Replace

/-!
The nodes of a document in parts: what is shown, what waits for a place and what has lost its place.

An edit moves trees from one part to another.
-/

namespace Templates.Markup

namespace Document

/-- A node below nothing gives way to nothing. -/
theorem replaceWith_of_parent?_eq_none {d : Document} {id : NodeId} (top : d.parent? id = none)
    (ids : List NodeId) : d.replaceWith id ids = d := by
  -- Without a node above there is no place to move anything to, and none to leave.
  have stays (other : NodeId) : d.insertBefore id other = d := by
    rw [insertBefore, top]
  have all : ids.foldl (fun d other => d.insertBefore id other) d = d := by
    induction ids with
    | nil => rfl
    | cons other ids ih => rw [List.foldl_cons, stays, ih]
  rw [replaceWith, all, detach, top]

/-- Two documents whose nodes differ in nothing but their links. -/
structure Relinked (d other : Document) : Prop where
  size : other.size = d.size
  content : ∀ id, other.content id = d.content id

namespace Relinked

variable {d other third : Document}

/-- A document is itself with the same links. -/
theorem refl (d : Document) : Relinked d d := ⟨rfl, fun _ => rfl⟩

/-- Links change one after the other. -/
theorem trans (first : Relinked d other) (second : Relinked other third) : Relinked d third :=
  ⟨second.size.trans first.size, fun id => (second.content id).trans (first.content id)⟩

/-- The link upwards of a node changes. -/
theorem setParent (parent : Option NodeId) (id : NodeId) (d : Document) :
    Relinked d (d.setParent parent id) := by
  refine ⟨size_setParent parent id d, fun x => ?_⟩
  rw [Document.content, Document.content, getElem?_setParent]
  by_cases same : id = x
  · rw [if_pos same]
    cases d.nodes[x]? <;> rfl
  · rw [if_neg same]

/-- The links downwards of a node change. -/
theorem mapChildren (f : List NodeId → List NodeId) (id : NodeId) (d : Document) :
    Relinked d (d.mapChildren f id) := by
  refine ⟨size_mapChildren f id d, fun x => ?_⟩
  rw [Document.content, Document.content, getElem?_mapChildren]
  by_cases same : id = x
  · rw [if_pos same]
    cases d.nodes[x]? <;> rfl
  · rw [if_neg same]

/-- A node that leaves its place keeps its content. -/
theorem detach (id : NodeId) (d : Document) : Relinked d (d.detach id) := by
  unfold Document.detach
  split
  · exact (setParent _ _ _).trans (mapChildren _ _ _)
  · exact refl d

/-- A node that moves keeps its content. -/
theorem insertBefore (reference child : NodeId) (d : Document) :
    Relinked d (d.insertBefore reference child) := by
  unfold Document.insertBefore
  split
  · exact ((detach child d).trans (setParent _ _ _)).trans (mapChildren _ _ _)
  · exact refl d

/-- Nodes that take the place of another one keep their contents, as it does itself. -/
theorem replaceWith (id : NodeId) (ids : List NodeId) (d : Document) :
    Relinked d (d.replaceWith id ids) := by
  -- The nodes move one by one, and then the other one leaves its place.
  have moved : Relinked d (ids.foldl (fun d other => d.insertBefore id other) d) := by
    induction ids generalizing d with
    | nil => exact refl d
    | cons other ids ih => exact (insertBefore id other d).trans (ih _)
  exact moved.trans (detach id _)

/-- The attributes of a node stay as they are. -/
theorem attribute? (relinked : Relinked d other) (name : Text) (id : NodeId) :
    other.attribute? name id = d.attribute? name id := by
  rw [Document.attribute?, Document.attribute?, Document.element?, Document.element?,
    relinked.content]

end Relinked

/-- A document has got a new forest without a place, and all old nodes are as they were. -/
structure Adds (d after : Document) (new : Forest) : Prop where
  stands : new.Stands after none
  distinct : new.ids.Nodup
  fresh : ∀ id ∈ new.ids, d.size ≤ id
  same : ∀ id < d.size, after.nodes[id]? = d.nodes[id]?

namespace Adds

variable {d after : Document} {id : NodeId} {content : Content} {below : Forest}

/-- A new node has got no place. -/
theorem create (content : Content) (d : Document) :
    d.Adds (d.create content).2 (.cons d.size content .nil .nil) where
  stands := ⟨Array.getElem?_push_size, trivial, trivial⟩
  distinct := by simp [Forest.ids]
  fresh id listed := Nat.le_of_eq (List.mem_singleton.mp listed).symm
  same id old := (Array.getElem?_push_lt old).trans (Array.getElem?_eq_getElem old).symm

/-- A copy of a tree has got no place. -/
theorem importTree (tree : Tree) (d : Document) :
    d.Adds (d.importTree tree).2 (.plant d.size [tree]) := by
  obtain ⟨stands, _, same⟩ := importTree_stands tree d
  refine ⟨stands, ?_, fun id listed => ?_, same⟩
  · rw [Forest.ids_plant]
    exact List.nodup_range'
  · rw [Forest.ids_plant] at listed
    exact (List.mem_range'_1.mp listed).1

/-- The topmost node of a new tree becomes something else. -/
theorem setContent (adds : d.Adds after (.cons id content below .nil)) (other : Content) :
    d.Adds (after.setContent other id) (.cons id other below .nil) := by
  obtain ⟨⟨node, standsBelow, _⟩, distinct, fresh, same⟩ := adds
  have notBelow : id ∉ below.ids := by
    simpa [Forest.ids] using (List.nodup_cons.mp distinct).1
  refine ⟨⟨?_, standsBelow.congr fun x listed => ?_, trivial⟩, distinct, fresh, fun x old => ?_⟩
  · rw [getElem?_setContent, if_pos rfl, node]
    rfl
  · rw [getElem?_setContent, if_neg (Ne.symm (ne_of_mem_of_not_mem listed notBelow))]
  · -- The number of the node is none of the old ones.
    have other : id ≠ x := by
      rintro rfl
      exact Nat.not_lt_of_le (fresh id List.mem_cons_self) old
    rw [getElem?_setContent, if_neg other, same x old]

end Adds

/-- The nodes of a document in parts that have none in common: the forest that is shown, one that
waits for a place, and one that has lost its place. -/
structure Parts (d : Document) (shown waiting gone : Forest) : Prop where
  shows : d.Shows shown
  waits : waiting.Stands d none
  left : gone.Stands d none
  distinct : (root :: (shown.ids ++ (waiting.ids ++ gone.ids))).Nodup

namespace Parts

variable {d : Document} {shown waiting gone new : Forest} {old : NodeId}

/-- A document that shows a forest has nothing that waits and nothing without a place. -/
theorem of_shows (shows : d.Shows shown) : d.Parts shown .nil .nil where
  shows := shows
  waits := trivial
  left := trivial
  distinct := by simpa [Forest.ids] using shows.distinct

/-- Nodes without a place are not attached. -/
theorem isAttached_eq_false (parts : d.Parts shown waiting gone) (listed : old ∈ gone.ids) :
    d.isAttached old = false := by
  refine Document.isAttached_eq_false parts.left (fun within => ?_) listed
  -- The root is not among the nodes of any part.
  exact (List.nodup_cons.mp parts.distinct).1
    (List.mem_append_right _ (List.mem_append_right _ within))

/-- What waits for a place is neither shown nor has it lost its place. -/
theorem notMem_waiting (parts : d.Parts shown waiting gone) (listed : old ∈ shown.ids ++ gone.ids) :
    old ∉ waiting.ids := by
  intro within
  obtain ⟨_, distinct⟩ := List.nodup_cons.mp parts.distinct
  obtain ⟨_, others, apart⟩ := List.nodup_append.mp distinct
  obtain listed | listed := List.mem_append.mp listed
  · exact apart old listed old (List.mem_append_left _ within) rfl
  · exact (List.nodup_append.mp others).2.2 old within old listed rfl

/-- A new forest waits with the others. -/
theorem grow {after : Document} (parts : d.Parts shown waiting gone) (adds : d.Adds after new) :
    after.Parts shown (new.append waiting) gone := by
  -- The old nodes stay, and the numbers of the new ones are not among theirs.
  have old {x : NodeId} (listed : x ∈ root :: (shown.ids ++ (waiting.ids ++ gone.ids))) :
      x < d.size := by
    simp only [List.mem_cons, List.mem_append] at listed
    obtain rfl | listed | listed | listed := listed
    · exact (Array.getElem?_eq_some_iff.mp parts.shows.linked).1
    · exact parts.shows.stands.lt_size listed
    · exact parts.waits.lt_size listed
    · exact parts.left.lt_size listed
  have kept {part : Forest} {up : Option NodeId} (stands : part.Stands d up) :
      part.Stands after up :=
    stands.congr fun x listed => adds.same x (stands.lt_size listed)
  refine ⟨⟨?_, kept parts.shows.stands, parts.shows.distinct⟩,
    Forest.stands_append.mpr ⟨adds.stands, kept parts.waits⟩, kept parts.left, ?_⟩
  · rw [adds.same root (old List.mem_cons_self)]
    exact parts.shows.linked
  · have both : (new.ids ++ (root :: (shown.ids ++ (waiting.ids ++ gone.ids)))).Nodup := by
      refine List.nodup_append.mpr ⟨adds.distinct, parts.distinct, ?_⟩
      rintro x late _ early rfl
      exact Nat.not_lt_of_le (adds.fresh x late) (old early)
    refine (List.Perm.nodup_iff (List.perm_iff_count.mpr fun x => ?_)).mp both
    simp only [Forest.ids_append, List.count_cons, List.count_append]
    omega

/-- What waits can be put in another order. -/
theorem rearrange {other : Forest} (parts : d.Parts shown waiting gone)
    (stands : other.Stands d none) (perm : other.ids.Perm waiting.ids) :
    d.Parts shown other gone := by
  refine ⟨parts.shows, stands, parts.left, ?_⟩
  refine (List.Perm.nodup_iff ?_).mp parts.distinct
  exact ((perm.symm.append_right gone.ids).append_left shown.ids).cons root

/-- A forest that waits can be given up. -/
theorem giveUp (parts : d.Parts shown (new.append waiting) gone) :
    d.Parts shown waiting (new.append gone) := by
  obtain ⟨waitsNew, waits⟩ := Forest.stands_append.mp parts.waits
  refine ⟨parts.shows, waits, Forest.stands_append.mpr ⟨waitsNew, parts.left⟩, ?_⟩
  refine (List.Perm.nodup_iff ?_).mp parts.distinct
  -- The same nodes are listed in another order.
  rw [List.perm_iff_count]
  intro x
  simp only [Forest.ids_append, List.count_cons, List.count_append]
  omega

/-- The node that gives way is shown: it loses its place, with everything below it. -/
theorem replaceShown (parts : d.Parts shown (new.append waiting) gone) {content : Content}
    {below : Forest} (there : shown.find? old = some (content, below)) :
    (d.replaceWith old new.tops).Parts (shown.substitute [(old, new)]) waiting
      (.cons old content below gone) := by
  obtain ⟨waitsNew, waits⟩ := Forest.stands_append.mp parts.waits
  have distinct := parts.distinct
  simp only [Forest.ids_append, List.nodup_cons, List.mem_append, not_or,
    List.nodup_append] at distinct
  obtain ⟨⟨rootShown, ⟨rootNew, rootWaiting⟩, rootGone⟩, distinctShown,
    ⟨⟨distinctNew, _, newWaiting⟩, _, newGone⟩, shownOther⟩ := distinct
  -- The whole tree is the root with the forest that is shown below it.
  have whole := parts.shows.whole
  have distinctWhole := parts.shows.nodup_whole
  have other : root ≠ old := fun same => rootShown (same ▸ Forest.mem_of_find? there)
  obtain ⟨placed, ⟨node, standsBelow, _⟩, _, same⟩ :=
    whole.replaceWith waitsNew distinctWhole distinctNew
      (fun {x} listed within => by
        simp only [Forest.ids, List.append_nil, List.mem_cons] at listed
        obtain rfl | listed := listed
        · exact rootNew within
        · exact shownOther x listed x (.inl (.inl within)) rfl)
      (by rw [Forest.find?, if_neg other, there]; rfl)
      (by simpa [Forest.tops] using Ne.symm other)
  rw [Forest.substitute_single, if_neg other] at placed
  obtain ⟨linked, shows, _⟩ := placed
  -- All trees but those that are shown and those that are put there stay.
  have kept {part : Forest} (stands : part.Stands d none)
      (outside : ∀ x ∈ part.ids, x ≠ root ∧ x ∉ shown.ids ∧ x ∉ new.ids) :
      part.Stands (d.replaceWith old new.tops) none := by
    refine stands.congr fun x listed => ?_
    obtain ⟨notRoot, notShown, notNew⟩ := outside x listed
    exact same x (by simpa [Forest.ids] using ⟨notRoot, notShown⟩) (Forest.notMem_tops notNew)
  -- Each node is in one part before and after, or has come in.
  have perm := Forest.perm_ids_substitute new there distinctShown
  have distinct' : (root :: ((shown.substitute [(old, new)]).ids ++
      (waiting.ids ++ (old :: (below.ids ++ gone.ids))))).Nodup := by
    refine (List.Perm.nodup_iff (List.perm_iff_count.mpr fun x => ?_)).mp parts.distinct
    have counted := List.perm_iff_count.mp perm x
    simp only [Forest.ids_append, List.count_cons, List.count_append] at counted ⊢
    omega
  refine ⟨⟨linked, shows, ?_⟩, kept waits fun x listed => ?_,
    ⟨node, standsBelow, kept parts.left fun x listed => ?_⟩, distinct'⟩
  · exact distinct'.sublist (List.cons_sublist_cons.mpr (List.sublist_append_left _ _))
  · exact ⟨fun eq => rootWaiting (eq ▸ listed),
      fun within => shownOther x within x (.inl (.inr listed)) rfl,
      fun within => newWaiting x within x listed rfl⟩
  · exact ⟨fun eq => rootGone (eq ▸ listed),
      fun within => shownOther x within x (.inr listed) rfl,
      fun within => newGone x (.inl within) x listed rfl⟩

/-- A node that has lost its place gives way: what is shown stays as it is. -/
theorem replaceGone (parts : d.Parts shown (new.append waiting) gone) (listed : old ∈ gone.ids) :
    ∃ gone', (d.replaceWith old new.tops).Parts shown waiting gone' ∧ gone.ids ⊆ gone'.ids := by
  by_cases top : old ∈ gone.tops
  · -- Nothing is above the node, so that nothing happens.
    rw [replaceWith_of_parent?_eq_none (parts.left.parent?_of_mem_tops top)]
    refine ⟨_, parts.giveUp, ?_⟩
    rw [Forest.ids_append]
    exact List.subset_append_right _ _
  obtain ⟨waitsNew, waits⟩ := Forest.stands_append.mp parts.waits
  have distinct := parts.distinct
  simp only [Forest.ids_append, List.nodup_cons, List.mem_append, not_or,
    List.nodup_append] at distinct
  obtain ⟨⟨rootShown, ⟨rootNew, rootWaiting⟩, rootGone⟩, distinctShown,
    ⟨⟨distinctNew, _, newWaiting⟩, distinctGone, otherGone⟩, shownOther⟩ := distinct
  obtain ⟨content, below, there⟩ := Forest.find?_of_mem listed
  obtain ⟨left, lost, _, same⟩ := parts.left.replaceWith waitsNew distinctGone distinctNew
    (fun {x} listed within => otherGone x (.inl within) x listed rfl) there top
  have perm := Forest.perm_ids_substitute new there distinctGone
  refine ⟨.cons old content below (gone.substitute [(old, new)]), ⟨⟨?_, ?_, parts.shows.distinct⟩,
    ?_, ⟨lost.1, lost.2.1, left⟩, ?_⟩, fun x within => ?_⟩
  · rw [same root rootGone (Forest.notMem_tops rootNew)]
    exact parts.shows.linked
  · refine parts.shows.stands.congr fun x listed =>
      same x (fun within => ?_) (Forest.notMem_tops fun within => ?_)
    · exact shownOther x listed x (.inr within) rfl
    · exact shownOther x listed x (.inl (.inl within)) rfl
  · refine waits.congr fun x listed =>
      same x (fun within => ?_) (Forest.notMem_tops fun within => ?_)
    · exact otherGone x (.inr listed) x within rfl
    · exact newWaiting x within x listed rfl
  · -- What takes the place of the node joins those that have lost theirs.
    refine (List.Perm.nodup_iff (List.perm_iff_count.mpr fun x => ?_)).mp parts.distinct
    have counted := List.perm_iff_count.mp perm x
    simp only [Forest.ids, Forest.ids_append, List.count_cons, List.count_append] at counted ⊢
    omega
  · have moved := perm.mem_iff.mpr (List.mem_append_right new.ids within)
    simp only [Forest.ids, List.mem_cons, List.mem_append] at moved ⊢
    tauto

/-- A node gives way to a forest that waits, wherever the node is: in the forest that is shown, or
among those that have lost their place. No old node gets lost. -/
theorem replaceWith (parts : d.Parts shown (new.append waiting) gone)
    (listed : old ∈ shown.ids ++ gone.ids) :
    ∃ gone', (d.replaceWith old new.tops).Parts (shown.substitute [(old, new)]) waiting gone' ∧
      shown.ids ++ gone.ids ⊆ (shown.substitute [(old, new)]).ids ++ gone'.ids := by
  by_cases within : old ∈ shown.ids
  · -- The node joins those without a place, and so does all that was below it.
    obtain ⟨content, below, there⟩ := Forest.find?_of_mem within
    refine ⟨_, parts.replaceShown there, fun x known => ?_⟩
    have distinct := (List.nodup_cons.mp parts.shows.distinct).2
    have perm := Forest.perm_ids_substitute new there distinct
    have moved (inside : x ∈ shown.ids) := perm.mem_iff.mpr (List.mem_append_right new.ids inside)
    simp only [Forest.ids, List.mem_cons, List.mem_append] at moved known ⊢
    tauto
  · -- A node that is not shown changes nothing of what is.
    obtain ⟨gone', parts', kept⟩ :=
      parts.replaceGone ((List.mem_append.mp listed).resolve_left within)
    rw [Forest.substitute_of_notMem within]
    exact ⟨gone', parts', List.append_subset.mpr ⟨List.subset_append_left _ _,
      fun x known => List.mem_append_right _ (kept known)⟩⟩

end Parts

end Document

end Templates.Markup

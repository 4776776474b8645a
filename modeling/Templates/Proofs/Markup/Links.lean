import Mathlib.Logic.Relation
import Mathlib.Order.RelClasses
import Templates.Proofs.Markup.Parts

/-!
The two kinds of links of a document say the same.

A node that moves is linked anew in both directions, and no way up comes back to a node as long as
no node moves below itself.
-/

namespace Templates.Markup

namespace Document

/-- A node has another one right above it. -/
def Up (d : Document) (child parent : NodeId) : Prop :=
  d.parent? child = some parent

/-- A node is another one, or below it. -/
def Under (d : Document) (top id : NodeId) : Prop :=
  Relation.ReflTransGen d.Up id top

/-- The links of a document are those of trees. -/
structure WellLinked (d : Document) : Prop where
  /-- A node is above those that it has as its children. -/
  agree : ∀ parent child, d.parent? child = some parent ↔ child ∈ d.children parent
  /-- No child is listed twice. -/
  once : ∀ parent, (d.children parent).Nodup
  /-- The way up from a node ends. -/
  ends : ∀ id, Acc (fun parent child => d.Up child parent) id

section Links

variable (d : Document) {id : NodeId}

/-- A node that has one above it is in the document. -/
theorem lt_size_of_parent? {d : Document} {parent : NodeId} (up : d.parent? id = some parent) :
    id < d.size := by
  obtain ⟨node, there, _⟩ := Option.bind_eq_some_iff.mp up
  exact (Array.getElem?_eq_some_iff.mp there).1

/-- A node that has children is in the document. -/
theorem lt_size_of_mem_children {d : Document} {child : NodeId} (listed : child ∈ d.children id) :
    id < d.size := by
  cases there : d.nodes[id]? with
  | none => simp [children, there] at listed
  | some node => exact (Array.getElem?_eq_some_iff.mp there).1

/-- A changed link upwards is that of one node. -/
theorem parent?_setParent (there : id < d.size) (parent : Option NodeId) (x : NodeId) :
    (d.setParent parent id).parent? x = if x = id then parent else d.parent? x := by
  rw [parent?, getElem?_setParent]
  by_cases same : id = x
  · subst same
    rw [if_pos rfl, if_pos rfl, Array.getElem?_eq_getElem there]
    rfl
  · rw [if_neg same, if_neg (Ne.symm same)]
    rfl

/-- A changed link upwards leaves all children where they are. -/
theorem children_setParent (parent : Option NodeId) (x : NodeId) :
    (d.setParent parent id).children x = d.children x := by
  rw [children, children, getElem?_setParent]
  by_cases same : id = x
  · rw [if_pos same]
    cases d.nodes[x]? <;> rfl
  · rw [if_neg same]

/-- Changed links downwards leave all links upwards as they are. -/
theorem parent?_mapChildren (f : List NodeId → List NodeId) (x : NodeId) :
    (d.mapChildren f id).parent? x = d.parent? x := by
  rw [parent?, parent?, getElem?_mapChildren]
  split <;> cases d.nodes[x]? <;> rfl

/-- Changed links downwards are those of one node. -/
theorem children_mapChildren (there : id < d.size) (f : List NodeId → List NodeId) (x : NodeId) :
    (d.mapChildren f id).children x = if x = id then f (d.children x) else d.children x := by
  rw [children, children, getElem?_mapChildren]
  by_cases same : id = x
  · subst same
    rw [if_pos rfl, if_pos rfl, Array.getElem?_eq_getElem there]
    rfl
  · rw [if_neg same, if_neg (Ne.symm same)]

/-- A node that leaves its place has nothing above it, and all others keep what is above them. -/
theorem parent?_detach (x : NodeId) :
    (d.detach id).parent? x = if x = id then none else d.parent? x := by
  rw [detach]
  cases up : d.parent? id with
  | none =>
    by_cases same : x = id
    · rw [if_pos same, same]
      exact up
    · rw [if_neg same]
  | some parent =>
    dsimp only
    rw [parent?_mapChildren, parent?_setParent d (lt_size_of_parent? up)]

/-- A changed content leaves all links upwards as they are. -/
theorem parent?_setContent (content : Content) (x : NodeId) :
    (d.setContent content id).parent? x = d.parent? x := by
  rw [parent?, parent?, getElem?_setContent]
  split <;> cases d.nodes[x]? <;> rfl

/-- A changed content leaves all children where they are. -/
theorem children_setContent (content : Content) (x : NodeId) :
    (d.setContent content id).children x = d.children x := by
  rw [children, children, getElem?_setContent]
  by_cases same : id = x
  · rw [if_pos same]
    cases d.nodes[x]? <;> rfl
  · rw [if_neg same]

/-- A changed content creates no node. -/
@[simp] theorem size_setContent (content : Content) : (d.setContent content id).size = d.size :=
  Array.size_modify

/-- A changed element creates no node. -/
@[simp] theorem size_mapElement (f : Element → Element) : (d.mapElement f id).size = d.size := by
  rw [mapElement]
  split
  · exact size_setContent d _
  · rfl

end Links

/-- On a way up to the root, all that a node is below is met. -/
theorem Leads.mem_of_under {d : Document} (rooted : d.parent? root = none) {id : NodeId}
    {above : List NodeId} (leads : d.Leads id above) {top : NodeId} (under : d.Under top id) :
    top ∈ id :: above := by
  induction above generalizing id with
  | nil =>
    -- Nothing is above the root.
    obtain rfl : id = root := leads
    obtain rfl | ⟨parent, up, _⟩ := Relation.ReflTransGen.cases_head under
    · exact List.mem_cons_self
    · exact absurd (rooted.symm.trans up) (by simp)
  | cons parent above ih =>
    obtain ⟨up, leads⟩ := leads
    obtain rfl | ⟨next, other, under⟩ := Relation.ReflTransGen.cases_head under
    · exact List.mem_cons_self
    · obtain rfl := Option.some.inj (up.symm.trans other)
      exact List.mem_cons_of_mem _ (ih leads under)

namespace WellLinked

variable {d other : Document}

/-- Nothing is linked in a document without nodes. -/
theorem none : WellLinked ⟨#[]⟩ where
  agree parent child := by simp [parent?, children]
  once parent := by simp [children]
  ends id := .intro id fun parent up => by simp [Up, parent?] at up

/-- Links that are the same are well linked in both documents. -/
theorem congr (linked : d.WellLinked) (parents : ∀ x, other.parent? x = d.parent? x)
    (children : ∀ x, other.children x = d.children x) : other.WellLinked where
  agree parent child := by rw [parents, children, linked.agree]
  once parent := by rw [children]; exact linked.once parent
  ends id := by
    have same : other.Up = d.Up := by
      funext child parent
      rw [Up, Up, parents]
    rw [same]
    exact linked.ends id

/-- A node has one node above it at most. -/
theorem unique (linked : d.WellLinked) {parent second child : NodeId}
    (first : child ∈ d.children parent) (again : child ∈ d.children second) : second = parent := by
  rw [← linked.agree] at first again
  exact Option.some.inj (again.symm.trans first)

/-- Both ends of a link are in the document. -/
theorem lt_size (linked : d.WellLinked) {parent child : NodeId}
    (listed : child ∈ d.children parent) : child < d.size ∧ parent < d.size :=
  ⟨lt_size_of_parent? ((linked.agree parent child).mpr listed), lt_size_of_mem_children listed⟩

/-- No way up comes back to the node it begins at. -/
theorem not_transGen (linked : d.WellLinked) (id : NodeId) : ¬ Relation.TransGen d.Up id id := by
  intro cycle
  have wellFounded : WellFounded fun parent child => d.Up child parent := ⟨linked.ends⟩
  have back := Relation.transGen_swap.mpr cycle
  exact wellFounded.transGen.asymmetric id id back back

/-- A node that leaves its place is no child any more. -/
theorem children_detach (linked : d.WellLinked) (id x : NodeId) :
    (d.detach id).children x = (d.children x).filter (· ≠ id) := by
  -- Where the node is no child, leaving it out changes nothing.
  rw [detach]
  cases up : d.parent? id with
  | none =>
    refine (filter_ne_of_notMem fun listed => ?_).symm
    rw [(linked.agree x id).mpr listed] at up
    cases up
  | some parent =>
    have there : parent < (d.setParent Option.none id).size := by
      rw [size_setParent]
      exact lt_size_of_mem_children ((linked.agree parent id).mp up)
    dsimp only
    rw [children_mapChildren _ there, children_setParent]
    by_cases same : x = parent
    · rw [if_pos same]
    · rw [if_neg same]
      refine (filter_ne_of_notMem fun listed => same ?_).symm
      exact Option.some.inj (((linked.agree x id).mpr listed).symm.trans up)

/-- A node leaves its place. -/
theorem detach (linked : d.WellLinked) (id : NodeId) : (d.detach id).WellLinked where
  agree parent child := by
    rw [parent?_detach, linked.children_detach, List.mem_filter, ← linked.agree]
    by_cases same : child = id <;> simp [same]
  once parent := by
    rw [linked.children_detach]
    exact (linked.once parent).filter _
  ends x := by
    -- All links upwards that are left have been there before.
    refine Subrelation.accessible (fun {parent child} up => ?_) (linked.ends x)
    rw [Up, parent?_detach] at up
    split at up
    · cases up
    · exact up

end WellLinked

/-- What is below a node when another one has left its place was below it before. -/
theorem Under.of_detach {d : Document} {id top x : NodeId} (under : (d.detach id).Under top x) :
    d.Under top x := by
  refine Relation.ReflTransGen.mono (fun child parent up => ?_) _ _ under
  rw [Up, parent?_detach] at up
  split at up
  · cases up
  · exact up

namespace WellLinked

variable {d other : Document}

/-- A node without a place gets one below another node that is not below it, in both directions. -/
theorem link (linked : d.WellLinked) {parent child : NodeId} (loose : d.parent? child = Option.none)
    (parentThere : parent < d.size) (childThere : child < d.size)
    (apart : ¬ d.Under child parent) {f : List NodeId → List NodeId}
    (adds : ∀ list, (f list).Perm (child :: list)) :
    ((d.setParent (some parent) child).mapChildren f parent).WellLinked := by
  have there : parent < (d.setParent (some parent) child).size := by
    rw [size_setParent]
    exact parentThere
  have up (x : NodeId) : ((d.setParent (some parent) child).mapChildren f parent).parent? x =
      if x = child then some parent else d.parent? x := by
    rw [parent?_mapChildren, parent?_setParent d childThere]
  have below (x : NodeId) : ((d.setParent (some parent) child).mapChildren f parent).children x =
      if x = parent then f (d.children x) else d.children x := by
    rw [children_mapChildren _ there, children_setParent]
  have unlisted (x : NodeId) : child ∉ d.children x := by
    intro listed
    rw [(linked.agree x child).mpr listed] at loose
    cases loose
  refine ⟨fun x y => ?_, fun x => ?_, ?_⟩
  · -- The node with the place has one more child, which has it above.
    rw [up, below]
    by_cases isChild : y = child
    · subst isChild
      rw [if_pos rfl]
      by_cases isParent : x = parent
      · rw [if_pos isParent, (adds _).mem_iff, isParent]
        simp
      · rw [if_neg isParent]
        simp [unlisted x, Ne.symm isParent]
    · rw [if_neg isChild]
      by_cases isParent : x = parent
      · rw [if_pos isParent, (adds _).mem_iff, List.mem_cons, or_iff_right isChild, linked.agree]
      · rw [if_neg isParent, linked.agree]
  · rw [below]
    split
    · rw [(adds _).nodup_iff, List.nodup_cons]
      exact ⟨unlisted x, linked.once x⟩
    · exact linked.once x
  · -- From a node that is not below the child the way up is what it was.
    have outside (x : NodeId) : ¬ d.Under child x → Acc (fun parent' child' =>
        ((d.setParent (some parent) child).mapChildren f parent).Up child' parent') x := by
      induction linked.ends x with
      | intro x _ ih =>
        intro free
        refine .intro x fun next step => ?_
        have notChild : x ≠ child := fun same => free (same ▸ .refl)
        rw [Up, up, if_neg notChild] at step
        exact ih next step fun under => free (.head step under)
    -- All others come to the child, and from there to its new parent.
    intro x
    induction linked.ends x with
    | intro x _ ih =>
      refine .intro x fun next step => ?_
      rw [Up, up] at step
      split at step
      · obtain rfl := Option.some.inj step
        exact outside _ apart
      · exact ih next step

/-- A number in front of another one, or at the end, is one more number. -/
theorem perm_putBefore (reference child : NodeId) (list : List NodeId) :
    (putBefore reference child list).Perm (child :: list) := by
  induction list with
  | nil => exact .refl _
  | cons id list ih =>
    rw [putBefore]
    split
    · exact .refl _
    · exact (ih.cons id).trans (.swap child id list)

/-- A node moves to the last place below another one that is not below it. -/
theorem append (linked : d.WellLinked) {parent child : NodeId} (parentThere : parent < d.size)
    (childThere : child < d.size) (apart : ¬ d.Under child parent) :
    (d.append parent child).WellLinked := by
  have size := (Relinked.detach child d).size
  refine (linked.detach child).link ?_ (size ▸ parentThere) (size ▸ childThere)
    (fun under => apart under.of_detach) fun list => List.perm_append_singleton child list
  rw [parent?_detach, if_pos rfl]

/-- A node moves in front of another one, unless what is above that one is below it. -/
theorem insertBefore (linked : d.WellLinked) {reference child : NodeId}
    (childThere : child < d.size)
    (apart : ∀ parent, d.parent? reference = some parent → ¬ d.Under child parent) :
    (d.insertBefore reference child).WellLinked := by
  rw [Document.insertBefore]
  cases up : d.parent? reference with
  | none => exact linked
  | some parent =>
    have size := (Relinked.detach child d).size
    have parentThere := (linked.lt_size ((linked.agree parent reference).mp up)).2
    refine (linked.detach child).link ?_ (size ▸ parentThere) (size ▸ childThere)
      (fun under => apart parent up under.of_detach) (perm_putBefore reference child)
    rw [parent?_detach, if_pos rfl]

/-- The content of a node changes. -/
theorem setContent (linked : d.WellLinked) (content : Content) (id : NodeId) :
    (d.setContent content id).WellLinked :=
  linked.congr (parent?_setContent d content) (children_setContent d content)

/-- The element a node is changes. -/
theorem mapElement (linked : d.WellLinked) (f : Element → Element) (id : NodeId) :
    (d.mapElement f id).WellLinked := by
  rw [Document.mapElement]
  split
  · exact linked.setContent _ id
  · exact linked

end WellLinked

end Document

namespace Forest

variable {d : Document} {forest : Forest}

/-- A child of a node of a standing forest has that node above it. -/
theorem Stands.parent?_of_mem_children {parent : Option NodeId} (stands : forest.Stands d parent)
    (distinct : forest.ids.Nodup) {id child : NodeId} (listed : id ∈ forest.ids)
    (below : child ∈ d.children id) : d.parent? child = some id := by
  obtain ⟨_, kids, there⟩ := find?_of_mem listed
  obtain ⟨_, children, standsKids, _⟩ := stands.tree_of_find? distinct there
  rw [children] at below
  exact standsKids.parent?_of_mem_tops below

/-- A node of a standing forest lists no child twice. -/
theorem Stands.nodup_children {parent : Option NodeId} (stands : forest.Stands d parent)
    (distinct : forest.ids.Nodup) {id : NodeId} (listed : id ∈ forest.ids) :
    (d.children id).Nodup := by
  obtain ⟨_, kids, there⟩ := find?_of_mem listed
  obtain ⟨_, children, _, distinctKids⟩ := stands.tree_of_find? distinct there
  rw [children]
  exact kids.tops_sublist.nodup distinctKids

/-- A node of a standing forest is a child of the node above it, unless that is what the forest
stands below. -/
theorem Stands.mem_children {parent : Option NodeId} (stands : forest.Stands d parent)
    {id above : NodeId} (listed : id ∈ forest.ids) (up : d.parent? id = some above) :
    parent = some above ∧ id ∈ forest.tops ∨ id ∈ d.children above := by
  induction forest generalizing parent with
  | nil => cases listed
  | cons first content below rest ihBelow ihRest =>
    have children := stands.children
    obtain ⟨node, standsBelow, standsRest⟩ := stands
    obtain rfl | listed := List.mem_cons.mp listed
    · exact .inl ⟨(Document.parent?_eq node).symm.trans up, .head _⟩
    obtain listed | listed := List.mem_append.mp listed
    · -- The topmost nodes below the first one are its children.
      right
      obtain ⟨same, top⟩ | found := ihBelow standsBelow listed
      · rw [← Option.some.inj same, children]
        exact top
      · exact found
    · obtain ⟨same, top⟩ | found := ihRest standsRest listed
      · exact .inl ⟨same, .tail _ top⟩
      · exact .inr found

/-- The way up from a node of a standing forest ends if it does from the node above the forest. -/
theorem Stands.ends {parent : Option NodeId} (stands : forest.Stands d parent)
    (above : ∀ id, parent = some id → Acc (fun parent child => d.Up child parent) id) {id : NodeId}
    (listed : id ∈ forest.ids) : Acc (fun parent child => d.Up child parent) id := by
  induction forest generalizing parent with
  | nil => cases listed
  | cons first content below rest ihBelow ihRest =>
    obtain ⟨node, standsBelow, standsRest⟩ := stands
    have here : Acc (fun parent child => d.Up child parent) first :=
      .intro first fun next up => above next ((Document.parent?_eq node).symm.trans up)
    obtain rfl | listed := List.mem_cons.mp listed
    · exact here
    obtain listed | listed := List.mem_append.mp listed
    · refine ihBelow standsBelow (fun id same => ?_) listed
      rw [← Option.some.inj same]
      exact here
    · exact ihRest standsRest above listed

end Forest

namespace Document.WellLinked

variable {d after : Document} {new : Forest}

/-- A document gets a new forest without a place, which all new nodes belong to. -/
theorem adds (linked : d.WellLinked) (adds : d.Adds after new)
    (covers : ∀ id, d.size ≤ id → id < after.size → id ∈ new.ids) : after.WellLinked := by
  obtain ⟨stands, distinct, fresh, same⟩ := adds
  have parents (id : NodeId) (old : id < d.size) : after.parent? id = d.parent? id := by
    rw [parent?, parent?, same id old]
  have children (id : NodeId) (old : id < d.size) : after.children id = d.children id := by
    rw [Document.children, Document.children, same id old]
  refine ⟨fun parent child => ⟨fun up => ?_, fun listed => ?_⟩, fun parent => ?_, ?_⟩
  · -- Old nodes have kept what is above them, and new ones have new nodes above them.
    have there := lt_size_of_parent? up
    obtain old | later := Nat.lt_or_ge child d.size
    · rw [parents child old, linked.agree] at up
      rwa [children parent (linked.lt_size up).2]
    · obtain ⟨nothing, _⟩ | found := stands.mem_children (covers child later there) up
      · cases nothing
      · exact found
  · have there := lt_size_of_mem_children listed
    obtain old | later := Nat.lt_or_ge parent d.size
    · rw [children parent old] at listed
      rwa [parents child (linked.lt_size listed).1, linked.agree]
    · exact stands.parent?_of_mem_children distinct (covers parent later there) listed
  · obtain old | later := Nat.lt_or_ge parent d.size
    · rw [children parent old]
      exact linked.once parent
    · obtain there | beyond := Nat.lt_or_ge parent after.size
      · exact stands.nodup_children distinct (covers parent later there)
      · have absent : after.children parent = [] := by
          rw [Document.children, Array.getElem?_eq_none beyond]
        rw [absent]
        exact List.nodup_nil
  · intro id
    -- The way up from an old node goes through old nodes only.
    induction linked.ends id with
    | intro id _ ih =>
      obtain old | later := Nat.lt_or_ge id d.size
      · refine .intro id fun next up => ih next ?_
        rw [Up, parents id old] at up
        exact up
      · obtain there | beyond := Nat.lt_or_ge id after.size
        · exact stands.ends (by rintro _ ⟨⟩) (covers id later there)
        · refine .intro id fun next up => ?_
          exact absurd (lt_size_of_parent? up) (Nat.not_lt_of_le beyond)

/-- A new node is created. -/
theorem create (linked : d.WellLinked) (content : Content) : (d.create content).2.WellLinked := by
  refine linked.adds (Adds.create content d) fun id later there => ?_
  have size : (d.create content).2.size = d.size + 1 := Array.size_push _
  have last : id = d.size := by omega
  rw [last]
  exact .head _

/-- A copy of a tree is added. -/
theorem importTree (linked : d.WellLinked) (tree : Tree) : (d.importTree tree).2.WellLinked := by
  obtain ⟨_, size, _⟩ := importTree_stands tree d
  refine linked.adds (Adds.importTree tree d) fun id later there => ?_
  rw [Forest.ids_plant, List.mem_range'_1]
  simp only [sizeAll]
  omega

/-- Copies of trees are added one after the other. -/
theorem importTrees (linked : d.WellLinked) (trees : List Tree) :
    (d.importTrees trees).2.WellLinked := by
  induction trees generalizing d with
  | nil => exact linked
  | cons tree rest ih => exact ih (linked.importTree tree)

/-- A document made of trees is a copy of them below a root. -/
theorem ofForest (trees : List Tree) : (Document.ofForest trees).WellLinked := by
  have whole : (Document.ofForest trees) =
      (Document.importTree (.node .fragment trees) ⟨#[]⟩).2 := by
    rw [Document.importTree, Document.ofForest, Array.empty_append]
    rfl
  rw [whole]
  exact WellLinked.none.importTree _

end Document.WellLinked

end Templates.Markup

import Mathlib.Data.List.Perm.Subperm
import Templates.Markup.Import

/-!
Forests whose nodes have numbers, and the documents in which they stand.

A document is read through the forest below its root: what its walks visit and what it is written as
follows from the forest alone.
-/

namespace Templates.Markup

/-- A node knows what is above it. -/
theorem Document.parent?_eq {d : Document} {id : NodeId} {content : Content}
    {parent : Option NodeId} {children : List NodeId}
    (node : d.nodes[id]? = some ⟨content, parent, children⟩) :
    d.parent? id = parent := by
  rw [parent?, node]
  rfl

/-- A list of different numbers of nodes is no longer than the document. -/
theorem Document.length_le_of_nodup {d : Document} {ids : List NodeId} (distinct : ids.Nodup)
    (there : ∀ id ∈ ids, id < d.size) : ids.length ≤ d.size := by
  have within : ids ⊆ List.range d.size := fun id listed => List.mem_range.mpr (there id listed)
  have bound := (List.subperm_of_subset distinct within).length_le
  rwa [List.length_range] at bound

/-- Trees side by side: a numbered node with those below it, and the trees to its right. -/
inductive Forest where
  | nil
  | cons (id : NodeId) (content : Content) (below rest : Forest)
deriving Repr

namespace Forest

/-- The numbers of the topmost nodes. -/
def tops : Forest → List NodeId
  | nil => []
  | cons id _ _ rest => id :: rest.tops

/-- The numbers of all nodes, each in front of those below it. -/
def ids : Forest → List NodeId
  | nil => []
  | cons id _ below rest => id :: (below.ids ++ rest.ids)

/-- The trees without numbers. -/
def trees : Forest → List Tree
  | nil => []
  | cons _ content below rest => .node content below.trees :: rest.trees

/-- Two forests side by side. -/
def append : Forest → Forest → Forest
  | nil, right => right
  | cons id content below rest, right => cons id content below (rest.append right)

@[simp] theorem tops_append (left right : Forest) :
    (left.append right).tops = left.tops ++ right.tops := by
  induction left with
  | nil => rfl
  | cons id content below rest _ ih => simp [append, tops, ih]

@[simp] theorem ids_append (left right : Forest) :
    (left.append right).ids = left.ids ++ right.ids := by
  induction left with
  | nil => rfl
  | cons id content below rest _ ih => simp [append, ids, ih]

@[simp] theorem trees_append (left right : Forest) :
    (left.append right).trees = left.trees ++ right.trees := by
  induction left with
  | nil => rfl
  | cons id content below rest _ ih => simp [append, trees, ih]

/-- The topmost nodes come in the order of all nodes. -/
theorem tops_sublist (forest : Forest) : forest.tops.Sublist forest.ids := by
  -- The trees to the right come behind what is below the first node.
  induction forest with
  | nil => exact .slnil
  | cons id content below rest _ ih =>
    exact List.Sublist.cons_cons id (ih.trans (List.sublist_append_right _ _))

/-- A topmost node is one of the nodes. -/
theorem mem_ids_of_mem_tops {forest : Forest} {id : NodeId} (listed : id ∈ forest.tops) :
    id ∈ forest.ids :=
  forest.tops_sublist.subset listed

/-- What is none of the nodes is no topmost one. -/
theorem notMem_tops {forest : Forest} {id : NodeId} (absent : id ∉ forest.ids) :
    id ∉ forest.tops := fun listed =>
  absent (mem_ids_of_mem_tops listed)

/-- Each node of a forest is in the document with its content, its parent and its children. -/
def Stands (d : Document) (parent : Option NodeId) : Forest → Prop
  | nil => True
  | cons id content below rest =>
    d.nodes[id]? = some ⟨content, parent, below.tops⟩ ∧
      below.Stands d (some id) ∧ rest.Stands d parent

/-- Two forests stand side by side if each of them stands. -/
theorem stands_append {d : Document} {parent : Option NodeId} {left right : Forest} :
    (left.append right).Stands d parent ↔ left.Stands d parent ∧ right.Stands d parent := by
  induction left with
  | nil => simp [append, Stands]
  | cons id content below rest _ ih => simp only [append, Stands, ih, and_assoc]

/-- A forest stands wherever its nodes are the same. -/
theorem Stands.congr {d other : Document} {parent : Option NodeId} {forest : Forest}
    (stands : forest.Stands d parent)
    (same : ∀ id ∈ forest.ids, other.nodes[id]? = d.nodes[id]?) : forest.Stands other parent := by
  induction forest generalizing parent with
  | nil => trivial
  | cons id content below rest ihBelow ihRest =>
    obtain ⟨node, standsBelow, standsRest⟩ := stands
    refine ⟨(same id List.mem_cons_self).trans node, ?_, ?_⟩
    -- The nodes below come right after their parent, and the other trees behind all of them.
    · exact ihBelow standsBelow fun child listed =>
        same child (List.mem_cons_of_mem _ (List.mem_append_left _ listed))
    · exact ihRest standsRest fun child listed =>
        same child (List.mem_cons_of_mem _ (List.mem_append_right _ listed))

/-- The nodes of a standing forest are in the document. -/
theorem Stands.lt_size {d : Document} {parent : Option NodeId} {forest : Forest}
    (stands : forest.Stands d parent) {id : NodeId} (listed : id ∈ forest.ids) : id < d.size := by
  -- Each node is looked up in the document, where it stands.
  induction forest generalizing parent with
  | nil => cases listed
  | cons first content below rest ihBelow ihRest =>
    obtain ⟨node, standsBelow, standsRest⟩ := stands
    obtain rfl | listed := List.mem_cons.mp listed
    · obtain ⟨bound, _⟩ := Array.getElem?_eq_some_iff.mp node
      exact bound
    · obtain listed | listed := List.mem_append.mp listed
      · exact ihBelow standsBelow listed
      · exact ihRest standsRest listed

/-- A forest of different nodes has no more of them than the document. -/
theorem Stands.length_le {d : Document} {parent : Option NodeId} {forest : Forest}
    (stands : forest.Stands d parent) (distinct : forest.ids.Nodup) :
    forest.ids.length ≤ d.size :=
  Document.length_le_of_nodup distinct fun _ listed => stands.lt_size listed

/-- What is above a node of a standing forest is above the forest or in it. -/
theorem Stands.parent? {d : Document} {parent : Option NodeId} {forest : Forest}
    (stands : forest.Stands d parent) {id : NodeId} (listed : id ∈ forest.ids) :
    d.parent? id = parent ∨ ∃ above ∈ forest.ids, d.parent? id = some above := by
  -- Topmost nodes have the node above the forest, and all others one inside of it.
  induction forest generalizing parent with
  | nil => cases listed
  | cons first content below rest ihBelow ihRest =>
    obtain ⟨node, standsBelow, standsRest⟩ := stands
    obtain rfl | listed := List.mem_cons.mp listed
    · exact .inl (Document.parent?_eq node)
    · obtain listed | listed := List.mem_append.mp listed
      · right
        obtain up | ⟨above, listed, up⟩ := ihBelow standsBelow listed
        · exact ⟨first, List.mem_cons_self, up⟩
        · exact ⟨above, List.mem_cons_of_mem _ (List.mem_append_left _ listed), up⟩
      · obtain up | ⟨above, listed, up⟩ := ihRest standsRest listed
        · exact .inl up
        · exact .inr ⟨above, List.mem_cons_of_mem _ (List.mem_append_right _ listed), up⟩

/-- A node of a standing forest has the forest below it as its children. -/
theorem Stands.children {d : Document} {parent : Option NodeId} {id : NodeId} {content : Content}
    {below rest : Forest} (stands : (cons id content below rest).Stands d parent) :
    d.children id = below.tops := by
  rw [Document.children, stands.1]

/-- A node of a standing forest has its content. -/
theorem Stands.content {d : Document} {parent : Option NodeId} {id : NodeId} {content : Content}
    {below rest : Forest} (stands : (cons id content below rest).Stands d parent) :
    d.content id = content := by
  rw [Document.content, stands.1]

/-- A walk visits the nodes of a standing forest in order, if it may visit that many. -/
theorem Stands.visit {d : Document} {parent : Option NodeId} {forest : Forest}
    (stands : forest.Stands d parent) (pending : List NodeId) (fuel : Nat) :
    d.visit (forest.ids.length + fuel) (forest.tops ++ pending) =
      forest.ids ++ d.visit fuel pending := by
  -- After a node those below it are pending in front of the trees to its right.
  induction forest generalizing parent pending fuel with
  | nil => simp [ids, tops]
  | cons id content below rest ihBelow ihRest =>
    have children := stands.children
    obtain ⟨_, standsBelow, standsRest⟩ := stands
    have count : (cons id content below rest).ids.length + fuel =
        below.ids.length + (rest.ids.length + fuel) + 1 := by
      simp only [ids, List.length_cons, List.length_append]
      omega
    rw [count, tops, List.cons_append, Document.visit, children,
      ihBelow standsBelow, ihRest standsRest]
    simp [ids]

/-- The nodes below a node of a standing forest are those that the forest has there. -/
theorem Stands.descendants {d : Document} {parent : Option NodeId} {id : NodeId} {content : Content}
    {below rest : Forest} (stands : (cons id content below rest).Stands d parent)
    (distinct : below.ids.Nodup) : d.descendants id = below.ids := by
  obtain ⟨fuel, enough⟩ : ∃ fuel, d.size = below.ids.length + fuel :=
    ⟨_, (Nat.add_sub_cancel' (stands.2.1.length_le distinct)).symm⟩
  have walk := stands.2.1.visit [] fuel
  have done : d.visit fuel [] = [] := by cases fuel <;> rfl
  rw [List.append_nil, done, List.append_nil] at walk
  rw [Document.descendants, stands.children, enough, walk]

/-- With what is below them the topmost nodes of a standing forest are all of its nodes. -/
theorem Stands.flatMap_descendants {d : Document} {parent : Option NodeId} {forest : Forest}
    (stands : forest.Stands d parent) (distinct : forest.ids.Nodup) :
    (forest.tops.flatMap fun x => x :: d.descendants x) = forest.ids := by
  induction forest with
  | nil => rfl
  | cons id content below rest _ ih =>
    have apart := List.nodup_append.mp (List.nodup_cons.mp distinct).2
    rw [tops, List.flatMap_cons, stands.descendants apart.1, ih stands.2.2 apart.2.1]
    rfl

/-- The trees of a standing forest are those of its topmost nodes, if they may be deep enough. -/
theorem Stands.treeTo {d : Document} {parent : Option NodeId} {forest : Forest}
    (stands : forest.Stands d parent) {fuel : Nat} (enough : forest.ids.length ≤ fuel) :
    forest.tops.map (d.treeTo fuel) = forest.trees := by
  induction forest generalizing parent fuel with
  | nil => rfl
  | cons id content below rest ihBelow ihRest =>
    have children := stands.children
    have own := stands.content
    obtain ⟨_, standsBelow, standsRest⟩ := stands
    simp only [ids, List.length_cons, List.length_append] at enough
    obtain ⟨fuel, rfl⟩ : ∃ n, fuel = n + 1 := ⟨fuel - 1, by omega⟩
    -- One level of depth goes to the node itself, and the rest is enough for those below it.
    have first : d.treeTo (fuel + 1) id = .node content below.trees := by
      rw [Document.treeTo, children, own, ihBelow standsBelow (by omega)]
    rw [tops, List.map_cons, first, ihRest standsRest (by omega)]
    rfl

/-- A node of a standing forest is read as a tree with everything below it. -/
theorem Stands.tree {d : Document} {parent : Option NodeId} {id : NodeId} {content : Content}
    {below rest : Forest} (stands : (cons id content below rest).Stands d parent)
    (distinct : (cons id content below rest).ids.Nodup) :
    d.tree id = .node content below.trees := by
  have enough := stands.length_le distinct
  have trees := stands.treeTo enough
  exact (List.cons.inj trees).1

/-- What is below a node of a standing forest is in the forest as well. -/
theorem Stands.children_subset {d : Document} {parent : Option NodeId} {forest : Forest}
    (stands : forest.Stands d parent) {id : NodeId} (listed : id ∈ forest.ids) :
    d.children id ⊆ forest.ids := by
  -- The children of a node are the topmost ones of the forest below it.
  induction forest generalizing parent with
  | nil => cases listed
  | cons first content below rest ihBelow ihRest =>
    have children := stands.children
    obtain ⟨_, standsBelow, standsRest⟩ := stands
    intro child below'
    apply List.mem_cons_of_mem
    rw [List.mem_append]
    obtain rfl | listed := List.mem_cons.mp listed
    · rw [children] at below'
      exact .inl (mem_ids_of_mem_tops below')
    · obtain listed | listed := List.mem_append.mp listed
      · exact .inl (ihBelow standsBelow listed below')
      · exact .inr (ihRest standsRest listed below')

/-- Documents in which a forest stands have the same nodes and the same trees there. -/
theorem Stands.alike {d other : Document} {parent : Option NodeId} {forest : Forest}
    (stands : forest.Stands d parent) (again : forest.Stands other parent)
    (distinct : forest.ids.Nodup) {id : NodeId} (listed : id ∈ forest.ids) :
    other.nodes[id]? = d.nodes[id]? ∧ other.tree id = d.tree id := by
  -- The contents and the links are told by the forest, in both documents.
  induction forest generalizing parent with
  | nil => cases listed
  | cons first content below rest ihBelow ihRest =>
    obtain rfl | listed := List.mem_cons.mp listed
    · exact ⟨again.1.trans stands.1.symm,
        (again.tree distinct).trans (stands.tree distinct).symm⟩
    obtain ⟨_, standsBelow, standsRest⟩ := stands
    obtain ⟨_, againBelow, againRest⟩ := again
    have apart := List.nodup_append.mp (List.nodup_cons.mp distinct).2
    obtain listed | listed := List.mem_append.mp listed
    · exact ihBelow standsBelow againBelow apart.1 listed
    · exact ihRest standsRest againRest apart.2.1 listed

end Forest

namespace Document

/-- The nodes on the way up from a node, the last one being the root. -/
def Leads (d : Document) : NodeId → List NodeId → Prop
  | id, [] => id = root
  | id, parent :: above => d.parent? id = some parent ∧ d.Leads parent above

/-- The way up ends at the root if it may be long enough. -/
theorem Leads.climbs {d : Document} {id : NodeId} {above : List NodeId} (leads : d.Leads id above)
    {fuel : Nat} (enough : above.length < fuel) : d.climbs fuel id = true := by
  -- One step is taken to the node above, and the others go up from there.
  induction above generalizing id fuel with
  | nil =>
    obtain ⟨fuel, rfl⟩ : ∃ n, fuel = n + 1 := ⟨fuel - 1, by omega⟩
    have top : id = root := leads
    rw [Document.climbs, top]
    rfl
  | cons parent above ih =>
    obtain ⟨fuel, rfl⟩ : ∃ n, fuel = n + 1 := ⟨fuel - 1, by omega⟩
    obtain ⟨up, leads⟩ := leads
    simp only [List.length_cons] at enough
    rw [Document.climbs, up]
    dsimp only
    rw [ih leads (by omega), Bool.or_true]

/-- The root is on every way up. -/
theorem Leads.root_mem {d : Document} {id : NodeId} {above : List NodeId}
    (leads : d.Leads id above) : root ∈ id :: above := by
  -- The last node of every way is the root.
  induction above generalizing id with
  | nil =>
    have top : id = root := leads
    exact List.mem_singleton.mpr top.symm
  | cons parent above ih => exact List.mem_cons_of_mem _ (ih leads.2)

/-- A way up goes through nodes of the document, if it has a root. -/
theorem Leads.lt_size {d : Document} {id : NodeId} {above : List NodeId} (leads : d.Leads id above)
    (rooted : 0 < d.size) {x : NodeId} (listed : x ∈ id :: above) : x < d.size := by
  -- All nodes on the way but the last have one above them.
  induction above generalizing id with
  | nil =>
    have top : id = root := leads
    rw [List.mem_singleton.mp listed, top]
    exact rooted
  | cons parent above ih =>
    obtain ⟨up, leads⟩ := leads
    obtain rfl | listed := List.mem_cons.mp listed
    · -- A node with another one above it is in the document.
      obtain ⟨node, there, _⟩ := Option.bind_eq_some_iff.mp up
      exact (Array.getElem?_eq_some_iff.mp there).1
    · exact ih leads listed

/-- A way up stays the same if all links up from it do. -/
theorem Leads.congr {d other : Document} {id : NodeId} {above : List NodeId}
    (leads : d.Leads id above) (same : ∀ x ∈ id :: above, other.parent? x = d.parent? x) :
    other.Leads id above := by
  -- Each link of the way goes up from one of its nodes.
  induction above generalizing id with
  | nil => exact leads
  | cons parent above ih =>
    obtain ⟨up, leads⟩ := leads
    refine ⟨(same id List.mem_cons_self).trans up, ih leads ?_⟩
    intro x listed
    exact same x (List.mem_cons_of_mem _ listed)

/-- A forest is what is below the root of a document: its nodes are all different, and each is
linked to those above and below it. The root itself is no more than a place for them. -/
structure Shows (d : Document) (forest : Forest) : Prop where
  linked : d.nodes[root]? = some ⟨.fragment, none, forest.tops⟩
  stands : forest.Stands d (some root)
  distinct : (root :: forest.ids).Nodup

namespace Shows

variable {d : Document} {forest : Forest}

/-- The root has the topmost nodes as its children. -/
theorem children (shows : d.Shows forest) : d.children root = forest.tops := by
  rw [Document.children, shows.linked]

/-- With the root above it the forest is one tree. -/
theorem whole (shows : d.Shows forest) : (Forest.cons root .fragment forest .nil).Stands d none :=
  ⟨shows.linked, shows.stands, trivial⟩

/-- The nodes of that tree are different. -/
theorem nodup_whole (shows : d.Shows forest) :
    (Forest.cons root .fragment forest .nil).ids.Nodup := by
  simpa [Forest.ids] using shows.distinct

/-- The root is one more node than those below it. -/
theorem length_lt (shows : d.Shows forest) : forest.ids.length < d.size := by
  have bound := shows.whole.length_le shows.nodup_whole
  simp only [Forest.ids, List.length_cons, List.append_nil] at bound
  omega

/-- The nodes below the root are visited in order. -/
theorem descendants (shows : d.Shows forest) : d.descendants root = forest.ids :=
  shows.whole.descendants (List.nodup_cons.mp shows.distinct).2

/-- The document is written as the trees of the forest. -/
theorem markup (shows : d.Shows forest) : d.markup = writeAll forest.trees := by
  have bound := shows.length_lt
  obtain ⟨fuel, enough⟩ : ∃ n, d.size = n + 1 := ⟨d.size - 1, by omega⟩
  rw [Document.markup, inner, tree, enough, treeTo, shows.children,
    shows.stands.treeTo (by omega)]
  rfl

end Shows

end Document

namespace Forest

/-- From every node of a forest below an attached node there is a way up to the root. -/
theorem Stands.leads {d : Document} {parent : NodeId} {above : List NodeId} {forest : Forest}
    (stands : forest.Stands d (some parent)) (leads : d.Leads parent above) {id : NodeId}
    (listed : id ∈ forest.ids) :
    ∃ way, d.Leads id way ∧ way.length ≤ above.length + forest.ids.length := by
  -- The way up from a node below the first one goes through the first one.
  induction forest generalizing parent above with
  | nil => cases listed
  | cons first content below rest ihBelow ihRest =>
    obtain ⟨node, standsBelow, standsRest⟩ := stands
    have up := Document.parent?_eq node
    simp only [ids, List.length_cons, List.length_append]
    obtain rfl | listed := List.mem_cons.mp listed
    · exact ⟨parent :: above, ⟨up, leads⟩, by simp only [List.length_cons]; omega⟩
    obtain listed | listed := List.mem_append.mp listed
    · have longer : d.Leads first (parent :: above) := ⟨up, leads⟩
      obtain ⟨way, found, short⟩ := ihBelow standsBelow longer listed
      simp only [List.length_cons] at short
      exact ⟨way, found, by omega⟩
    · obtain ⟨way, found, short⟩ := ihRest standsRest leads listed
      exact ⟨way, found, by omega⟩

end Forest

namespace Document

/-- The nodes of the forest are attached. -/
theorem Shows.isAttached {d : Document} {forest : Forest} (shows : d.Shows forest) {id : NodeId}
    (listed : id ∈ forest.ids) : d.isAttached id = true := by
  have bound := shows.length_lt
  have top : d.Leads root [] := rfl
  obtain ⟨way, leads, short⟩ := shows.stands.leads top listed
  simp only [List.length_nil] at short
  exact leads.climbs (by omega)

/-- The nodes of a forest without a place are not attached if the root is not among them. -/
theorem isAttached_eq_false {d : Document} {forest : Forest} (stands : forest.Stands d none)
    (noRoot : root ∉ forest.ids) {id : NodeId} (listed : id ∈ forest.ids) :
    d.isAttached id = false := by
  -- The way up from a node goes through other nodes of the forest until there is none above.
  have stuck (fuel : Nat) : ∀ id ∈ forest.ids, d.climbs fuel id = false := by
    induction fuel with
    | zero => exact fun _ _ => rfl
    | succ fuel ih =>
      intro id listed
      have other : id ≠ root := ne_of_mem_of_not_mem listed noRoot
      obtain up | ⟨above, within, up⟩ := stands.parent? listed
      · simp [climbs, other, up]
      · simp [climbs, other, up, ih above within]
  exact stuck (d.size + 1) id listed

end Document

end Templates.Markup

import Templates.Proofs.Markup.Links

/-!
Walks down and up through a document with the links of trees.

Main statements: the nodes that are walked through below a node are those from which the way up
comes to it, each once, and a node is in the tree exactly if its way up comes to the root. Every node
is the top of a tree that stands there, so that all that is read off a node is told by a forest.
-/

namespace Templates.Markup.Document

variable {d : Document}

/-- None of several nodes is another one of them or below it. -/
def Apart (d : Document) (ids : List NodeId) : Prop :=
  ids.Pairwise fun first second => ¬ d.Under first second ∧ ¬ d.Under second first

namespace WellLinked

/-- A node is another one exactly if it is below none of its children, and else it is below
one of them. -/
theorem under_iff (linked : d.WellLinked) {top id : NodeId} :
    d.Under top id ↔ id = top ∨ ∃ child ∈ d.children top, d.Under child id := by
  constructor
  · intro under
    -- The last step of the way up comes from a child.
    rcases Relation.ReflTransGen.cases_tail under with same | ⟨child, below, up⟩
    · exact .inl same.symm
    · exact .inr ⟨child, (linked.agree top child).mp up, below⟩
  · rintro (rfl | ⟨child, listed, below⟩)
    · exact .refl
    · exact .tail below ((linked.agree top child).mpr listed)

/-- No node is below one of its children. -/
theorem not_under_child (linked : d.WellLinked) {top child : NodeId}
    (listed : child ∈ d.children top) : ¬ d.Under child top := by
  intro under
  have up : d.Up child top := (linked.agree top child).mpr listed
  exact linked.not_transGen child (.head' up under)

/-- A node that is below another one, and not that one itself, is below the node right above it. -/
theorem under_parent (linked : d.WellLinked) {top parent child : NodeId}
    (listed : child ∈ d.children parent) (under : d.Under top child) :
    child = top ∨ d.Under top parent := by
  rcases Relation.ReflTransGen.cases_head under with same | ⟨next, up, below⟩
  · exact .inl same
  · -- There is one node right above it only.
    have same : d.parent? child = some next := up
    rw [(linked.agree parent child).mpr listed] at same
    obtain rfl := Option.some.inj same
    exact .inr below

/-- In place of a node its children are apart from the others, and from each other. -/
theorem apart_children (linked : d.WellLinked) {id : NodeId} {pending : List NodeId}
    (apart : d.Apart (id :: pending)) : d.Apart (d.children id ++ pending) := by
  obtain ⟨own, others⟩ := List.pairwise_cons.mp apart
  refine List.pairwise_append.mpr ⟨?_, others, fun child listed other waiting => ?_⟩
  · -- A child below another child would have the node above it below that other child.
    have siblings {first second : NodeId} (one : first ∈ d.children id)
        (two : second ∈ d.children id) (different : first ≠ second) : ¬ d.Under first second := by
      intro under
      rcases linked.under_parent two under with same | above
      · exact different same.symm
      · exact linked.not_under_child one above
    apply (linked.once id).imp_of_mem
    intro first second one two different
    exact ⟨siblings one two different, siblings two one different.symm⟩
  · have up : d.Under id child := .single ((linked.agree id child).mpr listed)
    constructor
    · intro under
      exact (own other waiting).1 (under.trans up)
    · intro under
      rcases linked.under_parent listed under with same | above
      · exact (own other waiting).1 (same ▸ up)
      · exact (own other waiting).2 above

/-- Every node that a walk meets is at one of the nodes to visit or below it. -/
theorem under_of_mem_visit (linked : d.WellLinked) {fuel : Nat} {pending : List NodeId}
    {id : NodeId} (met : id ∈ d.visit fuel pending) : ∃ top ∈ pending, d.Under top id := by
  induction fuel generalizing pending with
  | zero => simp [visit] at met
  | succ fuel ih =>
    cases pending with
    | nil => simp [visit] at met
    | cons first pending =>
      rw [visit] at met
      rcases List.mem_cons.mp met with rfl | later
      · exact ⟨id, List.mem_cons_self, .refl⟩
      · obtain ⟨top, listed, under⟩ := ih later
        rcases List.mem_append.mp listed with child | waiting
        · -- What is below a child is below the node.
          exact ⟨first, List.mem_cons_self, linked.under_iff.mpr (.inr ⟨top, child, under⟩)⟩
        · exact ⟨top, List.mem_cons_of_mem _ waiting, under⟩

/-- A walk from nodes that are apart meets no node twice. -/
theorem nodup_visit (linked : d.WellLinked) {fuel : Nat} {pending : List NodeId}
    (apart : d.Apart pending) : (d.visit fuel pending).Nodup := by
  induction fuel generalizing pending with
  | zero => exact List.nodup_nil
  | succ fuel ih =>
    cases pending with
    | nil => exact List.nodup_nil
    | cons first pending =>
      rw [visit]
      refine List.nodup_cons.mpr ⟨fun again => ?_, ih (linked.apart_children apart)⟩
      -- The node is neither below its children nor below the others.
      obtain ⟨top, listed, under⟩ := linked.under_of_mem_visit again
      rcases List.mem_append.mp listed with child | waiting
      · exact linked.not_under_child child under
      · exact ((List.pairwise_cons.mp apart).1 top waiting).2 under

/-- A walk takes all the steps it may, or else it meets all nodes at those to visit and below. -/
theorem mem_visit_or_length (linked : d.WellLinked) (fuel : Nat) (pending : List NodeId) :
    (d.visit fuel pending).length = fuel ∨
      ∀ top ∈ pending, ∀ id, d.Under top id → id ∈ d.visit fuel pending := by
  induction fuel generalizing pending with
  | zero => exact .inl rfl
  | succ fuel ih =>
    cases pending with
    | nil => exact .inr fun top listed => nomatch listed
    | cons first pending =>
      rw [visit, List.length_cons]
      rcases ih (d.children first ++ pending) with long | all
      · exact .inl (congrArg (· + 1) long)
      · right
        intro top listed id under
        rcases List.mem_cons.mp listed with rfl | waiting
        · rcases linked.under_iff.mp under with rfl | ⟨child, below, under⟩
          · exact List.mem_cons_self
          · exact List.mem_cons_of_mem _ (all child (List.mem_append_left _ below) id under)
        · exact List.mem_cons_of_mem _ (all top (List.mem_append_right _ waiting) id under)

/-- A node that is at another one or below it is in the document if that one is. -/
theorem lt_size_of_under {top id : NodeId} (there : top < d.size) (under : d.Under top id) :
    id < d.size := by
  rcases Relation.ReflTransGen.cases_head under with same | ⟨next, up, _⟩
  · exact same ▸ there
  · exact lt_size_of_parent? up

/-- With its descendants a node is in a list of all nodes of its subtree, each once. -/
theorem nodup_descendants (linked : d.WellLinked) (id : NodeId) :
    (id :: d.descendants id).Nodup := by
  have alone : d.Apart [id] := List.pairwise_singleton _ _
  have once : (d.visit (d.size + 1) [id]).Nodup := linked.nodup_visit alone
  rwa [visit, List.append_nil] at once

/-- The nodes that are walked through below a node are those whose way up comes to it. -/
theorem mem_descendants_iff (linked : d.WellLinked) {top id : NodeId} :
    id ∈ top :: d.descendants top ↔ d.Under top id := by
  have whole : d.visit (d.size + 1) [top] = top :: d.descendants top := by
    rw [visit, List.append_nil]
    rfl
  constructor
  · intro met
    rw [← whole] at met
    obtain ⟨other, listed, under⟩ := linked.under_of_mem_visit met
    rwa [List.mem_singleton.mp listed] at under
  · intro under
    rcases linked.under_iff.mp under with rfl | ⟨child, below, underChild⟩
    · exact List.mem_cons_self
    refine List.mem_cons_of_mem _ ?_
    rcases linked.mem_visit_or_length d.size (d.children top) with long | all
    · exfalso
      -- So many different nodes would leave no number for the node itself.
      have there : top < d.size := lt_size_of_mem_children below
      have bound := length_le_of_nodup (linked.nodup_descendants top) fun other met => by
        rw [← whole] at met
        obtain ⟨first, listed, underFirst⟩ := linked.under_of_mem_visit met
        rw [List.mem_singleton.mp listed] at underFirst
        exact lt_size_of_under there underFirst
      rw [List.length_cons, descendants, long] at bound
      omega
    · exact all child below id underChild

/-- From a node that is below the root a way leads up to it on which no node is met twice. -/
theorem exists_leads (linked : d.WellLinked) {id : NodeId} (under : d.Under root id) :
    ∃ above, d.Leads id above ∧ (id :: above).Nodup ∧ ∀ x ∈ id :: above, d.Under x id := by
  induction under using Relation.ReflTransGen.head_induction_on with
  | refl =>
    refine ⟨[], rfl, by simp, fun x listed => ?_⟩
    rw [List.mem_singleton.mp listed]
    exact .refl
  | @head id parent up _ ih =>
    obtain ⟨above, leads, distinct, outer⟩ := ih
    refine ⟨parent :: above, ⟨up, leads⟩, List.nodup_cons.mpr ⟨fun again => ?_, distinct⟩, ?_⟩
    · -- The way would come back to the node it begins at.
      exact linked.not_transGen id (.head' up (outer id again))
    · intro x listed
      rcases List.mem_cons.mp listed with rfl | higher
      · exact .refl
      · exact .head up (outer x higher)

/-- A node is in the tree exactly if it is the root or below it. -/
theorem isAttached_iff (linked : d.WellLinked) {id : NodeId} :
    d.isAttached id = true ↔ d.Under root id := by
  constructor
  · intro attached
    -- Each step of the climb is one step of the way up.
    have climb (fuel : Nat) : ∀ id, d.climbs fuel id = true → d.Under root id := by
      induction fuel with
      | zero =>
        intro id attached
        cases attached
      | succ fuel ih =>
        intro id attached
        rw [climbs, Bool.or_eq_true, decide_eq_true_eq] at attached
        rcases attached with rfl | higher
        · exact .refl
        · cases up : d.parent? id with
          | none => simp [up] at higher
          | some parent =>
            rw [up] at higher
            exact .head up (ih parent higher)
    exact climb _ id attached
  · intro under
    obtain ⟨above, leads, distinct, outer⟩ := linked.exists_leads under
    apply leads.climbs
    -- All nodes above another one are in the document.
    have there : ∀ x ∈ above, x < d.size := by
      clear distinct under outer
      induction above generalizing id with
      | nil =>
        intro x listed
        cases listed
      | cons parent above ih =>
        obtain ⟨up, leads⟩ := leads
        intro x listed
        rcases List.mem_cons.mp listed with rfl | higher
        · exact lt_size_of_mem_children ((linked.agree x id).mp up)
        · exact ih leads x higher
    have bound := length_le_of_nodup (List.nodup_cons.mp distinct).2 there
    omega

end WellLinked

end Templates.Markup.Document

namespace Templates.Markup

namespace Forest

/-- The trees of a forest have as many nodes as the forest. -/
theorem sizeAll_trees (forest : Forest) : sizeAll forest.trees = forest.ids.length := by
  induction forest with
  | nil => rfl
  | cons id content below rest ihBelow ihRest =>
    simp only [trees, sizeAll, Tree.size, ihBelow, ihRest, ids, List.length_cons,
      List.length_append]
    omega

/-- Forests of the same trees have the same contents in the same order, in any documents. -/
theorem Stands.map_content {d other : Document} {parent up : Option NodeId} {forest copy : Forest}
    (stands : forest.Stands d parent) (copyStands : copy.Stands other up)
    (same : copy.trees = forest.trees) : copy.ids.map other.content = forest.ids.map d.content := by
  induction forest generalizing copy parent up with
  | nil =>
    cases copy with
    | nil => rfl
    | cons => cases same
  | cons id content below rest ihBelow ihRest =>
    cases copy with
    | nil => cases same
    | cons copyId copyContent copyBelow copyRest =>
      obtain ⟨sameTree, sameRest⟩ := List.cons.inj same
      obtain ⟨rfl, sameBelow⟩ := Tree.node.inj sameTree
      have first : other.content copyId = d.content id :=
        copyStands.content.trans stands.content.symm
      have inner := ihBelow stands.2.1 copyStands.2.1 sameBelow
      have later := ihRest stands.2.2 copyStands.2.2 sameRest
      simp only [ids, List.map_cons, List.map_append, first, inner, later]

end Forest

namespace Document.WellLinked

variable {d : Document} {id child : NodeId}

/-- Fewer nodes are below a child than below the node itself. -/
theorem length_descendants_lt (linked : d.WellLinked) (listed : child ∈ d.children id) :
    (d.descendants child).length < (d.descendants id).length := by
  have up : d.Under id child := .single ((linked.agree id child).mpr listed)
  -- The child itself is one of them, and it is not below itself.
  have within : child :: d.descendants child ⊆ d.descendants id := by
    intro x met
    have under := linked.mem_descendants_iff.mp met
    obtain rfl | inner := List.mem_cons.mp (linked.mem_descendants_iff.mpr (under.trans up))
    · exact absurd under (linked.not_under_child listed)
    · exact inner
  exact (List.subperm_of_subset (linked.nodup_descendants child) within).length_le

/-- A node in the document is the top of a tree that stands there. -/
theorem exists_stands (linked : d.WellLinked) (there : id < d.size) :
    ∃ below : Forest, (Forest.cons id (d.content id) below .nil).Stands d (d.parent? id) := by
  -- The trees of the children are smaller, and side by side they are what is below the node.
  induction count : (d.descendants id).length using Nat.strongRecOn generalizing id with
  | ind count ih =>
    subst count
    have trees (list : List NodeId) (listed : list ⊆ d.children id) :
        ∃ below : Forest, below.tops = list ∧ below.Stands d (some id) := by
      induction list with
      | nil => exact ⟨.nil, rfl, trivial⟩
      | cons child list ihList =>
        obtain ⟨first, others⟩ := List.cons_subset.mp listed
        obtain ⟨inner, stands⟩ := ih _ (linked.length_descendants_lt first)
          (linked.lt_size first).1 rfl
        rw [(linked.agree id child).mpr first] at stands
        obtain ⟨rest, tops, standsRest⟩ := ihList others
        exact ⟨.cons child (d.content child) inner rest, by rw [Forest.tops, tops],
          stands.1, stands.2.1, standsRest⟩
    obtain ⟨below, tops, stands⟩ := trees (d.children id) (List.Subset.refl _)
    refine ⟨below, ?_, stands, trivial⟩
    have node : d.nodes[id]? = some d.nodes[id] := Array.getElem?_eq_getElem there
    rw [tops, Document.content, Document.parent?, Document.children, node]
    rfl

/-- The nodes of a forest that stands in the document are different if its topmost nodes are apart. -/
theorem nodup_ids (linked : d.WellLinked) {parent : Option NodeId} {forest : Forest}
    (stands : forest.Stands d parent) (apart : d.Apart forest.tops) : forest.ids.Nodup := by
  -- They are what a walk from the topmost ones meets.
  have once : (d.visit (forest.ids.length + 0) (forest.tops ++ [])).Nodup := by
    rw [List.append_nil]
    exact linked.nodup_visit apart
  rw [stands.visit, visit, List.append_nil] at once
  exact once

end Document.WellLinked

end Templates.Markup

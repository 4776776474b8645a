import Mathlib.Data.List.Nodup
import Templates.Proofs.Markup.Links

/-!
Documents that come about by operations.

Whatever is done with a document that has been read or begun, its links are those of trees and its
nodes keep their numbers, as long as no node moves below itself.
-/

namespace Templates.Markup

/-- What may be done with a document. -/
inductive Operation where
  | create (content : Content)
  | append (parent child : NodeId)
  | insertBefore (reference child : NodeId)
  | replaceWith (id : NodeId) (replacements : List NodeId)
  | detach (id : NodeId)
  | setAttribute (a : Attribute) (id : NodeId)
  | removeAttribute (name : Text) (id : NodeId)
  | rename (name : Text) (id : NodeId)
  | setContent (content : Content) (id : NodeId)
  | importNode (other : Document) (id : NodeId)
  | importChildren (other : Document) (id : NodeId)

namespace Operation

/-- The nodes that an operation hands out, and the document after it. -/
def apply (d : Document) : Operation → List NodeId × Document
  | .create content => ([(d.create content).1], (d.create content).2)
  | .append parent child => ([], d.append parent child)
  | .insertBefore reference child => ([], d.insertBefore reference child)
  | .replaceWith id replacements => ([], d.replaceWith id replacements)
  | .detach id => ([], d.detach id)
  | .setAttribute a id => ([], d.setAttribute a id)
  | .removeAttribute name id => ([], d.removeAttribute name id)
  | .rename name id => ([], d.mapElement (fun e => { e with name := name }) id)
  | .setContent content id => ([], d.setContent content id)
  | .importNode other id => ([(d.importNode other id).1], (d.importNode other id).2)
  | .importChildren other id => d.importChildren other id

end Operation

namespace Document

/-- A node that moves in front of another one does not come below itself. -/
def MayInsert (d : Document) (reference child : NodeId) : Prop :=
  ∀ parent, d.parent? reference = some parent → ¬ d.Under child parent

/-- A node that is not met on the way up from its new place does not come below itself. -/
theorem MayInsert.of_leads {d : Document} (rooted : d.parent? root = none)
    {reference parent child : NodeId} {above : List NodeId} (up : d.parent? reference = some parent)
    (leads : d.Leads parent above) (unmet : child ∉ parent :: above) :
    d.MayInsert reference child := by
  intro other same under
  obtain rfl := Option.some.inj (up.symm.trans same)
  exact unmet (leads.mem_of_under rooted under)

/-- None of several nodes that move in front of another one, in order, comes below itself. -/
def MayInsertAll (reference : NodeId) : List NodeId → Document → Prop
  | [], _ => True
  | child :: rest, d =>
    d.MayInsert reference child ∧ MayInsertAll reference rest (d.insertBefore reference child)

end Document

/-- An operation moves nodes of the document only, and none of them below itself. -/
def Operation.Allowed (d : Document) : Operation → Prop
  | .append parent child => parent < d.size ∧ child < d.size ∧ ¬ d.Under child parent
  | .insertBefore reference child => child < d.size ∧ d.MayInsert reference child
  | .replaceWith id replacements =>
    (∀ child ∈ replacements, child < d.size) ∧ Document.MayInsertAll id replacements d
  | _ => True

/-- A document after allowed operations on another one, with the nodes they have handed out. -/
inductive History (start : Document) : List NodeId → Document → Prop
  | start : History start [] start
  | step {handed : List NodeId} {d : Document} (before : History start handed d)
      (operation : Operation) (allowed : operation.Allowed d) :
      History start (handed ++ (operation.apply d).1) (operation.apply d).2

namespace Document

/-- Nodes move in front of another one, one by one. -/
theorem WellLinked.foldl_insertBefore {d : Document} (linked : d.WellLinked) {reference : NodeId}
    {children : List NodeId} (there : ∀ child ∈ children, child < d.size)
    (apart : MayInsertAll reference children d) :
    (children.foldl (fun d child => d.insertBefore reference child) d).WellLinked := by
  induction children generalizing d with
  | nil => exact linked
  | cons child rest ih =>
    obtain ⟨childThere, restThere⟩ := List.forall_mem_cons.mp there
    refine ih (linked.insertBefore childThere apart.1) (fun other listed => ?_) apart.2
    rw [(Relinked.insertBefore reference child d).size]
    exact restThere other listed

end Document

namespace Operation

variable {d : Document} {operation : Operation}

/-- An allowed operation keeps the links of trees. -/
theorem Allowed.wellLinked (allowed : operation.Allowed d) (linked : d.WellLinked) :
    (operation.apply d).2.WellLinked := by
  cases operation with
  | create content => exact linked.create content
  | append parent child => exact linked.append allowed.1 allowed.2.1 allowed.2.2
  | insertBefore reference child => exact linked.insertBefore allowed.1 allowed.2
  | replaceWith id replacements => exact (linked.foldl_insertBefore allowed.1 allowed.2).detach id
  | detach id => exact linked.detach id
  | setAttribute a id => exact linked.mapElement _ id
  | removeAttribute name id => exact linked.mapElement _ id
  | rename name id => exact linked.mapElement _ id
  | setContent content id => exact linked.setContent content id
  | importNode other id => exact linked.importTree _
  | importChildren other id => exact linked.importTrees _

/-- No operation takes a node away. -/
theorem size_le_apply (operation : Operation) (d : Document) :
    d.size ≤ (operation.apply d).2.size := by
  cases operation with
  | create content => exact Nat.le_trans (Nat.le_succ _) (Nat.le_of_eq (Array.size_push _).symm)
  | append parent child =>
    simp only [apply, Document.append, Document.size_mapChildren, Document.size_setParent]
    exact Nat.le_of_eq (Document.Relinked.detach child d).size.symm
  | insertBefore reference child =>
    exact Nat.le_of_eq (Document.Relinked.insertBefore reference child d).size.symm
  | replaceWith id replacements =>
    exact Nat.le_of_eq (Document.Relinked.replaceWith id replacements d).size.symm
  | detach id => exact Nat.le_of_eq (Document.Relinked.detach id d).size.symm
  | setAttribute a id => exact Nat.le_of_eq (Document.size_mapElement d _).symm
  | removeAttribute name id => exact Nat.le_of_eq (Document.size_mapElement d _).symm
  | rename name id => exact Nat.le_of_eq (Document.size_mapElement d _).symm
  | setContent content id => exact Nat.le_of_eq (Document.size_setContent d content).symm
  | importNode other id =>
    obtain ⟨_, size, _⟩ := Document.importTree_stands (other.tree id) d
    exact Nat.le_trans (Nat.le_add_right _ _) (Nat.le_of_eq size.symm)
  | importChildren other id =>
    obtain ⟨_, _, _, _, _, _, grown, _⟩ := Document.importTrees_stands (other.tree id).children d
    exact grown

/-- The nodes that an operation hands out are in the document after it. -/
theorem lt_size_of_mem_apply {id : NodeId} (handed : id ∈ (operation.apply d).1) :
    id < (operation.apply d).2.size := by
  cases operation with
  | create content =>
    obtain rfl := List.mem_singleton.mp handed
    exact Nat.lt_of_lt_of_eq (Nat.lt_succ_self _) (Array.size_push _).symm
  | importNode other source =>
    obtain rfl := List.mem_singleton.mp handed
    obtain ⟨stands, _, _⟩ := Document.importTree_stands (other.tree source) d
    refine stands.lt_size ?_
    cases other.tree source with
    | node content children =>
      rw [Forest.plant]
      exact List.mem_cons_self
  | importChildren other source =>
    obtain ⟨new, tops, _, stands, _⟩ :=
      Document.importTrees_stands (other.tree source).children d
    exact stands.lt_size (Forest.mem_ids_of_mem_tops (tops ▸ handed))
  | append parent child => cases handed
  | insertBefore reference child => cases handed
  | replaceWith id replacements => cases handed
  | detach id => cases handed
  | setAttribute a id => cases handed
  | removeAttribute name id => cases handed
  | rename name id => cases handed
  | setContent content id => cases handed

end Operation

namespace History

variable {start d later : Document} {handed more : List NodeId}

/-- A history goes on where another one has ended. -/
theorem append (history : History start handed d) (onward : History d more later) :
    History start (handed ++ more) later := by
  induction onward with
  | start => rwa [List.append_nil]
  | step _ operation allowed ih =>
    rw [← List.append_assoc]
    exact .step ih operation allowed

/-- A history keeps the links of trees. -/
theorem wellLinked (history : History start handed d) (linked : start.WellLinked) :
    d.WellLinked := by
  induction history with
  | start => exact linked
  | step _ operation allowed ih => exact allowed.wellLinked ih

/-- A history takes no node away. -/
theorem size_le (history : History start handed d) : start.size ≤ d.size := by
  induction history with
  | start => exact Nat.le_refl _
  | step _ operation _ ih => exact Nat.le_trans ih (operation.size_le_apply _)

/-- The nodes that have been handed out are in the document. -/
theorem lt_size (history : History start handed d) {id : NodeId} (listed : id ∈ handed) :
    id < d.size := by
  induction history with
  | start => cases listed
  | step _ operation _ ih =>
    obtain before | now := List.mem_append.mp listed
    · exact Nat.lt_of_lt_of_le (ih before) (operation.size_le_apply _)
    · exact Operation.lt_size_of_mem_apply now

/-- An operation that hands out nothing leaves the list of the nodes handed out as it is. -/
theorem quiet (history : History start handed d) (operation : Operation)
    (silent : (operation.apply d).1 = []) (allowed : operation.Allowed d) :
    History start handed (operation.apply d).2 := by
  have longer := history.step operation allowed
  rwa [silent, List.append_nil] at longer

end History

/-- The links of a document that has been read from a source are those of trees. -/
theorem Document.wellLinked_of_parse {source : Text} {d : Document} (read : parse source = .ok d) :
    d.WellLinked := by
  obtain ⟨trees, -, rfl⟩ := exists_of_parse read
  exact .ofForest trees

/-- Whatever is done with a document that is empty or has been read, a node is above those that it
has as its children, each of which is listed once and nowhere else, and no way up comes back to
where it began. All nodes that have been there or have been handed out stay in the document. -/
theorem History.keeps_links {start d later : Document} {handed more : List NodeId}
    (begins : start = .empty ∨ ∃ source, Document.parse source = .ok start)
    (history : History start handed d) (onward : History d more later) :
    (∀ parent child, later.parent? child = some parent ↔ child ∈ later.children parent) ∧
      (∀ parent child, child ∈ later.children parent →
        (later.children parent).count child = 1 ∧
          (∀ other, child ∈ later.children other → other = parent) ∧
          child < later.size ∧ parent < later.size) ∧
      (∀ id, ¬ Relation.TransGen later.Up id id) ∧
      (∀ id ∈ handed ++ more, id < later.size) ∧
      ∀ id < d.size, id < later.size := by
  have begun : start.WellLinked := by
    obtain rfl | ⟨source, read⟩ := begins
    · exact .ofForest []
    · exact Document.wellLinked_of_parse read
  have whole := history.append onward
  have linked := whole.wellLinked begun
  refine ⟨linked.agree, fun parent child listed => ⟨?_, ?_, linked.lt_size listed⟩,
    linked.not_transGen, fun id listed => whole.lt_size listed,
    fun id there => Nat.lt_of_lt_of_le there onward.size_le⟩
  · exact List.count_eq_one_of_mem (linked.once parent) listed
  · exact fun other again => linked.unique listed again

/-- A list of two items, one of which is bare text. -/
def shortList : Document :=
  .ofForest [.node (.element ⟨"ul".toList, [], false⟩)
    [.node (.element ⟨"li".toList, [], false⟩) [.node (.text "a".toList) []],
      .node (.text "b".toList) []]]

/-- The list with the item given way to its own text and to a copy of itself, and with the bare text
put in front of itself and then into the copy. -/
def movedList : Document :=
  ((((shortList.importNode shortList 2).2.replaceWith 2 [3, 5]).insertBefore 4 4).append 5 4)

/-- Nodes take the place of the node above them, and one moves in front of itself. -/
theorem keeps_links_movedList :
    Document.parse "<ul><li>a</li>b</ul>".toList = .ok shortList ∧
    History shortList [5] movedList ∧
    movedList.children 1 = [3, 5] ∧ movedList.children 5 = [6, 4] ∧ movedList.parent? 2 = none ∧
    (∀ parent child, movedList.parent? child = some parent ↔ child ∈ movedList.children parent) ∧
    ∀ id, ¬ Relation.TransGen movedList.Up id id := by
  have read : Document.parse "<ul><li>a</li>b</ul>".toList = .ok shortList := rfl
  have handed : (shortList.importNode shortList 2).1 = 5 := rfl
  have copied : History shortList [5] (shortList.importNode shortList 2).2 := by
    rw [← handed]
    exact .step .start (.importNode shortList 2) trivial
  -- Nodes move below the list, which only the root is above, and in the end below the copy.
  have onList {d : Document} {reference child : NodeId} (rooted : d.parent? Document.root = none)
      (listed : d.parent? 1 = some Document.root) (up : d.parent? reference = some 1)
      (unmet : child ∉ [1, Document.root]) : d.MayInsert reference child := by
    have leads : d.Leads 1 [Document.root] := ⟨listed, rfl⟩
    exact .of_leads rooted up leads unmet
  have replaced : History shortList [5]
      ((shortList.importNode shortList 2).2.replaceWith 2 [3, 5]) := by
    refine copied.quiet (.replaceWith 2 [3, 5]) rfl
      ⟨?_, onList ?_ ?_ ?_ ?_, onList ?_ ?_ ?_ ?_, trivial⟩ <;> decide
  have turned : History shortList [5]
      (((shortList.importNode shortList 2).2.replaceWith 2 [3, 5]).insertBefore 4 4) := by
    refine replaced.quiet (.insertBefore 4 4) rfl ⟨?_, onList ?_ ?_ ?_ ?_⟩ <;> decide
  have moved : History shortList [5] movedList := by
    refine turned.quiet (.append 5 4) rfl ⟨by decide, by decide, fun under => ?_⟩
    have leads : (((shortList.importNode shortList 2).2.replaceWith 2 [3, 5]).insertBefore 4
        4).Leads 5 [1, Document.root] := ⟨rfl, rfl, rfl⟩
    have met : 4 ∈ [5, 1, Document.root] := leads.mem_of_under rfl under
    exact absurd met (by decide)
  have here : History movedList [] movedList := .start
  obtain ⟨agree, _, acyclic, _⟩ := History.keeps_links (.inr ⟨_, read⟩) moved here
  exact ⟨read, moved, rfl, rfl, rfl, agree, acyclic⟩

end Templates.Markup

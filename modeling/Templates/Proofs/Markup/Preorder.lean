import Mathlib.Data.List.Flatten
import Templates.Proofs.Markup.Shape
import Templates.Proofs.Markup.Subtree

/-!
Walks through a document with a stack and up its links, and the recursion on its trees.

The markup of a node is told piece by piece, each piece with the node that writes it, so that the
order of the start tags and of the texts in it can be compared with the order of a walk. Main
statement: the walks end, and a walk down meets the nodes in the order of the recursion, which is
that of the markup; only what is below a text, a comment or a doctype is met without being written.
-/

namespace Templates.Markup

/-! ### Loops -/

namespace Document

/-- The walk with a stack: the first node is taken off and met, and those right below it are put in
front of the others. It ends when the stack is empty. -/
inductive Walks (d : Document) : List NodeId → List NodeId → Prop
  | done : d.Walks [] []
  | step {id : NodeId} {pending met : List NodeId} :
    d.Walks (d.children id ++ pending) met → d.Walks (id :: pending) (id :: met)

/-- The way up, node by node, until the root is met or nothing is above a node. -/
inductive Climbs (d : Document) : NodeId → Bool → Prop
  | root : d.Climbs root true
  | up {id parent : NodeId} {answer : Bool} :
    id ≠ root → d.parent? id = some parent → d.Climbs parent answer → d.Climbs id answer
  | loose {id : NodeId} : id ≠ root → d.parent? id = none → d.Climbs id false

end Document

namespace Document.WellLinked

variable {d : Document} {id : NodeId}

/-- What holds of a node if it holds of its children holds of all nodes. -/
theorem child_induction (linked : d.WellLinked) {motive : NodeId → Prop}
    (step : ∀ id, (∀ child ∈ d.children id, motive child) → motive id) (id : NodeId) :
    motive id := by
  induction count : (d.descendants id).length using Nat.strongRecOn generalizing id with
  | ind count ih =>
    -- Fewer nodes are below a child than below the node.
    subst count
    exact step id fun child listed => ih _ (linked.length_descendants_lt listed) child rfl

/-- The nodes below a node are its children, each in front of those below it. -/
theorem descendants_eq (linked : d.WellLinked) (id : NodeId) :
    d.descendants id = (d.children id).flatMap fun child => child :: d.descendants child := by
  obtain there | beyond := Nat.lt_or_ge id d.size
  · -- The nodes below the node stand there as a forest, and that is walked through in order.
    obtain ⟨below, stands⟩ := linked.exists_stands there
    have alone : d.Apart [id] := List.pairwise_singleton _ _
    have distinct := (List.nodup_cons.mp (linked.nodup_ids stands alone)).2
    have distinctBelow := (List.nodup_append.mp distinct).1
    rw [stands.descendants distinctBelow, stands.children,
      stands.2.1.flatMap_descendants distinctBelow]
  · -- Where there is no node, there is nothing below.
    have childless : d.children id = [] := by
      rw [Document.children, Array.getElem?_eq_none beyond]
    rw [descendants, childless]
    cases d.size <;> rfl

/-- A node is read as a tree of the trees of its children. -/
theorem tree_eq (linked : d.WellLinked) (there : id < d.size) :
    d.tree id = .node (d.content id) ((d.children id).map d.tree) := by
  obtain ⟨below, stands⟩ := linked.exists_stands there
  have alone : d.Apart [id] := List.pairwise_singleton _ _
  have distinct := linked.nodup_ids stands alone
  have distinctBelow := (List.nodup_append.mp (List.nodup_cons.mp distinct).2).1
  have trees := stands.2.1.treeTo (stands.2.1.length_le distinctBelow)
  rw [stands.tree distinct, stands.children, ← trees]
  rfl

/-- A walk meets a node and those below it before it goes on with the others. -/
theorem walks_append (linked : d.WellLinked) (id : NodeId) :
    ∀ {pending met : List NodeId}, d.Walks pending met →
      d.Walks (id :: pending) (id :: d.descendants id ++ met) := by
  induction id using linked.child_induction with
  | step id ih =>
    intro pending met walks
    -- The walk goes on behind the last child, so the list of children is built up from its end.
    have children (list : List NodeId) (listed : list ⊆ d.children id) :
        d.Walks (list ++ pending)
          ((list.flatMap fun child => child :: d.descendants child) ++ met) := by
      induction list with
      | nil => exact walks
      | cons child list ihList =>
        obtain ⟨first, others⟩ := List.cons_subset.mp listed
        have whole := ih child first (ihList others)
        rw [← List.append_assoc] at whole
        rwa [List.flatMap_cons]
    rw [List.cons_append, linked.descendants_eq]
    exact .step (children _ (List.Subset.refl _))

/-- The walk from the children of a node ends, with the nodes below it. -/
theorem walks_descendants (linked : d.WellLinked) (id : NodeId) :
    d.Walks (d.children id) (d.descendants id) := by
  have whole := linked.walks_append id .done
  rw [List.append_nil] at whole
  cases whole with
  | step walks => rwa [List.append_nil] at walks

/-- The way up from a node ends, and the answer is whether the node is in the tree. -/
theorem climbs_isAttached (linked : d.WellLinked) (id : NodeId) :
    d.Climbs id (d.isAttached id) := by
  -- No way up is infinite, which is an induction from the parent to the node.
  induction linked.ends id with
  | intro id _ ih =>
    by_cases top : id = root
    · -- The way is at its end, and so is the node in the tree.
      have attached : d.isAttached id = true := linked.isAttached_iff.mpr (top ▸ .refl)
      rw [attached, top]
      exact .root
    · cases up : d.parent? id with
      | none =>
        -- A way to the root would begin with a step upwards.
        have loose : d.isAttached id = false := by
          rw [Bool.eq_false_iff, ne_eq, linked.isAttached_iff]
          intro under
          obtain same | ⟨parent, other, _⟩ := Relation.ReflTransGen.cases_head under
          · exact top same
          · cases up.symm.trans other
        rw [loose]
        exact .loose top up
      | some parent =>
        -- The only step upwards is that to the parent.
        have same : d.isAttached id = d.isAttached parent := by
          rw [Bool.eq_iff_iff, linked.isAttached_iff, linked.isAttached_iff]
          refine ⟨fun under => ?_, .head up⟩
          obtain same | ⟨next, other, under⟩ := Relation.ReflTransGen.cases_head under
          · exact absurd same top
          · rwa [Option.some.inj (up.symm.trans other)]
        rw [same]
        exact .up top up (ih parent up)

end Document.WellLinked

/-! ### Pieces of markup -/

/-- What a node writes in front of what is below it, or behind that. -/
inductive Piece where
  | opening (id : NodeId) (text : Text)
  | closing (id : NodeId) (text : Text)
deriving DecidableEq, Repr

namespace Piece

/-- The characters of a piece. -/
def text : Piece → Text
  | opening _ text => text
  | closing _ text => text

/-- The node that begins with a piece. -/
def opened? : Piece → Option NodeId
  | opening id _ => some id
  | closing _ _ => none

end Piece

/-- The nodes that are written, in the order in which they begin: elements with their start tags,
texts and comments with all that they write. -/
def opened (pieces : List Piece) : List NodeId :=
  pieces.filterMap Piece.opened?

namespace Content

/-- Whether what is below a node is left out of its markup. -/
def isLeaf : Content → Bool
  | .text _ | .comment _ | .doctype _ => true
  | .fragment | .element _ => false

/-- What is written in front of what is below a node. -/
def opening (childless : Bool) : Content → Text
  | .fragment => []
  | .text body => body
  | .comment body => "<!--".toList ++ body ++ "-->".toList
  | .doctype body => "<!".toList ++ body ++ ['>']
  | .element e => writeStart e ++ if e.selfClosing && childless then "/>".toList else ['>']

/-- What is written behind what is below a node. -/
def closing (childless : Bool) : Content → Text
  | .element e =>
    if (e.selfClosing || isVoid e.name) && childless then [] else "</".toList ++ e.name ++ ['>']
  | _ => []

/-- A tree is written as its two ends with what is below it in between. -/
theorem write_eq (content : Content) (children : List Tree) :
    write (.node content children) = content.opening children.isEmpty ++
      ((if content.isLeaf then [] else writeAll children) ++ content.closing children.isEmpty) := by
  cases content with
  | fragment => simp [write, opening, closing, isLeaf]
  | text body => simp [write, opening, closing, isLeaf]
  | comment body => simp [write, opening, closing, isLeaf]
  | doctype body => simp [write, opening, closing, isLeaf]
  | element e =>
    cases children with
    | nil =>
      cases short : e.selfClosing <;> cases void : isVoid e.name <;>
        simp [write, opening, closing, isLeaf, short, void, writeAll]
    | cons tree rest => simp [write, opening, closing, isLeaf]

end Content

namespace Document

/-- The trees of several nodes are written one after the other. -/
theorem writeAll_map (d : Document) (list : List NodeId) :
    writeAll (list.map d.tree) = list.flatMap d.outer := by
  induction list with
  | nil => rfl
  | cons id list ih =>
    rw [List.map_cons, writeAll, ih]
    rfl

/-- The pieces of the markup of a node; the first argument bounds the depth. -/
def piecesTo (d : Document) : Nat → NodeId → List Piece
  | 0, _ => []
  | fuel + 1, id =>
    .opening id ((d.content id).opening (d.children id).isEmpty) ::
      ((if (d.content id).isLeaf then [] else (d.children id).flatMap (piecesTo d fuel)) ++
        [.closing id ((d.content id).closing (d.children id).isEmpty)])

/-- The pieces of the markup of a node. -/
def pieces (d : Document) (id : NodeId) : List Piece :=
  d.piecesTo d.size id

/-- The pieces of the markup of what is below a node. -/
def innerPieces (d : Document) (id : NodeId) : List Piece :=
  (d.children id).flatMap d.pieces

/-- A node is left out of markup with several nodes: one of them is a text, a comment or a doctype
that the node is below. -/
def LeftOut (d : Document) (ids : List NodeId) (x : NodeId) : Prop :=
  ∃ leaf ∈ ids, (d.content leaf).isLeaf = true ∧ x ∈ d.descendants leaf

namespace WellLinked

variable {d : Document} {id : NodeId}

/-- The pieces of a node do not depend on the bound, if it is large enough. -/
theorem piecesTo_eq (linked : d.WellLinked) (id : NodeId) :
    ∀ {fuel : Nat}, (d.descendants id).length < fuel →
      d.piecesTo fuel id = d.piecesTo ((d.descendants id).length + 1) id := by
  induction id using linked.child_induction with
  | step id ih =>
    intro fuel enough
    obtain ⟨fuel, rfl⟩ : ∃ n, fuel = n + 1 := ⟨fuel - 1, by omega⟩
    -- Each of the two bounds is large enough for the children too.
    have same : (d.children id).flatMap (d.piecesTo fuel) =
        (d.children id).flatMap (d.piecesTo (d.descendants id).length) := by
      refine List.flatMap_congr fun child listed => ?_
      have fewer := linked.length_descendants_lt listed
      rw [ih child listed fewer, ih child listed (by omega)]
    rw [piecesTo, piecesTo, same]

/-- Fewer nodes are below a node than there are in the document. -/
theorem length_descendants_lt_size (linked : d.WellLinked) (there : id < d.size) :
    (d.descendants id).length < d.size := by
  have bound := length_le_of_nodup (linked.nodup_descendants id) fun x met =>
    lt_size_of_under there (linked.mem_descendants_iff.mp met)
  exact bound

/-- Between the two ends of a node its children are written, one after the other. -/
theorem pieces_eq (linked : d.WellLinked) (there : id < d.size) :
    d.pieces id = .opening id ((d.content id).opening (d.children id).isEmpty) ::
      ((if (d.content id).isLeaf then [] else d.innerPieces id) ++
        [.closing id ((d.content id).closing (d.children id).isEmpty)]) := by
  have children : (d.children id).flatMap (d.piecesTo (d.descendants id).length) =
      d.innerPieces id := by
    refine List.flatMap_congr fun child listed => ?_
    rw [linked.piecesTo_eq child (linked.length_descendants_lt listed), pieces,
      linked.piecesTo_eq child (linked.length_descendants_lt_size (linked.lt_size listed).1)]
  rw [pieces, linked.piecesTo_eq id (linked.length_descendants_lt_size there), piecesTo, children]

/-- The pieces of several nodes make up what is written of their trees. -/
theorem text_pieces (linked : d.WellLinked) (there : id < d.size) :
    (d.pieces id).flatMap Piece.text = d.outer id := by
  induction id using linked.child_induction with
  | step id ih =>
    have children : (d.innerPieces id).flatMap Piece.text =
        writeAll ((d.children id).map d.tree) := by
      rw [innerPieces, List.flatMap_assoc, writeAll_map]
      exact List.flatMap_congr fun child listed => ih child listed (linked.lt_size listed).1
    rw [linked.pieces_eq there, outer, linked.tree_eq there, Content.write_eq, List.isEmpty_map,
      ← children]
    -- A leaf has its own ends only.
    split <;> simp [Piece.text]

/-- A node is opened first, and those below it unless they are left out. -/
theorem opened_pieces (linked : d.WellLinked) (there : id < d.size) :
    opened (d.pieces id) =
      id :: if (d.content id).isLeaf then [] else opened (d.innerPieces id) := by
  rw [linked.pieces_eq there]
  cases (d.content id).isLeaf <;> simp [opened, Piece.opened?]

/-- The nodes that are written are opened in the order in which a walk meets them. -/
theorem opened_sublist (linked : d.WellLinked) (there : id < d.size) :
    (opened (d.pieces id)).Sublist (id :: d.descendants id) := by
  induction id using linked.child_induction with
  | step id ih =>
    rw [linked.opened_pieces there, linked.descendants_eq]
    refine List.Sublist.cons_cons id ?_
    -- Nothing below a leaf is opened, and child by child the order is that of the walk.
    split
    · exact List.nil_sublist _
    · rw [opened, innerPieces, List.filterMap_flatMap]
      exact .flatMap_right _ fun child listed => ih child listed (linked.lt_size listed).1

/-- Of two nodes that another one is below, one is below the other. -/
theorem under_total {top other x : NodeId} (first : d.Under top x) (second : d.Under other x) :
    d.Under top other ∨ d.Under other top := by
  have unique : Relator.RightUnique d.Up := fun _ _ _ one two =>
    Option.some.inj (one.symm.trans two)
  exact (Relation.ReflTransGen.total_of_right_unique unique first second).symm

/-- A node is below one child only. -/
theorem child_unique (linked : d.WellLinked) {child other x : NodeId}
    (listed : child ∈ d.children id) (again : other ∈ d.children id) (first : d.Under child x)
    (second : d.Under other x) : child = other := by
  -- One of them would be below the other, and so below the node with a child in between.
  obtain under | under := under_total first second
  · obtain same | above := linked.under_parent again under
    · exact same.symm
    · exact absurd above (linked.not_under_child listed)
  · obtain same | above := linked.under_parent listed under
    · exact same
    · exact absurd above (linked.not_under_child again)

/-- The nodes below a node are those with a way up to it of at least one step. -/
theorem mem_descendants (linked : d.WellLinked) {x : NodeId} :
    x ∈ d.descendants id ↔ Relation.TransGen d.Up x id := by
  constructor
  · intro met
    -- A way of no step would lead to the node itself, which is not below itself.
    have under := linked.mem_descendants_iff.mp (List.mem_cons_of_mem id met)
    obtain rfl | steps := Relation.reflTransGen_iff_eq_or_transGen.mp under
    · exact absurd met (List.nodup_cons.mp (linked.nodup_descendants id)).1
    · exact steps
  · intro steps
    obtain rfl | met := List.mem_cons.mp (linked.mem_descendants_iff.mpr steps.to_reflTransGen)
    · exact absurd steps (linked.not_transGen x)
    · exact met

/-- What is left out below a node is left out below one of its children. -/
theorem leftOut_child (linked : d.WellLinked) {child x : NodeId} (listed : child ∈ d.children id)
    (under : d.Under child x) :
    d.LeftOut (d.descendants id) x ↔ d.LeftOut (child :: d.descendants child) x := by
  constructor
  · rintro ⟨leaf, met, isLeaf, below⟩
    -- The leaf is below a child as well, and that is the same one.
    rw [linked.descendants_eq, List.mem_flatMap] at met
    obtain ⟨other, again, met⟩ := met
    have steps := (linked.mem_descendants.mp below).to_reflTransGen
    have same := linked.child_unique listed again under
      (steps.trans (linked.mem_descendants_iff.mp met))
    exact ⟨leaf, same ▸ met, isLeaf, below⟩
  · rintro ⟨leaf, met, isLeaf, below⟩
    refine ⟨leaf, ?_, isLeaf, below⟩
    rw [linked.descendants_eq, List.mem_flatMap]
    exact ⟨child, listed, met⟩

/-- Of all nodes below a node those are written that are written of the subtree of its child. -/
theorem mem_opened_children (linked : d.WellLinked)
    (each : ∀ child ∈ d.children id, ∀ x, x ∈ opened (d.pieces child) ↔
      x ∈ child :: d.descendants child ∧ ¬ d.LeftOut (child :: d.descendants child) x)
    {x : NodeId} :
    x ∈ opened (d.innerPieces id) ↔
      x ∈ d.descendants id ∧ ¬ d.LeftOut (d.descendants id) x := by
  rw [opened, innerPieces, List.filterMap_flatMap, List.mem_flatMap]
  constructor
  · rintro ⟨child, listed, written⟩
    obtain ⟨met, shown⟩ := (each child listed x).mp written
    rw [linked.leftOut_child listed (linked.mem_descendants_iff.mp met), linked.descendants_eq,
      List.mem_flatMap]
    exact ⟨⟨child, listed, met⟩, shown⟩
  · rintro ⟨met, shown⟩
    rw [linked.descendants_eq, List.mem_flatMap] at met
    obtain ⟨child, listed, met⟩ := met
    rw [linked.leftOut_child listed (linked.mem_descendants_iff.mp met)] at shown
    exact ⟨child, listed, (each child listed x).mpr ⟨met, shown⟩⟩

/-- The nodes that are written of a subtree are all but those that are left out. -/
theorem mem_opened (linked : d.WellLinked) (there : id < d.size) (x : NodeId) :
    x ∈ opened (d.pieces id) ↔
      x ∈ id :: d.descendants id ∧ ¬ d.LeftOut (id :: d.descendants id) x := by
  induction id using linked.child_induction generalizing x with
  | step id ih =>
    have below {x : NodeId} := linked.mem_opened_children (x := x) fun child listed x =>
      ih child listed (linked.lt_size listed).1 x
    rw [linked.opened_pieces there]
    by_cases own : x = id
    · subst own
      refine ⟨fun _ => ⟨.head _, ?_⟩, fun _ => .head _⟩
      -- The node would be below itself.
      rintro ⟨leaf, met, -, under⟩
      have steps := linked.mem_descendants.mp under
      exact linked.not_transGen x (steps.trans_left (linked.mem_descendants_iff.mp met))
    · cases isLeaf : (d.content id).isLeaf with
      | true =>
        -- The node is a leaf that all others are below.
        have absent : x ∉ [id] := by simpa using own
        refine iff_of_false absent fun ⟨met, shown⟩ => shown ?_
        exact ⟨id, .head _, isLeaf, (List.mem_cons.mp met).resolve_left own⟩
      | false =>
        -- The node is no leaf, so that it leaves nothing out.
        have same : d.LeftOut (id :: d.descendants id) x ↔ d.LeftOut (d.descendants id) x := by
          simp [LeftOut, isLeaf]
        rw [if_neg Bool.false_ne_true, List.mem_cons, List.mem_cons, below, same]
        simp [own]

/-- The nodes that are written of all subtrees below a node are all but those that are left out. -/
theorem mem_opened_below (linked : d.WellLinked) (id x : NodeId) :
    x ∈ opened (d.innerPieces id) ↔
      x ∈ d.descendants id ∧ ¬ d.LeftOut (d.descendants id) x :=
  linked.mem_opened_children fun _ listed x => linked.mem_opened (linked.lt_size listed).1 x

end WellLinked

/-! ### Walks and markup -/

/-- A walk meets nodes in the order in which the pieces of some markup begin with them. -/
structure Writes (d : Document) (markup : Text) (pieces : List Piece) (met : List NodeId) :
    Prop where
  /-- The pieces make up the markup. -/
  text : pieces.flatMap Piece.text = markup
  /-- The nodes that are written are met in the order in which they are written. -/
  order : (opened pieces).Sublist met
  /-- All nodes are written but those that are left out. -/
  written : ∀ x, x ∈ opened pieces ↔ x ∈ met ∧ ¬ d.LeftOut met x

/-- A document in which the root and elements have nodes below them and no other node has. -/
structure Proper (d : Document) : Prop where
  /-- The root is nothing but the top of all other nodes. -/
  rooted : d.content root = .fragment
  /-- Nothing is below a text, a comment or a doctype. -/
  leaves : ∀ x, (d.content x).isLeaf = true → d.children x = []

/-- Nothing is left out of the markup of a proper document. -/
theorem Writes.opened_eq {d : Document} {markup : Text} {pieces : List Piece} {met : List NodeId}
    (writes : d.Writes markup pieces met) (linked : d.WellLinked) (proper : d.Proper)
    (distinct : met.Nodup) : opened pieces = met := by
  -- What is met without being written would be below a leaf, and nothing is.
  have whole : met ⊆ opened pieces := by
    intro x listed
    refine (writes.written x).mpr ⟨listed, ?_⟩
    rintro ⟨leaf, -, isLeaf, below⟩
    rw [linked.descendants_eq, proper.leaves leaf isLeaf] at below
    cases below
  exact writes.order.eq_of_length_le (List.subperm_of_subset distinct whole).length_le

end Document

/-- Nothing is below a formed text, comment or doctype. -/
theorem Tree.Formed.childless {content : Content} {children : List Tree}
    (formed : (Tree.node content children).Formed) (isLeaf : content.isLeaf = true) :
    children = [] := by
  cases content with
  | fragment => cases isLeaf
  | text text => exact formed.2
  | comment text => exact formed.2
  | doctype text => exact formed.2.2
  | element e => cases isLeaf

/-- Nothing is below the texts, the comments and the doctypes of a formed forest. -/
theorem Forest.Stands.leaves {d : Document} {parent : Option NodeId} {forest : Forest}
    (stands : forest.Stands d parent) (formed : FormedAll forest.trees) {id : NodeId}
    (listed : id ∈ forest.ids) (isLeaf : (d.content id).isLeaf = true) : d.children id = [] := by
  induction forest generalizing parent with
  | nil => cases listed
  | cons first content below rest ihBelow ihRest =>
    obtain ⟨tree, _, others⟩ := formed
    obtain rfl | listed := List.mem_cons.mp listed
    · -- The trees below the node are its children.
      rw [stands.content] at isLeaf
      rw [stands.children, tops_eq_nil (tree.childless isLeaf)]
    · obtain listed | listed := List.mem_append.mp listed
      · exact ihBelow stands.2.1 tree.children listed
      · exact ihRest stands.2.2 others listed

namespace Document

/-- A document made of formed trees is proper. -/
theorem Proper.ofForest {trees : List Tree} (formed : FormedAll trees) :
    (ofForest trees).Proper := by
  refine ⟨rfl, fun x isLeaf => ?_⟩
  obtain there | beyond := Nat.lt_or_ge x (Document.ofForest trees).size
  · obtain rfl | listed := eq_root_or_mem_ids there
    · -- The root is a fragment, and that is no leaf.
      cases isLeaf
    · have planted : FormedAll (Forest.plant 1 trees).trees := by
        rw [Forest.trees_plant]
        exact formed
      exact (shows_ofForest trees).stands.leaves planted listed isLeaf
  · rw [children, Array.getElem?_eq_none beyond]

/-- A document that is read from markup is proper. -/
theorem Proper.of_parse {source : Text} {d : Document} (read : parse source = .ok d) :
    d.Proper := by
  obtain ⟨_, parsed, rfl⟩ := exists_of_parse read
  exact .ofForest (formedAll_of_parse parsed)

namespace WellLinked

variable {d : Document} {id : NodeId}

/-- The markup of a node begins with the node, and goes on with those below it in order. -/
theorem writes_outer (linked : d.WellLinked) (there : id < d.size) :
    d.Writes (d.outer id) (d.pieces id) (id :: d.descendants id) :=
  ⟨linked.text_pieces there, linked.opened_sublist there, linked.mem_opened there⟩

/-- The markup of what is below a node is that of its children, in order. -/
theorem writes_inner (linked : d.WellLinked) (there : id < d.size) :
    d.Writes (d.inner id) (d.innerPieces id) (d.descendants id) := by
  refine ⟨?_, ?_, linked.mem_opened_below id⟩
  · rw [inner, linked.tree_eq there, Tree.children, writeAll_map, innerPieces,
      List.flatMap_assoc]
    exact List.flatMap_congr fun child listed => linked.text_pieces (linked.lt_size listed).1
  · rw [linked.descendants_eq, opened, innerPieces, List.filterMap_flatMap]
    exact .flatMap_right _ fun child listed => linked.opened_sublist (linked.lt_size listed).1

/-- A node is in the tree if it is the root or the walk from the root meets it. -/
theorem isAttached_iff_met (linked : d.WellLinked) :
    d.isAttached id = true ↔ id = root ∨ id ∈ d.descendants root := by
  rw [linked.isAttached_iff, ← linked.mem_descendants_iff, List.mem_cons]

/-- The elements that are found are those in the tree that satisfy the condition, besides the root.
-/
theorem mem_findElements (linked : d.WellLinked) (condition : Element → Bool) (x : NodeId) :
    x ∈ d.findElements condition ↔
      x ≠ root ∧ d.isAttached x = true ∧ ∃ e, d.element? x = some e ∧ condition e = true := by
  have apart : x ∈ d.descendants root → x ≠ root := by
    rintro met rfl
    exact (List.nodup_cons.mp (linked.nodup_descendants root)).1 met
  rw [findElements, List.mem_filter, linked.isAttached_iff_met, Option.any_eq_true]
  constructor
  · exact fun ⟨met, found⟩ => ⟨apart met, .inr met, found⟩
  · exact fun ⟨other, attached, found⟩ => ⟨attached.resolve_left other, found⟩

end WellLinked

/-- The elements that are found in a document. -/
structure Finds (d : Document) (condition : Element → Bool) : Prop where
  /-- Elements are found if they are in the tree and satisfy the condition, except for the root. -/
  found : ∀ x, x ∈ d.findElements condition ↔
    x ≠ root ∧ d.isAttached x = true ∧ ∃ e, d.element? x = some e ∧ condition e = true
  /-- No element is found twice. -/
  once : (d.findElements condition).Nodup
  /-- Those that are written are found in the order of their start tags. -/
  order : ((opened (d.innerPieces root)).filter fun x => (d.element? x).any condition).Sublist
    (d.findElements condition)
  /-- In a proper document the root is no exception. -/
  properFound : d.Proper → ∀ x, x ∈ d.findElements condition ↔
    d.isAttached x = true ∧ ∃ e, d.element? x = some e ∧ condition e = true
  /-- In a proper document the order of the start tags is that of all. -/
  properOrder : d.Proper → d.findElements condition =
    (opened (d.innerPieces root)).filter fun x => (d.element? x).any condition

/-- What the walks from a node tell. -/
structure Traversed (d : Document) (id : NodeId) : Prop where
  /-- The walk with a stack ends. -/
  down : d.Walks (d.children id) (d.descendants id)
  /-- It meets the children of the node in order, each in front of those below it. -/
  preorder : d.descendants id = (d.children id).flatMap fun child => child :: d.descendants child
  /-- It meets no node twice. -/
  once : (d.descendants id).Nodup
  /-- It meets the nodes with a way up to the node of at least one step. -/
  below : ∀ x, x ∈ d.descendants id ↔ Relation.TransGen d.Up x id
  /-- The way up ends. -/
  up : d.Climbs id (d.isAttached id)
  /-- It leads from the root and from what the walk from the root meets to the root. -/
  attached : d.isAttached id = true ↔ id = root ∨ id ∈ d.descendants root
  /-- The walk from the root is in the order of the markup of the document. -/
  page : d.Writes d.markup (d.innerPieces root) (d.descendants root)
  /-- What is found on it are the elements in the tree, in the order of their start tags. -/
  finds : ∀ condition, d.Finds condition
  /-- The node and the walk from it are in the order of the markup of the node. -/
  outer : d.Writes (d.outer id) (d.pieces id) (id :: d.descendants id)
  /-- The text of the node is all text that is met. -/
  text : d.text id = (id :: d.descendants id).flatMap d.ownText
  /-- In a proper document that is the text that is written, in order. -/
  properText : d.Proper → d.text id = (opened (d.pieces id)).flatMap d.ownText

/-- What is found in a document is found in the order of its markup. -/
theorem WellLinked.finds {d : Document} (linked : d.WellLinked) (rooted : root < d.size)
    (condition : Element → Bool) : d.Finds condition := by
  have page := linked.writes_inner rooted
  have distinct := (List.nodup_cons.mp (linked.nodup_descendants root)).2
  refine ⟨linked.mem_findElements condition, distinct.filter _, page.order.filter _,
    fun proper x => ?_, fun proper => ?_⟩
  · rw [linked.mem_findElements]
    refine ⟨And.right, fun found => ⟨?_, found⟩⟩
    -- The root of a proper document is no element.
    rintro rfl
    obtain ⟨-, e, own, -⟩ := found
    rw [element?, proper.rooted] at own
    cases own
  · rw [page.opened_eq linked proper distinct, findElements]

/-- Walks with a stack and up the links agree with the recursion on the trees of a document, from
any node. They end. The walk down meets all nodes below the node once, each in front of those below
it; the way up tells whether the node is the root or met from there. The elements that are found are
all in the tree that satisfy a condition, in the order of their start tags in the markup of the
document, and the text of a node is that of all nodes of its subtree in the order of its markup.
What is below a text, a comment or a doctype is met but not written; in a proper document there is
nothing of the kind. -/
theorem traversals_agree {d : Document} (linked : d.WellLinked) {id : NodeId}
    (there : id < d.size) : d.Traversed id := by
  have rooted : root < d.size := Nat.lt_of_le_of_lt (Nat.zero_le id) there
  have node := linked.writes_outer there
  have distinct := linked.nodup_descendants id
  exact {
    down := linked.walks_descendants id
    preorder := linked.descendants_eq id
    once := (List.nodup_cons.mp distinct).2
    below := fun _ => linked.mem_descendants
    up := linked.climbs_isAttached id
    attached := linked.isAttached_iff_met
    page := linked.writes_inner rooted
    finds := linked.finds rooted
    outer := node
    text := rfl
    properText := fun proper => by
      rw [node.opened_eq linked proper distinct]
      rfl }

/-- A list with an item and a comment. -/
def commentedList : Document :=
  .ofForest [.node (.element ⟨"ul".toList, [], false⟩)
    [.node (.element ⟨"li".toList, [], false⟩) [.node (.text "a".toList) []],
      .node (.comment "b".toList) []]]

/-- The list with one more item, which is put below the comment. -/
def hiddenItem : Document :=
  ((commentedList.importTree (.node (.element ⟨"li".toList, [], false⟩)
    [.node (.text "c".toList) []])).2.append 4 5)

/-- The item below the comment is met and found, and its text is read, but it is not written. -/
theorem traversals_hiddenItem :
    Document.parse "<ul><li>a</li><!--b--></ul>".toList = .ok commentedList ∧
    commentedList.Proper ∧ commentedList.Traversed 1 ∧
    opened (commentedList.pieces 1) = [1, 2, 3, 4] ∧
    hiddenItem.WellLinked ∧ 1 < hiddenItem.size ∧ hiddenItem.Traversed 1 ∧
    hiddenItem.outer 1 = "<ul><li>a</li><!--b--></ul>".toList ∧
    opened (hiddenItem.pieces 1) = [1, 2, 3, 4] ∧
    hiddenItem.Walks [2, 4] [2, 3, 4, 5, 6] ∧ hiddenItem.Climbs 6 true ∧
    hiddenItem.findElements (fun e => e.name = "li".toList) = [2, 5] ∧
    hiddenItem.text 1 = "ac".toList := by
  have read : Document.parse "<ul><li>a</li><!--b--></ul>".toList = .ok commentedList := rfl
  have linked : commentedList.WellLinked := .ofForest _
  have longer := linked.importTree
    (.node (.element ⟨"li".toList, [], false⟩) [.node (.text "c".toList) []])
  have moved : hiddenItem.WellLinked := longer.append (by decide) (by decide) fun under =>
    absurd (longer.mem_descendants_iff.mpr under) (by decide)
  have shown := traversals_agree linked (show 1 < commentedList.size by decide)
  have list := traversals_agree moved (show 1 < hiddenItem.size by decide)
  have item := traversals_agree moved (show 6 < hiddenItem.size by decide)
  exact ⟨read, .of_parse read, shown, by decide, moved, by decide, list, rfl, by decide, list.down,
    item.up, by decide, rfl⟩

end Document

end Templates.Markup
